import SqlTide.Sensors.Dispatcher

/-!
# What every run keeps

A pass works on sensors of its registry, each with the declaration it was selected with.
`TickStep` lists what one step of a pass can do to the tick log. Tick ids are drawn once, and an
attempt writes its terminal row once, so no tick ever has two terminal rows.
-/

namespace SqlTide.Sensors

open List SensorState

variable {dispatcher : SensorDispatcher} {state : SensorState} {pass : Pass}

/-- An event sensor of the registry. -/
def EventSensorOf (registry : SensorRegistry) (sensor : LoadedSensor)
    (declaration : EventSensorDeclaration) : Prop :=
  sensor ∈ registry.sensors ∧ sensor.declaration = .event declaration

/-- The sensor of a phase is one of the registry, with its own declaration. -/
def Phase.Registered (registry : SensorRegistry) : Phase → Prop
  | .selecting => True
  | .readCheckpoint sensor declaration | .readNewest sensor declaration
  | .writeInitial sensor declaration _ | .readHead sensor declaration _ =>
    EventSensorOf registry sensor declaration
  | .readClock drain | .readPage drain _ | .rows drain _ | .finish drain _ =>
    EventSensorOf registry drain.sensor drain.declaration
  | .events delivery | .readTicks delivery _ | .deadLetter delivery _ _
  | .startAttempt delivery _ _ =>
    EventSensorOf registry delivery.drain.sensor delivery.drain.declaration
  | .poll sensor _ => sensor ∈ registry.sensors
  | .evaluate attempt | .record attempt _ =>
    match attempt.occasion with
    | .event delivery _ => EventSensorOf registry delivery.drain.sensor delivery.drain.declaration
    | .polling sensor => sensor ∈ registry.sensors

/-- A pass goes through the sensors of the registry in order. -/
def Registered (registry : SensorRegistry) (state : SensorState) : Prop :=
  ∀ pass, state.pass = some pass →
    pass.remaining <:+ registry.ordered ∧ pass.phase.Registered registry

namespace Registered

variable {registry : SensorRegistry}

theorem goto (h : pass.remaining <:+ registry.ordered) {phase : Phase}
    (hphase : phase.Registered registry) : Registered registry (state.goto pass phase) := by
  intro pass' hpass'
  cases hpass'
  exact ⟨h, hphase⟩

theorem write (h : pass.remaining <:+ registry.ordered) {store : SensorStore} {phase : Phase}
    (hphase : phase.Registered registry) : Registered registry (state.write pass store phase) := by
  intro pass' hpass'
  cases hpass'
  exact ⟨h, hphase⟩

theorem of_pass_none (h : state.pass = none) : Registered registry state := by
  intro pass hpass
  rw [h] at hpass
  exact absurd hpass (by simp)

theorem selectSensor (h : pass.remaining <:+ registry.ordered) (answer : Answer) :
    Registered registry (state.selectSensor pass answer) := by
  unfold SensorState.selectSensor
  cases hremaining : pass.remaining with
  | nil => exact of_pass_none rfl
  | cons sensor remaining =>
    rw [hremaining] at h
    have hsensor : sensor ∈ registry.sensors := (mem_insertionSort _).mp (h.subset (by simp))
    have hrest : remaining <:+ registry.ordered := (suffix_cons _ _).trans h
    dsimp only
    by_cases hrunning : effectiveSensorStatus sensor pass.overrides = .running
    · rw [if_pos hrunning]
      cases hdeclaration : sensor.declaration with
      | event declaration => exact goto hrest ⟨hsensor, hdeclaration⟩
      | polling minimumInterval =>
        dsimp only
        split_ifs
        · exact goto hrest hsensor
        · exact of_pass_none rfl
    · rw [if_neg hrunning]
      exact goto hrest trivial

theorem stepPass (h : pass.remaining <:+ dispatcher.registry.ordered)
    (hregistered : pass.phase.Registered dispatcher.registry) (answer : Answer) :
    Registered dispatcher.registry (state.stepPass dispatcher pass answer) := by
  cases hphase : pass.phase with
  | selecting => simpa only [SensorState.stepPass, hphase] using selectSensor h answer
  | readCheckpoint sensor declaration =>
    rw [hphase] at hregistered
    simp only [SensorState.stepPass, hphase]
    split <;> exact goto h hregistered
  | readNewest sensor declaration =>
    rw [hphase] at hregistered
    simp only [SensorState.stepPass, hphase]
    exact goto h hregistered
  | writeInitial sensor declaration position =>
    simp only [SensorState.stepPass, hphase]
    exact write h trivial
  | readHead sensor declaration checkpoint =>
    rw [hphase] at hregistered
    simp only [SensorState.stepPass, hphase]
    split
    · exact goto h trivial
    · exact goto h hregistered
  | readClock drain =>
    rw [hphase] at hregistered
    simp only [SensorState.stepPass, hphase]
    exact goto h hregistered
  | readPage drain warehouseNow =>
    rw [hphase] at hregistered
    simp only [SensorState.stepPass, hphase, SensorState.readPage]
    split <;> exact goto h hregistered
  | rows drain page =>
    rw [hphase] at hregistered
    simp only [SensorState.stepPass, hphase, deliverRow]
    split
    · exact goto h hregistered
    · split_ifs <;> exact goto h hregistered
  | events delivery =>
    rw [hphase] at hregistered
    simp only [SensorState.stepPass, hphase, deliverEvent]
    split
    · exact goto h hregistered
    · split_ifs <;> exact goto h hregistered
  | readTicks delivery event =>
    rw [hphase] at hregistered
    simp only [SensorState.stepPass, hphase, SensorState.readTicks]
    split_ifs <;> exact goto h hregistered
  | deadLetter delivery event attempts =>
    rw [hphase] at hregistered
    simp only [SensorState.stepPass, hphase]
    exact write h hregistered
  | startAttempt delivery event attempt =>
    rw [hphase] at hregistered
    simp only [SensorState.stepPass, hphase]
    exact write h hregistered
  | poll sensor minimumInterval =>
    rw [hphase] at hregistered
    simp only [SensorState.stepPass, hphase, SensorState.poll]
    split_ifs
    · exact goto h trivial
    · exact write h hregistered
  | evaluate attempt =>
    rw [hphase] at hregistered
    simp only [SensorState.stepPass, hphase]
    exact goto h hregistered
  | record attempt evaluation =>
    rw [hphase] at hregistered
    simp only [SensorState.stepPass, hphase, SensorState.record]
    refine write h ?_
    cases hoccasion : attempt.occasion with
    | polling sensor => trivial
    | event delivery event =>
      simp only [Phase.Registered, hoccasion] at hregistered
      dsimp only
      split_ifs <;> exact hregistered
  | finish drain leaseHeld =>
    simp only [SensorState.stepPass, hphase, SensorState.finishDrain]
    split_ifs
    · exact write h trivial
    · exact of_pass_none rfl

theorem next (h : Registered dispatcher.registry state) (e : DispatchEvent) :
    Registered dispatcher.registry (nextDispatch dispatcher state e) := by
  cases e with
  | observe row => exact h
  | elapse milliseconds => exact h
  | override sensorName status => exact h
  | dispatchOnce leaseAcquired =>
    simp only [nextDispatch]
    split
    · exact h
    · split_ifs
      · intro pass hpass
        cases hpass
        exact ⟨suffix_rfl, trivial⟩
      · exact h
  | step answer =>
    simp only [nextDispatch]
    split
    · exact h
    · next pass hpass => exact stepPass (h pass hpass).1 (h pass hpass).2 answer
  | crash => exact of_pass_none rfl

end Registered

/-- The phases in which no attempt is under way and nothing is decided about an event. -/
def Phase.isQuiet : Phase → Bool
  | .deadLetter .. | .startAttempt .. | .evaluate .. | .record .. => false
  | _ => true

/-- Nothing happens to the tick log. -/
structure Quiet (state state' : SensorState) : Prop where
  ticks : state'.store.ticks = state.store.ticks
  uuidsDrawn : state'.store.uuidsDrawn = state.store.uuidsDrawn
  evaluations : state'.evaluations = state.evaluations
  phase : ∀ pass', state'.pass = some pass' → state.pass = some pass' ∨ pass'.phase.isQuiet = true

/-- What a step of a pass does to the tick log. -/
inductive TickStep (dispatcher : SensorDispatcher) (state : SensorState) (pass : Pass)
    (answer : Answer) : SensorState → Prop
  | quiet {state' : SensorState} (hphase : pass.phase.isQuiet = true) (h : Quiet state state') :
      TickStep dispatcher state pass answer state'
  | giveUp {delivery : Delivery} {event : SensorEvent} {attempts : TickAttemptState}
      (hphase : pass.phase = .readTicks delivery event)
      (hattempts : attempts = tickAttemptState state.store.ticks delivery.drain.sensor.name
        event.id)
      (hunresolved : attempts.resolved = false) :
      TickStep dispatcher state pass answer
        (state.goto pass (.deadLetter delivery event attempts))
  | tryAgain {delivery : Delivery} {event : SensorEvent} {attempts : TickAttemptState}
      (hphase : pass.phase = .readTicks delivery event)
      (hattempts : attempts = tickAttemptState state.store.ticks delivery.drain.sensor.name
        event.id)
      (hunresolved : attempts.resolved = false)
      (hfailed : attempts.failedAttempts < delivery.drain.sensor.retryPolicy.maxAttempts) :
      TickStep dispatcher state pass answer
        (state.goto pass (.startAttempt delivery event (attempts.failedAttempts + 1)))
  | start {delivery : Delivery} {event : SensorEvent} {attempt : ℕ}
      (hphase : pass.phase = .startAttempt delivery event attempt) :
      TickStep dispatcher state pass answer
        (state.start dispatcher pass (.event delivery event) attempt)
  | poll {sensor : LoadedSensor} {minimumInterval : ℤ}
      (hphase : pass.phase = .poll sensor minimumInterval) :
      TickStep dispatcher state pass answer (state.start dispatcher pass (.polling sensor) 1)
  | evaluate {attempt : Attempt} (hphase : pass.phase = .evaluate attempt) :
      TickStep dispatcher state pass answer (state.evaluate pass attempt answer)
  | record {attempt : Attempt} {evaluation : SensorEvaluation}
      (hphase : pass.phase = .record attempt evaluation) :
      TickStep dispatcher state pass answer (state.record pass attempt evaluation)
  | deadLetter {delivery : Delivery} {event : SensorEvent} {attempts : TickAttemptState}
      (hphase : pass.phase = .deadLetter delivery event attempts) :
      TickStep dispatcher state pass answer
        (state.writeDeadLetter dispatcher pass delivery event attempts)

theorem Quiet.finishPass (state : SensorState) : Quiet state state.finishPass :=
  ⟨rfl, rfl, rfl, fun _ hpass' => by simp [SensorState.finishPass] at hpass'⟩

namespace TickStep

variable {answer : Answer}

theorem goto {phase : Phase} (hphase : pass.phase.isQuiet = true) (h : phase.isQuiet = true) :
    TickStep dispatcher state pass answer (state.goto pass phase) := by
  refine quiet hphase ⟨rfl, rfl, rfl, fun pass' hpass' => ?_⟩
  cases hpass'
  exact .inr h

theorem finishPass (hphase : pass.phase.isQuiet = true) :
    TickStep dispatcher state pass answer state.finishPass := quiet hphase (.finishPass state)

theorem selectSensor (hphase : pass.phase.isQuiet = true) :
    TickStep dispatcher state pass answer (state.selectSensor pass answer) := by
  unfold SensorState.selectSensor
  cases pass.remaining with
  | nil => exact finishPass hphase
  | cons sensor remaining =>
    have hgoto : ∀ phase : Phase, phase.isQuiet = true → TickStep dispatcher state pass answer
        (state.goto { pass with remaining } phase) := by
      intro phase hphase'
      refine quiet hphase ⟨rfl, rfl, rfl, fun pass' hpass' => ?_⟩
      cases hpass'
      exact .inr hphase'
    dsimp only
    by_cases hrunning : effectiveSensorStatus sensor pass.overrides = .running
    · rw [if_pos hrunning]
      cases sensor.declaration with
      | event declaration => exact hgoto _ rfl
      | polling minimumInterval =>
        dsimp only
        split_ifs
        · exact hgoto _ rfl
        · exact finishPass hphase
    · rw [if_neg hrunning]
      exact hgoto _ rfl

theorem readTicks {delivery : Delivery} {event : SensorEvent}
    (hphase : pass.phase = .readTicks delivery event) :
    TickStep dispatcher state pass answer (state.readTicks pass delivery event) := by
  have hquiet : pass.phase.isQuiet = true := by
    rw [hphase]
    rfl
  unfold SensorState.readTicks
  dsimp only
  split_ifs with hresolved hspent hearly
  · exact goto hquiet rfl
  · exact giveUp hphase rfl (by simpa using hresolved)
  · exact goto hquiet rfl
  · exact tryAgain hphase rfl (by simpa using hresolved) (by omega)

theorem finishDrain (hphase : pass.phase.isQuiet = true) (drain : Drain) (leaseHeld : Bool) :
    TickStep dispatcher state pass answer (state.finishDrain pass drain leaseHeld) := by
  unfold SensorState.finishDrain
  cases drain.advancedPosition <;> dsimp only <;> split_ifs
  all_goals
    refine quiet hphase ⟨rfl, rfl, rfl, fun pass' hpass' => ?_⟩
    first
    | exact absurd hpass' (by simp)
    | cases hpass'
      exact .inr rfl

end TickStep

/-- Every step of a pass is one of these. -/
theorem tickStep_stepPass (answer : Answer) :
    TickStep dispatcher state pass answer (state.stepPass dispatcher pass answer) := by
  have hquiet : ∀ phase, pass.phase = phase → phase.isQuiet = true → pass.phase.isQuiet = true :=
    fun _ hphase hisQuiet => hphase ▸ hisQuiet
  cases hphase : pass.phase with
  | selecting =>
    simpa only [SensorState.stepPass, hphase] using TickStep.selectSensor (hquiet _ hphase rfl)
  | readCheckpoint sensor declaration =>
    simp only [SensorState.stepPass, hphase]
    split <;> exact TickStep.goto (hquiet _ hphase rfl) rfl
  | readNewest sensor declaration =>
    simp only [SensorState.stepPass, hphase]
    exact TickStep.goto (hquiet _ hphase rfl) rfl
  | writeInitial sensor declaration position =>
    simp only [SensorState.stepPass, hphase]
    refine .quiet (hquiet _ hphase rfl) ⟨rfl, rfl, rfl, fun pass' hpass' => ?_⟩
    cases hpass'
    exact .inr rfl
  | readHead sensor declaration checkpoint =>
    simp only [SensorState.stepPass, hphase]
    split <;> exact TickStep.goto (hquiet _ hphase rfl) rfl
  | readClock drain =>
    simp only [SensorState.stepPass, hphase]
    exact TickStep.goto (hquiet _ hphase rfl) rfl
  | readPage drain warehouseNow =>
    simp only [SensorState.stepPass, hphase, SensorState.readPage]
    split <;> exact TickStep.goto (hquiet _ hphase rfl) rfl
  | rows drain page =>
    simp only [SensorState.stepPass, hphase, deliverRow]
    split
    · exact TickStep.goto (hquiet _ hphase rfl) rfl
    · split_ifs <;> exact TickStep.goto (hquiet _ hphase rfl) rfl
  | events delivery =>
    simp only [SensorState.stepPass, hphase, deliverEvent]
    split
    · exact TickStep.goto (hquiet _ hphase rfl) rfl
    · split_ifs <;> exact TickStep.goto (hquiet _ hphase rfl) rfl
  | readTicks delivery event =>
    simpa only [SensorState.stepPass, hphase] using TickStep.readTicks hphase
  | deadLetter delivery event attempts =>
    simpa only [SensorState.stepPass, hphase] using TickStep.deadLetter hphase
  | startAttempt delivery event attempt =>
    simpa only [SensorState.stepPass, hphase] using TickStep.start hphase
  | poll sensor minimumInterval =>
    simp only [SensorState.stepPass, hphase, SensorState.poll]
    split_ifs
    · exact TickStep.goto (hquiet _ hphase rfl) rfl
    · exact TickStep.poll hphase
  | evaluate attempt => simpa only [SensorState.stepPass, hphase] using TickStep.evaluate hphase
  | record attempt evaluation =>
    simpa only [SensorState.stepPass, hphase] using TickStep.record hphase
  | finish drain leaseHeld =>
    simpa only [SensorState.stepPass, hphase] using
      TickStep.finishDrain (hquiet _ hphase rfl) drain leaseHeld

/-- An event of a run leaves the tick log and the pass alone, ends the pass, or is a step of it. -/
theorem quiet_or_tickStep (dispatcher : SensorDispatcher) (state : SensorState)
    (e : DispatchEvent) :
    (Quiet state (nextDispatch dispatcher state e) ∧
      ∀ pass, state.pass = some pass → (nextDispatch dispatcher state e).pass = some pass) ∨
    e = .crash ∨
    ∃ pass answer, state.pass = some pass ∧
      TickStep dispatcher state pass answer (nextDispatch dispatcher state e) := by
  have hsame : ∀ store : SensorStore, store.ticks = state.store.ticks →
      store.uuidsDrawn = state.store.uuidsDrawn → Quiet state { state with store } := by
    intro store hticks hdrawn
    exact ⟨hticks, hdrawn, rfl, fun _ hpass' => .inl hpass'⟩
  cases e with
  | observe row =>
    left
    simp only [nextDispatch, SensorStore.observe]
    split_ifs <;> exact ⟨hsame _ rfl rfl, fun _ hpass => hpass⟩
  | elapse milliseconds => exact .inl ⟨hsame _ rfl rfl, fun _ hpass => hpass⟩
  | override sensorName status => exact .inl ⟨hsame _ rfl rfl, fun _ hpass => hpass⟩
  | dispatchOnce leaseAcquired =>
    left
    cases hpass : state.pass with
    | some pass =>
      simp only [nextDispatch, hpass]
      exact ⟨hsame _ rfl rfl, fun _ hsome => hsome⟩
    | none =>
      simp only [nextDispatch, hpass]
      refine ⟨?_, fun _ hsome => absurd hsome (by simp)⟩
      split_ifs
      · refine ⟨rfl, rfl, rfl, fun pass' hpass' => ?_⟩
        cases hpass'
        exact .inr rfl
      · exact hsame _ rfl rfl
  | step answer =>
    cases hpass : state.pass with
    | none =>
      left
      simp only [nextDispatch, hpass]
      exact ⟨hsame _ rfl rfl, fun _ hsome => absurd hsome (by simp)⟩
    | some pass =>
      right; right
      refine ⟨pass, answer, rfl, ?_⟩
      simpa only [nextDispatch, hpass] using tickStep_stepPass answer
  | crash => exact .inr (.inl rfl)

/-- What holds after every quiet change and after every step of a pass holds after every event. -/
theorem nextDispatch_induction {I : SensorState → Prop}
    (hquiet : ∀ {state' : SensorState}, Quiet state state' → I state')
    (hstep : ∀ {pass : Pass}, state.pass = some pass → ∀ {answer : Answer} {state' : SensorState},
      TickStep dispatcher state pass answer state' → I state') (e : DispatchEvent) :
    I (nextDispatch dispatcher state e) := by
  rcases quiet_or_tickStep dispatcher state e with ⟨hsame, -⟩ | rfl | ⟨pass, answer, hpass, htick⟩
  · exact hquiet hsame
  · exact hquiet (.finishPass state)
  · exact hstep hpass htick

/-- The attempt whose terminal row is not written yet. -/
def Phase.attempt? : Phase → Option Attempt
  | .evaluate attempt | .record attempt _ => some attempt
  | _ => none

def SensorState.attempt? (state : SensorState) : Option Attempt :=
  state.pass.bind (·.phase.attempt?)

theorem attempt?_of_isQuiet {phase : Phase} (h : phase.isQuiet = true) : phase.attempt? = none := by
  cases phase <;> first | rfl | exact absurd h (by simp [Phase.isQuiet])

/-- An id that has been drawn. -/
def Drawn (dispatcher : SensorDispatcher) (state : SensorState) (tickId : String) : Prop :=
  ∃ k < state.store.uuidsDrawn, tickId = dispatcher.uuid4Hex k

structure TickInv (dispatcher : SensorDispatcher) (state : SensorState) : Prop where
  once : TerminalOnce state.store.ticks
  drawn : ∀ tick ∈ state.store.ticks, Drawn dispatcher state tick.tickId
  attempt_drawn : ∀ attempt, state.attempt? = some attempt → Drawn dispatcher state attempt.tickId
  attempt_open : ∀ attempt, state.attempt? = some attempt →
    ∀ tick ∈ state.store.ticks, tick.isTerminal = true → tick.tickId ≠ attempt.tickId

namespace TickInv

section

variable (h : TickInv dispatcher state)

include h

theorem quiet {state' : SensorState} (hquiet : Quiet state state') : TickInv dispatcher state' := by
  have hdrawn : ∀ tickId, Drawn dispatcher state tickId → Drawn dispatcher state' tickId := by
    intro tickId hid
    unfold Drawn
    rw [hquiet.uuidsDrawn]
    exact hid
  have hattempt : ∀ attempt, state'.attempt? = some attempt → state.attempt? = some attempt := by
    intro attempt hsome
    obtain ⟨pass', hpass', hattempt⟩ := Option.bind_eq_some_iff.mp hsome
    rcases hquiet.phase pass' hpass' with hsame | hphase
    · exact Option.bind_eq_some_iff.mpr ⟨pass', hsame, hattempt⟩
    · rw [attempt?_of_isQuiet hphase] at hattempt
      exact absurd hattempt (by simp)
  refine ⟨?_, ?_, ?_, ?_⟩
  · rw [hquiet.ticks]
    exact h.once
  · rw [hquiet.ticks]
    exact fun tick htick => hdrawn _ (h.drawn tick htick)
  · exact fun attempt hsome => hdrawn _ (h.attempt_drawn attempt (hattempt attempt hsome))
  · rw [hquiet.ticks]
    exact fun attempt hsome => h.attempt_open attempt (hattempt attempt hsome)

theorem goto {phase : Phase} (hphase : phase.attempt? = none) :
    TickInv dispatcher (state.goto pass phase) := by
  have hnone : ∀ attempt, (state.goto pass phase).attempt? ≠ some attempt := by
    intro attempt hsome
    simp [attempt?, SensorState.goto, hphase] at hsome
  exact ⟨h.once, h.drawn, fun attempt hsome => absurd hsome (hnone attempt),
    fun attempt hsome => absurd hsome (hnone attempt)⟩

theorem freshRow {row : AdapterSensorTickRecord} {phase : Phase}
    (hid : row.tickId = dispatcher.uuid4Hex state.store.uuidsDrawn)
    (hphase : ∀ attempt, phase.attempt? = some attempt →
      attempt.tickId = row.tickId ∧ row.isTerminal = false) :
    TickInv dispatcher (state.write pass
      { state.store.recordTick row with uuidsDrawn := state.store.uuidsDrawn + 1 } phase) := by
  have hnew : ∀ tick ∈ state.store.ticks, tick.tickId ≠ row.tickId := by
    intro tick htick heq
    obtain ⟨k, hk, hdrawn⟩ := h.drawn tick htick
    have := dispatcher.uuid4Hex_injective (hdrawn.symm.trans (heq.trans hid))
    omega
  have hrow : ∃ k < state.store.uuidsDrawn + 1, row.tickId = dispatcher.uuid4Hex k :=
    ⟨_, Nat.lt_succ_self _, hid⟩
  have hattempt : ∀ attempt, (state.write pass
      { state.store.recordTick row with uuidsDrawn := state.store.uuidsDrawn + 1 }
        phase).attempt? = some attempt → attempt.tickId = row.tickId ∧ row.isTerminal = false := by
    intro attempt hsome
    exact hphase attempt (by simpa [attempt?, SensorState.write] using hsome)
  refine ⟨?_, ?_, ?_, ?_⟩
  · exact terminalOnce_append_singleton.mpr ⟨h.once, fun _ tick htick _ => hnew tick htick⟩
  · intro tick htick
    rcases mem_append.mp htick with hold | hlast
    · obtain ⟨k, hk, hdrawn⟩ := h.drawn tick hold
      exact ⟨k, Nat.lt_succ_of_lt hk, hdrawn⟩
    · obtain rfl := mem_singleton.mp hlast
      exact hrow
  · intro attempt hsome
    rw [(hattempt attempt hsome).1]
    exact hrow
  · intro attempt hsome tick htick hterminal
    obtain ⟨hsame, hopen⟩ := hattempt attempt hsome
    rw [hsame]
    rcases mem_append.mp htick with hold | hlast
    · exact hnew tick hold
    · obtain rfl := mem_singleton.mp hlast
      rw [hopen] at hterminal
      exact absurd hterminal (by simp)

theorem start (occasion : Occasion) (attemptNumber : ℕ) :
    TickInv dispatcher (state.start dispatcher pass occasion attemptNumber) := by
  refine h.freshRow rfl fun attempt hsome => ?_
  cases hsome
  exact ⟨rfl, rfl⟩

theorem record {attempt : Attempt} {evaluation : SensorEvaluation}
    (hattempt : state.attempt? = some attempt) :
    TickInv dispatcher (state.record pass attempt evaluation) := by
  refine ⟨?_, ?_, ?_, ?_⟩
  · exact terminalOnce_append_singleton.mpr
      ⟨h.once, fun _ tick htick hterminal => h.attempt_open attempt hattempt tick htick hterminal⟩
  · intro tick htick
    rcases mem_append.mp htick with hold | hlast
    · exact h.drawn tick hold
    · obtain rfl := mem_singleton.mp hlast
      exact h.attempt_drawn attempt hattempt
  all_goals
    intro attempt' hsome
    exfalso
    revert hsome
    simp only [attempt?, SensorState.record, SensorState.write, Option.bind_some]
    cases attempt.occasion with
    | polling sensor => simp [Phase.attempt?]
    | event delivery event =>
      dsimp only
      split_ifs <;> simp [Phase.attempt?]

theorem tickStep (hpass : state.pass = some pass) {answer : Answer} {state' : SensorState}
    (hstep : TickStep dispatcher state pass answer state') : TickInv dispatcher state' := by
  have hattempt : state.attempt? = pass.phase.attempt? := by simp [attempt?, hpass]
  cases hstep with
  | quiet hphase hquiet => exact h.quiet hquiet
  | giveUp hphase hattempts hunresolved => exact h.goto rfl
  | tryAgain hphase hattempts hunresolved hfailed => exact h.goto rfl
  | start hphase => exact h.start _ _
  | poll hphase => exact h.start _ _
  | @evaluate attempt hphase =>
    have hsame : (state.evaluate pass attempt answer).attempt? = state.attempt? := by
      rw [hattempt, hphase]
      rfl
    exact ⟨h.once, h.drawn, fun attempt' hsome => h.attempt_drawn attempt' (hsame ▸ hsome),
      fun attempt' hsome => h.attempt_open attempt' (hsame ▸ hsome)⟩
  | record hphase => exact h.record (by rw [hattempt, hphase]; rfl)
  | deadLetter hphase => exact h.freshRow rfl fun attempt hsome => by simp [Phase.attempt?] at hsome

theorem next (e : DispatchEvent) : TickInv dispatcher (nextDispatch dispatcher state e) :=
  nextDispatch_induction h.quiet h.tickStep e

end

theorem fresh {observations : List Observation} {hids : IdsOnce observations} {clock : ℤ} :
    TickInv dispatcher (.fresh observations hids clock) :=
  ⟨nodup_nil, fun _ htick => by simp [SensorState.fresh] at htick,
    fun _ hsome => by simp [attempt?, SensorState.fresh] at hsome,
    fun _ hsome => by simp [attempt?, SensorState.fresh] at hsome⟩

end TickInv

end SqlTide.Sensors
