import SqlTide.Sensors.PassInvariants

/-!
# How often a handler is evaluated for one event

A pass counts the failed attempts of an event in the tick log. The log bounds the terminal rows
of an event whatever happens, but a call of a handler that never gets its terminal row is not
counted: a dispatcher that dies inside such a call makes it again.
-/

namespace SqlTide.Sensors

open List SqlTide.Runs SensorState

variable {dispatcher : SensorDispatcher} {state : SensorState} {pass : Pass}
  {ticks : List AdapterSensorTickRecord} {row : AdapterSensorTickRecord}
  {p : AdapterSensorTickRecord → Bool} {sensorName eventId : String}

/-- The number of rows of one event that have a property. -/
def eventRows (p : AdapterSensorTickRecord → Bool) (ticks : List AdapterSensorTickRecord)
    (sensorName eventId : String) : ℕ :=
  ticks.countP fun tick => concerns sensorName eventId tick && p tick

theorem eventRows_append_of_concerns (hrow : concerns sensorName eventId row = true) :
    eventRows p (ticks ++ [row]) sensorName eventId =
      eventRows p ticks sensorName eventId + (p row).toNat := by
  unfold eventRows
  rw [countP_append, countP_singleton, hrow]
  cases p row <;> rfl

theorem eventRows_append_of_not (hrow : concerns sensorName eventId row = true → p row = false) :
    eventRows p (ticks ++ [row]) sensorName eventId = eventRows p ticks sensorName eventId := by
  unfold eventRows
  rw [countP_append, countP_singleton, if_neg, Nat.add_zero]
  rw [Bool.and_eq_true]
  rintro ⟨hconcerns, hp⟩
  rw [hrow hconcerns] at hp
  exact absurd hp (by simp)

/-- No row resolves the event. -/
def Unresolved (ticks : List AdapterSensorTickRecord) (sensorName eventId : String) : Prop :=
  ∀ tick ∈ ticks, concerns sensorName eventId tick = true → tick.isResolved = false

namespace Unresolved

theorem of_resolved_eq_false (honce : TerminalOnce ticks)
    (h : (tickAttemptState ticks sensorName eventId).resolved = false) :
    Unresolved ticks sensorName eventId := by
  intro tick htick hconcerns
  by_contra hresolved
  have := (resolved_iff honce).mpr ⟨tick, htick, hconcerns, by simpa using hresolved⟩
  rw [h] at this
  exact absurd this (by simp)

theorem append (h : Unresolved ticks sensorName eventId)
    (hrow : concerns sensorName eventId row = true → row.isResolved = false) :
    Unresolved (ticks ++ [row]) sensorName eventId := by
  intro tick htick hconcerns
  rcases mem_append.mp htick with hold | hlast
  · exact h tick hold hconcerns
  · obtain rfl := mem_singleton.mp hlast
    exact hrow hconcerns

theorem evaluated_eq_failed (h : Unresolved ticks sensorName eventId) :
    eventRows (·.isEvaluated) ticks sensorName eventId =
      eventRows (·.isFailed) ticks sensorName eventId := by
  refine countP_congr fun tick htick => ?_
  rw [Bool.and_eq_true, Bool.and_eq_true]
  refine and_congr_right fun hconcerns => ?_
  simpa [AdapterSensorTickRecord.isEvaluated, AdapterSensorTickRecord.isFailed] using
    SensorTickStatus.isEvaluated_iff_failed (h tick htick hconcerns)

theorem deadLetters_eq_zero (h : Unresolved ticks sensorName eventId) :
    eventRows (·.isDeadLettered) ticks sensorName eventId = 0 := by
  refine countP_eq_zero.mpr fun tick htick hrow => ?_
  obtain ⟨hconcerns, hdead⟩ := (Bool.and_eq_true _ _).mp hrow
  have hopen := h tick htick hconcerns
  have hstatus : tick.status = .deadLettered := by
    simpa [AdapterSensorTickRecord.isDeadLettered] using hdead
  rw [AdapterSensorTickRecord.isResolved, hstatus] at hopen
  exact absurd hopen (by decide)

end Unresolved

/-- The sensor and event whose next attempt has been decided on or is under way. -/
def Phase.due? : Phase → Option (LoadedSensor × String)
  | .startAttempt delivery event _ => some (delivery.drain.sensor, event.id)
  | .evaluate attempt | .record attempt _ =>
    match attempt.occasion with
    | .event delivery event => some (delivery.drain.sensor, event.id)
    | .polling _ => none
  | _ => none

/-- The sensor and event that are about to be dead-lettered. -/
def Phase.condemned? : Phase → Option (LoadedSensor × String)
  | .deadLetter delivery event _ => some (delivery.drain.sensor, event.id)
  | _ => none

structure AttemptInv (dispatcher : SensorDispatcher) (state : SensorState) : Prop where
  evaluated_le : ∀ sensor ∈ dispatcher.registry.sensors, ∀ eventId,
    eventRows (·.isEvaluated) state.store.ticks sensor.name eventId ≤
      sensor.retryPolicy.maxAttempts
  deadLetters_le : ∀ sensorName eventId,
    eventRows (·.isDeadLettered) state.store.ticks sensorName eventId ≤ 1
  due : ∀ pass sensor eventId, state.pass = some pass →
    pass.phase.due? = some (sensor, eventId) →
      Unresolved state.store.ticks sensor.name eventId ∧
        eventRows (·.isFailed) state.store.ticks sensor.name eventId <
          sensor.retryPolicy.maxAttempts
  condemned : ∀ pass sensor eventId, state.pass = some pass →
    pass.phase.condemned? = some (sensor, eventId) →
      Unresolved state.store.ticks sensor.name eventId

theorem concerns_tickRow {attempt : Attempt} {status : SensorTickStatus} {completedAt : Option ℤ}
    {evaluation : Option SensorEvaluation}
    (h : concerns sensorName eventId (tickRow attempt status completedAt evaluation) = true) :
    ∃ delivery event, attempt.occasion = .event delivery event ∧
      delivery.drain.sensor.name = sensorName ∧ event.id = eventId := by
  obtain ⟨occasion, tickId, number, startedAt⟩ := attempt
  cases occasion with
  | polling sensor => simp [concerns, tickRow] at h
  | event delivery event =>
    refine ⟨delivery, event, rfl, ?_⟩
    simpa [concerns, tickRow, Attempt.sensor, Occasion.sensor] using h

namespace AttemptInv

section

variable (h : AttemptInv dispatcher state)

include h

theorem quiet {state' : SensorState}
    (hquiet : Quiet state state') : AttemptInv dispatcher state' := by
  have hphase : ∀ pass', state'.pass = some pass' → state.pass = some pass' ∨
      pass'.phase.due? = none ∧ pass'.phase.condemned? = none := by
    intro pass' hpass'
    refine (hquiet.phase pass' hpass').imp_right fun hphase => ?_
    cases hcase : pass'.phase <;> rw [hcase] at hphase <;>
      first | exact ⟨rfl, rfl⟩ | exact absurd hphase (by simp [Phase.isQuiet])
  refine ⟨?_, ?_, ?_, ?_⟩
  · rw [hquiet.ticks]
    exact h.evaluated_le
  · rw [hquiet.ticks]
    exact h.deadLetters_le
  · intro pass' sensor eventId hpass' hdue
    rw [hquiet.ticks]
    rcases hphase pass' hpass' with hsame | ⟨hnone, -⟩
    · exact h.due pass' sensor eventId hsame hdue
    · rw [hnone] at hdue
      exact absurd hdue (by simp)
  · intro pass' sensor eventId hpass' hcondemned
    rw [hquiet.ticks]
    rcases hphase pass' hpass' with hsame | ⟨-, hnone⟩
    · exact h.condemned pass' sensor eventId hsame hcondemned
    · rw [hnone] at hcondemned
      exact absurd hcondemned (by simp)

theorem goto {phase : Phase} (hdue : ∀ sensor eventId, phase.due? = some (sensor, eventId) →
      Unresolved state.store.ticks sensor.name eventId ∧
        eventRows (·.isFailed) state.store.ticks sensor.name eventId <
          sensor.retryPolicy.maxAttempts)
    (hcondemned : ∀ sensor eventId, phase.condemned? = some (sensor, eventId) →
      Unresolved state.store.ticks sensor.name eventId) :
    AttemptInv dispatcher (state.goto pass phase) := by
  refine ⟨h.evaluated_le, h.deadLetters_le, ?_, ?_⟩
  · intro pass' sensor eventId hpass'
    cases hpass'
    exact hdue sensor eventId
  · intro pass' sensor eventId hpass'
    cases hpass'
    exact hcondemned sensor eventId

theorem append {store : SensorStore} {phase : Phase}
    (hticks : store.ticks = state.store.ticks ++ [row])
    (hevaluated : ∀ sensor ∈ dispatcher.registry.sensors, ∀ eventId,
      concerns sensor.name eventId row = true → row.isEvaluated = true →
        eventRows (·.isEvaluated) state.store.ticks sensor.name eventId <
          sensor.retryPolicy.maxAttempts)
    (hdead : ∀ sensorName eventId, concerns sensorName eventId row = true →
      row.isDeadLettered = true → Unresolved state.store.ticks sensorName eventId)
    (hdue : ∀ sensor eventId, phase.due? = some (sensor, eventId) →
      row.status = .started ∧ Unresolved state.store.ticks sensor.name eventId ∧
        eventRows (·.isFailed) state.store.ticks sensor.name eventId <
          sensor.retryPolicy.maxAttempts) (hcondemned : phase.condemned? = none) :
    AttemptInv dispatcher (state.write pass store phase) := by
  refine ⟨?_, ?_, ?_, ?_⟩
  · intro sensor hsensor eventId
    change eventRows _ store.ticks _ _ ≤ _
    rw [hticks]
    by_cases hrow : concerns sensor.name eventId row = true ∧ row.isEvaluated = true
    · have hlt := hevaluated sensor hsensor eventId hrow.1 hrow.2
      rw [eventRows_append_of_concerns hrow.1, hrow.2]
      exact hlt
    · rw [eventRows_append_of_not fun hconcerns => by simpa [hconcerns] using hrow]
      exact h.evaluated_le sensor hsensor eventId
  · intro sensorName eventId
    change eventRows _ store.ticks _ _ ≤ _
    rw [hticks]
    by_cases hrow : concerns sensorName eventId row = true ∧ row.isDeadLettered = true
    · have hzero := (hdead sensorName eventId hrow.1 hrow.2).deadLetters_eq_zero
      rw [eventRows_append_of_concerns hrow.1, hrow.2, hzero]
      exact le_rfl
    · rw [eventRows_append_of_not fun hconcerns => by simpa [hconcerns] using hrow]
      exact h.deadLetters_le sensorName eventId
  · intro pass' sensor eventId hpass' hsome
    cases hpass'
    obtain ⟨hstarted, hunresolved, hlt⟩ := hdue sensor eventId hsome
    change Unresolved store.ticks _ _ ∧ eventRows _ store.ticks _ _ < _
    rw [hticks]
    refine ⟨hunresolved.append fun _ => ?_, ?_⟩
    · rw [AdapterSensorTickRecord.isResolved, hstarted]
      rfl
    · rw [eventRows_append_of_not fun _ => ?_]
      · exact hlt
      · simp [AdapterSensorTickRecord.isFailed, hstarted]
  · intro pass' sensor eventId hpass' hsome
    cases hpass'
    rw [hcondemned] at hsome
    exact absurd hsome (by simp)

theorem start {occasion : Occasion} {attemptNumber : ℕ}
    (hdue : ∀ delivery event, occasion = .event delivery event →
      Unresolved state.store.ticks delivery.drain.sensor.name event.id ∧
        eventRows (·.isFailed) state.store.ticks delivery.drain.sensor.name event.id <
          delivery.drain.sensor.retryPolicy.maxAttempts) :
    AttemptInv dispatcher (state.start dispatcher pass occasion attemptNumber) := by
  refine h.append rfl ?_ ?_ ?_ rfl
  · intro sensor _ eventId _ hevaluated
    exact absurd hevaluated (by simp [tickRow, AdapterSensorTickRecord.isEvaluated,
      SensorTickStatus.isEvaluated])
  · intro sensorName eventId _ hdead
    exact absurd hdead (by simp [tickRow, AdapterSensorTickRecord.isDeadLettered])
  · intro sensor eventId hsome
    refine ⟨rfl, ?_⟩
    cases occasion with
    | polling sensor => simp [Phase.due?] at hsome
    | event delivery event =>
      obtain ⟨rfl, rfl⟩ : delivery.drain.sensor = sensor ∧ event.id = eventId := by
        simpa [Phase.due?] using hsome
      exact hdue delivery event rfl

theorem tickStep (honce : TerminalOnce state.store.ticks)
    (hregistered : Registered dispatcher.registry state) (hpass : state.pass = some pass)
    {answer : Answer} {state' : SensorState}
    (hstep : TickStep dispatcher state pass answer state') : AttemptInv dispatcher state' := by
  have hdue := fun sensor eventId => h.due pass sensor eventId hpass
  cases hstep with
  | quiet hphase hquiet => exact h.quiet hquiet
  | giveUp hphase hattempts hunresolved =>
    refine h.goto (fun sensor eventId hsome => absurd hsome (by simp [Phase.due?])) ?_
    intro sensor eventId hsome
    obtain ⟨rfl, rfl⟩ := Prod.mk.inj (Option.some.inj hsome)
    exact .of_resolved_eq_false honce (hattempts ▸ hunresolved)
  | tryAgain hphase hattempts hunresolved hfailed =>
    refine h.goto ?_ (fun sensor eventId hsome => absurd hsome (by simp [Phase.condemned?]))
    intro sensor eventId hsome
    obtain ⟨rfl, rfl⟩ := Prod.mk.inj (Option.some.inj hsome)
    refine ⟨.of_resolved_eq_false honce (hattempts ▸ hunresolved), ?_⟩
    rw [hattempts, failedAttempts_eq honce] at hfailed
    exact hfailed
  | @start delivery event attempt hphase =>
    refine h.start fun delivery' event' hoccasion => ?_
    obtain ⟨rfl, rfl⟩ := Occasion.event.inj hoccasion
    exact hdue _ _ (by rw [hphase]; rfl)
  | poll hphase => exact h.start fun delivery' event' hoccasion => absurd hoccasion (by simp)
  | @evaluate attempt hphase =>
    have hgoto : AttemptInv dispatcher (state.goto pass
        (.record attempt (evaluateSensorHandler attempt.sensor answer.outcome))) := by
      refine h.goto ?_ (fun sensor eventId hsome => absurd hsome (by simp [Phase.condemned?]))
      intro sensor eventId hsome
      exact hdue sensor eventId (by rw [hphase]; exact hsome)
    exact ⟨hgoto.evaluated_le, hgoto.deadLetters_le, hgoto.due, hgoto.condemned⟩
  | @record attempt evaluation hphase =>
    refine h.append rfl ?_ ?_ ?_ ?_
    · intro sensor hsensor eventId hconcerns _
      obtain ⟨delivery, event, hoccasion, hname, rfl⟩ := concerns_tickRow hconcerns
      have hregistered := (hregistered pass hpass).2
      simp only [hphase, Phase.Registered, hoccasion] at hregistered
      have hsame : delivery.drain.sensor = sensor :=
        inj_on_of_nodup_map dispatcher.registry.names_nodup hregistered.1 hsensor hname
      obtain ⟨hunresolved, hlt⟩ := hdue sensor event.id
        (by simp only [hphase, Phase.due?, hoccasion, hsame])
      rw [hunresolved.evaluated_eq_failed]
      exact hlt
    · intro sensorName eventId _ hdead
      have hstatus : evaluation.status = .deadLettered := of_decide_eq_true hdead
      have hevaluated := evaluation.evaluated
      rw [hstatus] at hevaluated
      exact absurd hevaluated (by decide)
    · intro sensor eventId hsome
      exfalso
      revert hsome
      cases attempt.occasion with
      | polling sensor => simp [Phase.due?]
      | event delivery event =>
        dsimp only
        split_ifs <;> simp [Phase.due?]
    · cases attempt.occasion with
      | polling sensor => rfl
      | event delivery event =>
        dsimp only
        split_ifs <;> rfl
  | @deadLetter delivery event attempts hphase =>
    refine h.append rfl ?_ ?_ (fun sensor eventId hsome => absurd hsome (by simp [Phase.due?])) rfl
    · intro sensor _ eventId _ hevaluated
      exact absurd hevaluated (by simp [deadLetterRow, AdapterSensorTickRecord.isEvaluated,
        SensorTickStatus.isEvaluated])
    · intro sensorName eventId hconcerns _
      obtain ⟨rfl, rfl⟩ : delivery.drain.sensor.name = sensorName ∧ event.id = eventId := by
        simpa [concerns, deadLetterRow] using hconcerns
      exact h.condemned pass _ _ hpass (by rw [hphase]; rfl)

theorem next (honce : TerminalOnce state.store.ticks)
    (hregistered : Registered dispatcher.registry state) (e : DispatchEvent) :
    AttemptInv dispatcher (nextDispatch dispatcher state e) :=
  nextDispatch_induction h.quiet (h.tickStep honce hregistered) e

end

theorem fresh {observations : List Observation} {hids : IdsOnce observations} {clock : ℤ} :
    AttemptInv dispatcher (.fresh observations hids clock) :=
  ⟨fun _ _ _ => Nat.zero_le _, fun _ _ => Nat.zero_le _, fun _ _ _ hpass => (nomatch hpass),
    fun _ _ _ hpass => (nomatch hpass)⟩

end AttemptInv

/-- The sensor and event whose handler has been called without a terminal row so far. -/
def Phase.evaluating? : Phase → Option (String × String)
  | .record attempt _ =>
    match attempt.occasion with
    | .event delivery event => some (delivery.drain.sensor.name, event.id)
    | .polling _ => none
  | _ => none

def SensorState.evaluating? (state : SensorState) : Option (String × String) :=
  state.pass.bind (·.phase.evaluating?)

/-- The process does not die between the call of a handler for an event and its terminal row. -/
def OrderlyCrash (state : SensorState) : DispatchEvent → Prop
  | .crash => state.evaluating? = none
  | _ => True

instance (state : SensorState) : DecidablePred (OrderlyCrash state)
  | .crash => inferInstanceAs (Decidable (state.evaluating? = none))
  | .observe _ | .elapse _ | .override _ _ | .dispatchOnce _ | .step _ => isTrue trivial

/-- Every call has its terminal row, but for the one under way. -/
def CallsRecorded (state : SensorState) : Prop :=
  ∀ sensorName eventId, state.evaluations.count (sensorName, eventId) ≤
    eventRows (·.isEvaluated) state.store.ticks sensorName eventId +
      if state.evaluating? = some (sensorName, eventId) then 1 else 0

namespace CallsRecorded

/-- Rows are only added, and the pass has no call under way before or keeps it. -/
theorem keep (h : CallsRecorded state) {state' : SensorState}
    (hevaluations : state'.evaluations = state.evaluations)
    (hticks : ∃ rows, state'.store.ticks = state.store.ticks ++ rows)
    (hevaluating : state.evaluating? = none ∨ state'.evaluating? = state.evaluating?) :
    CallsRecorded state' := by
  intro sensorName eventId
  obtain ⟨rows, hrows⟩ := hticks
  have hle : eventRows (·.isEvaluated) state.store.ticks sensorName eventId ≤
      eventRows (·.isEvaluated) state'.store.ticks sensorName eventId := by
    rw [hrows, eventRows, eventRows, countP_append]
    omega
  have hcount := h sensorName eventId
  rw [hevaluations]
  rcases hevaluating with hnone | hsame
  · simp only [hnone, reduceCtorEq, if_false] at hcount
    omega
  · rw [hsame]
    omega

theorem tickStep (h : CallsRecorded state) (hpass : state.pass = some pass) {answer : Answer}
    {state' : SensorState} (hstep : TickStep dispatcher state pass answer state') :
    CallsRecorded state' := by
  have hevaluating : state.evaluating? = pass.phase.evaluating? := by
    simp [evaluating?, hpass]
  have hnone : pass.phase.isQuiet = true → state.evaluating? = none := by
    intro hquiet
    rw [hevaluating]
    cases hphase : pass.phase <;> rw [hphase] at hquiet <;>
      first | rfl | exact absurd hquiet (by simp [Phase.isQuiet])
  cases hstep with
  | quiet hphase hquiet =>
    exact h.keep hquiet.evaluations ⟨[], by simp [hquiet.ticks]⟩ (.inl (hnone hphase))
  | giveUp hphase hattempts hunresolved =>
    exact h.keep rfl ⟨[], by simp [SensorState.goto]⟩ (.inl (hnone (by rw [hphase]; rfl)))
  | tryAgain hphase hattempts hunresolved hfailed =>
    exact h.keep rfl ⟨[], by simp [SensorState.goto]⟩ (.inl (hnone (by rw [hphase]; rfl)))
  | start hphase => exact h.keep rfl ⟨_, rfl⟩ (.inl (by rw [hevaluating, hphase]; rfl))
  | poll hphase => exact h.keep rfl ⟨_, rfl⟩ (.inl (by rw [hevaluating, hphase]; rfl))
  | deadLetter hphase => exact h.keep rfl ⟨_, rfl⟩ (.inl (by rw [hevaluating, hphase]; rfl))
  | @evaluate attempt hphase =>
    have hbefore : state.evaluating? = none := by
      rw [hevaluating, hphase]
      rfl
    intro sensorName eventId
    have hcount := h sensorName eventId
    simp only [hbefore, reduceCtorEq, if_false, Nat.add_zero] at hcount
    cases hoccasion : attempt.occasion with
    | polling sensor =>
      simp only [evaluate, SensorState.goto, hoccasion]
      omega
    | event delivery event =>
      simp only [evaluate, SensorState.goto, hoccasion, evaluating?,
        Option.bind_some, Phase.evaluating?, Attempt.sensor, Occasion.sensor, count_append,
        count_singleton, beq_iff_eq, Option.some.injEq]
      omega
  | @record attempt evaluation hphase =>
    intro sensorName eventId
    have hcount := h sensorName eventId
    have hafter : (state.record pass attempt evaluation).evaluating? = none := by
      simp only [evaluating?, SensorState.record, write, Option.bind_some]
      cases attempt.occasion with
      | polling sensor => rfl
      | event delivery event =>
        dsimp only
        split_ifs <;> rfl
    rw [hafter]
    change state.evaluations.count _ ≤ eventRows _ (state.store.ticks ++ [_]) _ _ + _
    by_cases hkey : state.evaluating? = some (sensorName, eventId)
    · rw [if_pos hkey] at hcount
      have hconcerns : concerns sensorName eventId (tickRow attempt evaluation.status
          (some state.store.clock) (some evaluation)) = true := by
        rw [hevaluating, hphase] at hkey
        cases hoccasion : attempt.occasion with
        | polling sensor => simp [Phase.evaluating?, hoccasion] at hkey
        | event delivery event =>
          simp only [Phase.evaluating?, hoccasion, Option.some.injEq, Prod.mk.injEq] at hkey
          simp [concerns, tickRow, Attempt.sensor, Occasion.sensor, hoccasion, hkey]
      have hevaluated : (tickRow attempt evaluation.status (some state.store.clock)
          (some evaluation)).isEvaluated = true := evaluation.evaluated
      rw [eventRows_append_of_concerns hconcerns, hevaluated]
      simpa using hcount
    · rw [if_neg hkey] at hcount
      have hle : eventRows (·.isEvaluated) state.store.ticks sensorName eventId ≤
          eventRows (·.isEvaluated) (state.store.ticks ++ [tickRow attempt evaluation.status
            (some state.store.clock) (some evaluation)]) sensorName eventId := by
        rw [eventRows, eventRows, countP_append]
        omega
      omega

theorem next (h : CallsRecorded state) {e : DispatchEvent} (horderly : OrderlyCrash state e) :
    CallsRecorded (nextDispatch dispatcher state e) := by
  rcases quiet_or_tickStep dispatcher state e with
    ⟨hquiet, hkept⟩ | rfl | ⟨pass, answer, hpass, hstep⟩
  · refine h.keep hquiet.evaluations ⟨[], by simp [hquiet.ticks]⟩ ?_
    cases hpass : state.pass with
    | none => exact .inl (by simp [evaluating?, hpass])
    | some pass => exact .inr (by simp [evaluating?, hpass, hkept pass hpass])
  · exact h.keep rfl ⟨[], by simp [nextDispatch, finishPass]⟩ (.inl horderly)
  · exact h.tickStep hpass hstep

end CallsRecorded

theorem run_attempts {observations : List Observation} {hids : IdsOnce observations} {clock : ℤ}
    {events : List DispatchEvent}
    (horderly : Along (nextDispatch dispatcher) OrderlyCrash (.fresh observations hids clock)
      events) :
    let state := run (nextDispatch dispatcher) (.fresh observations hids clock) events
    TerminalOnce state.store.ticks ∧ Registered dispatcher.registry state ∧
      AttemptInv dispatcher state ∧ CallsRecorded state := by
  have hinv := run_invariant (nextDispatch dispatcher)
    (I := fun state => TickInv dispatcher state ∧ Registered dispatcher.registry state ∧
      AttemptInv dispatcher state ∧ CallsRecorded state)
    (fun state e ⟨htick, hregistered, hattempt, hcalls⟩ horderly =>
      ⟨htick.next e, hregistered.next e, hattempt.next htick.once hregistered e,
        hcalls.next horderly⟩)
    ⟨.fresh, .of_pass_none rfl, .fresh, fun _ _ => Nat.zero_le _⟩ horderly
  exact ⟨hinv.1.once, hinv.2⟩

/-- The handler of a sensor has been called for one event at most `max_attempts` times, and the
event has been dead-lettered at most once. -/
def AttemptsBounded (dispatcher : SensorDispatcher) (state : SensorState) : Prop :=
  ∀ sensor ∈ dispatcher.registry.sensors, ∀ eventId,
    state.evaluations.count (sensor.name, eventId) ≤ sensor.retryPolicy.maxAttempts ∧
      eventRows (·.isDeadLettered) state.store.ticks sensor.name eventId ≤ 1

/-- Attempts are bounded in every run in which no crash falls into the call of a handler. -/
theorem run_attemptsBounded {observations : List Observation} {hids : IdsOnce observations}
    {clock : ℤ} {events : List DispatchEvent}
    (horderly : Along (nextDispatch dispatcher) OrderlyCrash (.fresh observations hids clock)
      events) :
    AttemptsBounded dispatcher
      (run (nextDispatch dispatcher) (.fresh observations hids clock) events) := by
  obtain ⟨-, hregistered, hattempt, hcalls⟩ := run_attempts horderly
  intro sensor hsensor eventId
  set state := run (nextDispatch dispatcher) (.fresh observations hids clock) events
  refine ⟨?_, hattempt.deadLetters_le sensor.name eventId⟩
  have hcount := hcalls sensor.name eventId
  by_cases hkey : state.evaluating? = some (sensor.name, eventId)
  · -- The call under way belongs to an unresolved event, all of whose attempts have failed.
    rw [if_pos hkey] at hcount
    obtain ⟨pass, hpass, hphase⟩ := Option.bind_eq_some_iff.mp hkey
    obtain ⟨hunresolved, hlt⟩ : Unresolved state.store.ticks sensor.name eventId ∧
        eventRows (·.isFailed) state.store.ticks sensor.name eventId <
          sensor.retryPolicy.maxAttempts := by
      refine hattempt.due pass sensor eventId hpass ?_
      have hof := (hregistered pass hpass).2
      cases hcase : pass.phase with
      | record attempt evaluation =>
        rw [hcase] at hphase hof
        cases hoccasion : attempt.occasion with
        | polling sensor => simp [Phase.evaluating?, hoccasion] at hphase
        | event delivery event =>
          simp only [Phase.Registered, Phase.evaluating?, hoccasion, Option.some.injEq,
            Prod.mk.injEq] at hof hphase
          have hsame : delivery.drain.sensor = sensor :=
            inj_on_of_nodup_map dispatcher.registry.names_nodup hof.1 hsensor hphase.1
          simp only [Phase.due?, hoccasion, hsame, hphase.2]
      | _ => simp [hcase, Phase.evaluating?] at hphase
    rw [hunresolved.evaluated_eq_failed] at hcount
    exact hcount.trans hlt
  · rw [if_neg hkey] at hcount
    exact hcount.trans (hattempt.evaluated_le sensor hsensor eventId)

/-- The sensor gets its checkpoint, one audit fails, and a pass goes on up to the call of the
handler. -/
def firstCall (outcome : HandlerOutcome) : List DispatchEvent :=
  .dispatchOnce true :: passSteps 6 outcome ++ .observe (auditResult "r1" 5) ::
    .dispatchOnce true :: passSteps 10 outcome

/-- The handler raises, and the next pass gives the event up. -/
theorem run_attemptsBounded_deadLettered :
    AttemptsBounded auditDispatcher
      (run (nextDispatch auditDispatcher) (.fresh [] nodup_nil 10)
        (firstCall (.raised "ValueError" "no channel") ++ passSteps 4 .returned ++
          .dispatchOnce true :: passSteps 14 .returned)) :=
  run_attemptsBounded (by decide)

/-- The process dies in the only call the policy grants, and the next pass calls again. -/
theorem not_run_attemptsBounded :
    ¬ ∀ (dispatcher : SensorDispatcher) (observations : List Observation)
        (hids : IdsOnce observations) (clock : ℤ) (events : List DispatchEvent),
      AttemptsBounded dispatcher
        (run (nextDispatch dispatcher) (.fresh observations hids clock) events) := by
  intro h
  have htwice := (h auditDispatcher [] nodup_nil 10
    (firstCall .returned ++ .crash :: .dispatchOnce true :: passSteps 10 .returned)
    auditAlert (by simp [auditDispatcher]) "r1").1
  exact absurd htwice (by decide)

end SqlTide.Sensors
