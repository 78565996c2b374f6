import SqlTide.Sensors.BoundedAttempts
import SqlTide.Sensors.PassTermination

/-!
# Where a checkpoint moves

A checkpoint is written when a sensor gets its first one and when a drain ends. In the second
case it moves to the last row done, and no event in between that the pass could see is left
behind: the latest row of its ticks says that it was skipped, delivered or given up.
-/

namespace SqlTide.Sensors

open List SqlTide.Runs SensorState

variable {dispatcher : SensorDispatcher} {store : SensorStore} {state : SensorState} {pass : Pass}
  {ticks : List AdapterSensorTickRecord} {row : AdapterSensorTickRecord}
  {sensorName eventId : String} {source : EventSource} {position : SensorStreamPosition}

/-- The latest row of the event resolves it. -/
def LatestResolved (ticks : List AdapterSensorTickRecord) (sensorName eventId : String) : Prop :=
  ∃ tick, (ticks.filter (concerns sensorName eventId)).getLast? = some tick ∧
    tick.isResolved = true

/-- A resolved event gets no further rows. -/
def ResolvedLast (ticks : List AdapterSensorTickRecord) : Prop :=
  ∀ sensorName eventId, EventResolved ticks sensorName eventId →
    LatestResolved ticks sensorName eventId

namespace ResolvedLast

theorem append (h : ResolvedLast ticks)
    (hrow : ∀ sensorName eventId, concerns sensorName eventId row = true →
      Unresolved ticks sensorName eventId) : ResolvedLast (ticks ++ [row]) := by
  intro sensorName eventId hresolved
  obtain ⟨tick, htick, hconcerns, htickResolved⟩ := hresolved
  unfold LatestResolved
  by_cases hkey : concerns sensorName eventId row = true
  · rcases mem_append.mp htick with hold | hnew
    · have hopen := hrow sensorName eventId hkey tick hold hconcerns
      rw [htickResolved] at hopen
      exact absurd hopen (by simp)
    · obtain rfl := mem_singleton.mp hnew
      exact ⟨tick, by simp [filter_append, hkey], htickResolved⟩
  · rw [filter_append, filter_cons_of_neg hkey, filter_nil, append_nil]
    rcases mem_append.mp htick with hold | hnew
    · exact h sensorName eventId ⟨tick, hold, hconcerns, htickResolved⟩
    · rw [mem_singleton.mp hnew] at hconcerns
      exact absurd hconcerns hkey

theorem tickStep (h : ResolvedLast state.store.ticks) (hattempts : AttemptInv dispatcher state)
    (hpass : state.pass = some pass) {answer : Answer} {state' : SensorState}
    (hstep : TickStep dispatcher state pass answer state') : ResolvedLast state'.store.ticks := by
  have htickRow : ∀ (attempt : Attempt) (status : SensorTickStatus) (completedAt : Option ℤ)
      (evaluation : Option SensorEvaluation),
      (∀ delivery event, attempt.occasion = .event delivery event →
        pass.phase.due? = some (delivery.drain.sensor, event.id)) →
      ResolvedLast (state.store.ticks ++ [tickRow attempt status completedAt evaluation]) := by
    intro attempt status completedAt evaluation hdue
    refine h.append fun sensorName eventId hconcerns => ?_
    obtain ⟨delivery, event, hoccasion, rfl, rfl⟩ := concerns_tickRow hconcerns
    exact (hattempts.due pass _ _ hpass (hdue delivery event hoccasion)).1
  cases hstep with
  | quiet hphase hquiet =>
    rw [hquiet.ticks]
    exact h
  | giveUp hphase hattempts hunresolved => exact h
  | tryAgain hphase hattempts hunresolved hfailed => exact h
  | start hphase =>
    refine htickRow _ _ _ _ fun delivery event hoccasion => ?_
    obtain ⟨rfl, rfl⟩ := Occasion.event.inj hoccasion
    rw [hphase]
    rfl
  | poll hphase => exact htickRow _ _ _ _ fun delivery event hoccasion => nomatch hoccasion
  | evaluate hphase => exact h
  | record hphase =>
    refine htickRow _ _ _ _ fun delivery event hoccasion => ?_
    simp only [hphase, Phase.due?, hoccasion]
  | deadLetter hphase =>
    refine h.append fun sensorName eventId hconcerns => ?_
    obtain ⟨rfl, rfl⟩ : _ = sensorName ∧ _ = eventId := by
      simpa [concerns, deadLetterRow] using hconcerns
    exact hattempts.condemned pass _ _ hpass (by rw [hphase]; rfl)

theorem next (h : ResolvedLast state.store.ticks) (hattempts : AttemptInv dispatcher state)
    (e : DispatchEvent) : ResolvedLast (nextDispatch dispatcher state e).store.ticks :=
  nextDispatch_induction (fun hquiet => hquiet.ticks ▸ h) (h.tickStep hattempts) e

end ResolvedLast

theorem readCheckpoint_advanceCheckpoint :
    (store.advanceCheckpoint sensorName source position).readCheckpoint sensorName source =
      some ((store.readCheckpoint sensorName source).elim position (max · position)) := by
  simp [SensorStore.readCheckpoint, SensorStore.advanceCheckpoint, filter_append, newest_concat]

theorem readCheckpoint_advanceCheckpoint_of_ne {sensorName' : String} {source' : EventSource}
    (position : SensorStreamPosition) (h : ¬ (sensorName = sensorName' ∧ source = source')) :
    (store.advanceCheckpoint sensorName source position).readCheckpoint sensorName' source' =
      store.readCheckpoint sensorName' source' := by
  simp [SensorStore.readCheckpoint, SensorStore.advanceCheckpoint, filter_append,
    filter_cons_of_neg, h]

/-- What an event of a run does to the checkpoints. -/
inductive CheckpointStep (state : SensorState) : SensorStore → Prop
  | grow {store : SensorStore} (h : state.store.Grows store) : CheckpointStep state store
  | first {pass : Pass} {sensor : LoadedSensor} {declaration : EventSensorDeclaration}
      {position : SensorStreamPosition} (hpass : state.pass = some pass)
      (hphase : pass.phase = .writeInitial sensor declaration position) :
      CheckpointStep state (state.store.advanceCheckpoint sensor.name declaration.source position)
  | advance {pass : Pass} {drain : Drain} {leaseHeld : Bool} {position : SensorStreamPosition}
      (hpass : state.pass = some pass) (hphase : pass.phase = .finish drain leaseHeld)
      (hposition : drain.advancedPosition = some position) :
      CheckpointStep state
        (state.store.advanceCheckpoint drain.sensor.name drain.declaration.source position)

theorem checkpointStep_stepPass (dispatcher : SensorDispatcher) (hpass : state.pass = some pass)
    (answer : Answer) : CheckpointStep state (state.stepPass dispatcher pass answer).store := by
  have hsame : CheckpointStep state state.store := .grow (.refl _)
  cases hphase : pass.phase with
  | selecting =>
    simp only [stepPass, hphase, selectSensor]
    cases pass.remaining with
    | nil => exact hsame
    | cons sensor remaining =>
      dsimp only
      by_cases hrunning : effectiveSensorStatus sensor pass.overrides = .running
      · rw [if_pos hrunning]
        cases sensor.declaration with
        | event declaration => exact hsame
        | polling minimumInterval =>
          dsimp only
          split_ifs <;> exact hsame
      · rw [if_neg hrunning]
        exact hsame
  | readCheckpoint sensor declaration =>
    simp only [stepPass, hphase]
    split <;> exact hsame
  | readNewest sensor declaration =>
    simp only [stepPass, hphase]
    exact hsame
  | writeInitial sensor declaration position =>
    simp only [stepPass, hphase]
    exact .first hpass hphase
  | readHead sensor declaration checkpoint =>
    simp only [stepPass, hphase]
    split <;> exact hsame
  | readClock drain =>
    simp only [stepPass, hphase]
    exact hsame
  | readPage drain warehouseNow =>
    simp only [stepPass, hphase, SensorState.readPage]
    split <;> exact hsame
  | rows drain page =>
    simp only [stepPass, hphase, deliverRow]
    split
    · exact hsame
    · split_ifs <;> exact hsame
  | events delivery =>
    simp only [stepPass, hphase, deliverEvent]
    split
    · exact hsame
    · split_ifs <;> exact hsame
  | readTicks delivery event =>
    simp only [stepPass, hphase, SensorState.readTicks]
    split_ifs <;> exact hsame
  | deadLetter delivery event attempts =>
    simp only [stepPass, hphase]
    exact .grow (.recordTick _ _ _)
  | startAttempt delivery event attempt =>
    simp only [stepPass, hphase]
    exact .grow (.recordTick _ _ _)
  | poll sensor minimumInterval =>
    simp only [stepPass, hphase, SensorState.poll]
    split_ifs
    · exact hsame
    · exact .grow (.recordTick _ _ _)
  | evaluate attempt =>
    simp only [stepPass, hphase]
    exact hsame
  | record attempt evaluation =>
    simp only [stepPass, hphase]
    exact .grow (.recordTick state.store _ state.store.uuidsDrawn)
  | finish drain leaseHeld =>
    simp only [stepPass, hphase, finishDrain]
    cases hposition : drain.advancedPosition with
    | none => split_ifs <;> exact hsame
    | some position => split_ifs <;> exact .advance hpass hphase hposition

theorem observations_stepPass (dispatcher : SensorDispatcher) (state : SensorState) (pass : Pass)
    (answer : Answer) :
    (state.stepPass dispatcher pass answer).store.observations = state.store.observations := by
  cases hphase : pass.phase <;>
    simp only [stepPass, hphase, selectSensor, SensorState.readPage, deliverRow, deliverEvent,
      SensorState.readTicks, SensorState.poll, finishDrain]
  all_goals
    repeat' split
    all_goals rfl

theorem checkpointStep_next (dispatcher : SensorDispatcher) (state : SensorState)
    (e : DispatchEvent) : CheckpointStep state (nextDispatch dispatcher state e).store := by
  have hsame : CheckpointStep state state.store := .grow (.refl _)
  cases e with
  | observe row => exact .grow (.observe state.store row)
  | elapse milliseconds => exact .grow (.elapse state.store milliseconds)
  | override sensorName status =>
    exact .grow ⟨List.Subset.refl _, List.Subset.refl _, le_rfl, rfl⟩
  | dispatchOnce leaseAcquired =>
    simp only [nextDispatch]
    split
    · exact hsame
    · split_ifs <;> exact hsame
  | step answer =>
    simp only [nextDispatch]
    split
    · exact hsame
    · next hpass => exact checkpointStep_stepPass dispatcher hpass answer
  | crash => exact hsame

/-- What every run keeps, whatever happens. -/
structure SensorInv (dispatcher : SensorDispatcher) (state : SensorState) : Prop where
  ticks : TickInv dispatcher state
  registered : Registered dispatcher.registry state
  attempts : AttemptInv dispatcher state
  pass : PassInv dispatcher state
  resolvedLast : ResolvedLast state.store.ticks

theorem SensorInv.next (h : SensorInv dispatcher state) (e : DispatchEvent) :
    SensorInv dispatcher (nextDispatch dispatcher state e) :=
  ⟨h.ticks.next e, h.registered.next e, h.attempts.next h.ticks.once h.registered e,
    h.pass.next h.ticks.once e, h.resolvedLast.next h.attempts e⟩

theorem run_sensorInv {observations : List Observation} {hids : IdsOnce observations} {clock : ℤ}
    (events : List DispatchEvent) : SensorInv dispatcher
      (run (nextDispatch dispatcher) (.fresh observations hids clock) events) := by
  refine run_invariant (nextDispatch dispatcher) (fun _ e hinv _ => hinv.next e) ?_
    (along_true _ _ events)
  exact ⟨.fresh, .of_pass_none rfl, .fresh, .of_pass_none rfl, fun _ _ ⟨_, htick, _⟩ =>
    nomatch htick⟩

theorem Registered.drain_eq (h : Registered dispatcher.registry state) {drain : Drain}
    {leaseHeld : Bool} (hpass : state.pass = some pass)
    (hphase : pass.phase = .finish drain leaseHeld) {sensor : LoadedSensor}
    {declaration : EventSensorDeclaration}
    (hsensor : EventSensorOf dispatcher.registry sensor declaration)
    (hname : drain.sensor.name = sensor.name) :
    drain.sensor = sensor ∧ drain.declaration = declaration := by
  have hdrain := (h pass hpass).2
  rw [hphase] at hdrain
  have hsame : drain.sensor = sensor :=
    inj_on_of_nodup_map dispatcher.registry.names_nodup hdrain.1 hsensor.1 hname
  refine ⟨hsame, ?_⟩
  have hdeclaration := hdrain.2
  rw [hsame, hsensor.2] at hdeclaration
  exact (SensorDeclaration.event.inj hdeclaration).symm

/-- The drain has seen the row: a page returned it, or it was visible before the first page. -/
def Drain.Saw (drain : Drain) (row : Observation) : Prop :=
  row ∈ drain.fetched ∨ row ∈ drain.visibleAtStart

/-- The drain leaves no event behind up to a position: whatever it has seen, matches the sensor
and has not expired is resolved, by the latest row of its ticks. -/
def PassesSettled (dispatcher : SensorDispatcher) (store : SensorStore) (drain : Drain)
    (position position' : SensorStreamPosition) : Prop :=
  ∀ row, drain.Saw row → inStream drain.declaration.source dispatcher.target row = true →
    position < row.position → row.position ≤ position' →
      ∀ event ∈ row.events dispatcher.eventTarget,
        matchesSensor drain.declaration event = true →
          eventIsExpired dispatcher drain.declaration event store.clock = false →
            LatestResolved store.ticks drain.sensor.name event.id

/-- The checkpoint of an event sensor never goes back, and it goes forward only when a drain of
the sensor ends, over nothing but settled events. -/
def CheckpointSafe (dispatcher : SensorDispatcher) (state state' : SensorState) : Prop :=
  ∀ sensor declaration, EventSensorOf dispatcher.registry sensor declaration →
    ∀ position, state.store.readCheckpoint sensor.name declaration.source = some position →
      ∃ position', state'.store.readCheckpoint sensor.name declaration.source = some position' ∧
        position ≤ position' ∧
        (position < position' → ∃ pass drain leaseHeld, state.pass = some pass ∧
          pass.phase = .finish drain leaseHeld ∧ drain.sensor = sensor ∧
            drain.declaration = declaration ∧
              PassesSettled dispatcher state'.store drain position position')

/-- The pass under way ends after finitely many steps, unless rows become visible for ever: each
of them adds a bounded number of steps. -/
def PassTerminates (dispatcher : SensorDispatcher) (state : SensorState) : Prop :=
  ∃ bound perRow, ∀ events : List DispatchEvent, (∀ e ∈ events, e.isDispatchOnce = false) →
    bound + perRow * events.countP DispatchEvent.isObserve ≤
      events.countP DispatchEvent.isStep →
        (run (nextDispatch dispatcher) state events).pass = none

theorem SensorInv.passesSettled (h : SensorInv dispatcher state) {drain : Drain} {leaseHeld : Bool}
    (hpass : state.pass = some pass) (hphase : pass.phase = .finish drain leaseHeld)
    (hposition : drain.advancedPosition = some position) :
    PassesSettled dispatcher
      (state.store.advanceCheckpoint drain.sensor.name drain.declaration.source position)
      drain drain.checkpoint position := by
  obtain ⟨pending, hdrain⟩ : ∃ pending, DrainInv dispatcher state.store drain pending := by
    have hinv := h.pass pass hpass
    rwa [hphase] at hinv
  intro row hsaw hstream hafter hle event hevent hmatch hfresh
  rcases hdrain.settled hposition hsaw hstream hafter hle event hevent with
    hmismatch | hexpired | hresolved
  · rw [hmatch] at hmismatch
    exact absurd hmismatch (by simp)
  · exact absurd (hexpired.symm.trans hfresh) (by simp)
  · exact h.resolvedLast _ _ hresolved

theorem SensorInv.checkpointSafe (h : SensorInv dispatcher state) (e : DispatchEvent) :
    CheckpointSafe dispatcher state (nextDispatch dispatcher state e) := by
  intro sensor declaration hsensor checkpoint hcheckpoint
  have hstays : ∀ store : SensorStore, store.readCheckpoint sensor.name declaration.source =
      state.store.readCheckpoint sensor.name declaration.source →
        ∃ position', store.readCheckpoint sensor.name declaration.source = some position' ∧
          checkpoint ≤ position' ∧ ¬ checkpoint < position' := by
    intro store hsame
    exact ⟨checkpoint, hsame.trans hcheckpoint, le_rfl, lt_irrefl _⟩
  have hstep := checkpointStep_next dispatcher state e
  generalize (nextDispatch dispatcher state e).store = store at hstep ⊢
  cases hstep with
  | grow hgrows =>
    obtain ⟨position', hread, hle, hstill⟩ := hstays store (hgrows.readCheckpoint _ _)
    exact ⟨position', hread, hle, fun hlt => absurd hlt hstill⟩
  | @first pass sensor' declaration' position hpass hphase =>
    -- The first checkpoint is written where there is none, hence for another sensor.
    have hnone : state.store.readCheckpoint sensor'.name declaration'.source = none := by
      have hinv := h.pass pass hpass
      rwa [hphase] at hinv
    have hother : ¬ (sensor'.name = sensor.name ∧ declaration'.source = declaration.source) := by
      rintro ⟨hname, hsource⟩
      rw [hname, hsource, hcheckpoint] at hnone
      exact absurd hnone (by simp)
    obtain ⟨position', hread, hle, hstill⟩ :=
      hstays _ (readCheckpoint_advanceCheckpoint_of_ne position hother)
    exact ⟨position', hread, hle, fun hlt => absurd hlt hstill⟩
  | @advance pass drain leaseHeld position hpass hphase hposition =>
    by_cases hkey : drain.sensor.name = sensor.name ∧ drain.declaration.source = declaration.source
    · obtain ⟨rfl, rfl⟩ := h.registered.drain_eq hpass hphase hsensor hkey.1
      have hsettled := h.passesSettled hpass hphase hposition
      have hsame : drain.checkpoint = checkpoint := by
        have hinv := h.pass pass hpass
        rw [hphase] at hinv
        obtain ⟨pending, hdrain⟩ := hinv
        exact Option.some.inj (hdrain.checkpoint.symm.trans hcheckpoint)
      rw [hsame] at hsettled
      refine ⟨max checkpoint position, ?_, le_max_left _ _, fun hlt => ?_⟩
      · rw [readCheckpoint_advanceCheckpoint, hcheckpoint]
        rfl
      · have hmax : max checkpoint position = position :=
          max_eq_right ((lt_max_iff.mp hlt).resolve_left (lt_irrefl _)).le
        rw [hmax]
        exact ⟨pass, drain, leaseHeld, hpass, hphase, rfl, rfl, hsettled⟩
    · obtain ⟨position', hread, hle, hstill⟩ :=
        hstays _ (readCheckpoint_advanceCheckpoint_of_ne position hkey)
      exact ⟨position', hread, hle, fun hlt => absurd hlt hstill⟩

/-- In every run the checkpoints are safe and every pass comes to its end. -/
theorem run_checkpointSafe (dispatcher : SensorDispatcher) (observations : List Observation)
    (hids : IdsOnce observations) (clock : ℤ) (events : List DispatchEvent) :
    let state := run (nextDispatch dispatcher) (.fresh observations hids clock) events
    (∀ e, CheckpointSafe dispatcher state (nextDispatch dispatcher state e)) ∧
      PassTerminates dispatcher state := by
  have hinv : SensorInv dispatcher
      (run (nextDispatch dispatcher) (.fresh observations hids clock) events) :=
        run_sensorInv events
  exact ⟨hinv.checkpointSafe, _, _, fun _ => pass_eq_none_of_work_le hinv.registered⟩

/-- One event has been delivered, and the drain has written the checkpoint. -/
theorem run_checkpointSafe_delivered :
    let state := run (nextDispatch auditDispatcher)
      (.fresh [auditResult "r0" 3] (nodup_singleton _) 10)
      (firstCall .returned ++ passSteps 4 .returned)
    (∀ e, CheckpointSafe auditDispatcher state (nextDispatch auditDispatcher state e)) ∧
      PassTerminates auditDispatcher state :=
  run_checkpointSafe auditDispatcher [auditResult "r0" 3] (nodup_singleton _) 10 _

end SqlTide.Sensors
