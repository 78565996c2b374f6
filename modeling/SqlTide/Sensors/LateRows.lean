import SqlTide.Sensors.CheckpointSafety

/-!
# Rows that become visible late

The cursor of a stream is a position, and a row gets its position before it becomes visible. A
row that shows up behind the checkpoint, or behind the pages of the drain that writes the next
one, is never delivered.
-/

namespace SqlTide.Sensors

open SqlTide.Runs

variable {dispatcher : SensorDispatcher} {state : SensorState} {sensor : LoadedSensor}
  {declaration : EventSensorDeclaration} {baseline : List Observation}

/-- An event of the row matches the sensor and has not expired. -/
def Wanted (dispatcher : SensorDispatcher) (store : SensorStore)
    (declaration : EventSensorDeclaration) (row : Observation) (event : SensorEvent) : Prop :=
  inStream declaration.source dispatcher.target row = true ∧
    event ∈ row.events dispatcher.eventTarget ∧ matchesSensor declaration event = true ∧
      eventIsExpired dispatcher declaration event store.clock = false

instance (dispatcher : SensorDispatcher) (store : SensorStore)
    (declaration : EventSensorDeclaration) (row : Observation) (event : SensorEvent) :
    Decidable (Wanted dispatcher store declaration row event) := by
  unfold Wanted
  infer_instance

/-- Every event the checkpoint has passed is resolved, but for the rows of the baseline. -/
def LosesNoEvent (dispatcher : SensorDispatcher) (sensor : LoadedSensor)
    (declaration : EventSensorDeclaration) (baseline : List Observation) (state : SensorState) :
    Prop :=
  ∀ position, state.store.readCheckpoint sensor.name declaration.source = some position →
    ∀ row ∈ state.store.observations, row ∉ baseline → row.position ≤ position →
      ∀ event, Wanted dispatcher state.store declaration row event →
        EventResolved state.store.ticks sensor.name event.id

/-- The drain that is about to write its checkpoint. -/
def SensorState.finishing? (state : SensorState) : Option Drain :=
  state.pass.bind fun pass =>
    match pass.phase with
    | .finish drain _ => some drain
    | _ => none

/-- Rows become visible in order, as far as the sensor wants them: after its checkpoint, and
before the page over their position is read if the drain ends beyond them. -/
def InOrder (dispatcher : SensorDispatcher) (sensor : LoadedSensor)
    (declaration : EventSensorDeclaration) (state : SensorState) : DispatchEvent → Prop
  | .observe row =>
    ∀ position ∈ state.store.readCheckpoint sensor.name declaration.source,
      ∀ event ∈ row.events dispatcher.eventTarget,
        Wanted dispatcher state.store declaration row event → position < row.position
  | .step _ =>
    ∀ drain ∈ state.finishing?, drain.sensor.name = sensor.name →
      ∀ position ∈ drain.advancedPosition, ∀ row ∈ state.store.observations,
        drain.checkpoint < row.position → row.position ≤ position →
          ∀ event ∈ row.events dispatcher.eventTarget,
            Wanted dispatcher state.store declaration row event → row ∈ drain.fetched
  | _ => True

instance (dispatcher : SensorDispatcher) (sensor : LoadedSensor)
    (declaration : EventSensorDeclaration) (state : SensorState) :
    DecidablePred (InOrder dispatcher sensor declaration state)
  | .observe _ | .step _ => by
    unfold InOrder
    infer_instance
  | .elapse _ | .override _ _ | .dispatchOnce _ | .crash => isTrue trivial

section

variable (h : LosesNoEvent dispatcher sensor declaration baseline state)

include h

/-- The store has grown: what was resolved still is, and what is wanted now was wanted before. -/
theorem LosesNoEvent.grow {state' : SensorState} (hgrows : state.store.Grows state'.store)
    (hnew : ∀ row ∈ state'.store.observations, row ∉ state.store.observations →
      ∀ position, state.store.readCheckpoint sensor.name declaration.source = some position →
        ∀ event, Wanted dispatcher state.store declaration row event → position < row.position) :
    LosesNoEvent dispatcher sensor declaration baseline state' := by
  intro position hposition row hrow hbaseline hle event hwanted
  rw [hgrows.readCheckpoint] at hposition
  obtain ⟨hstream, hevent, hmatch, hfresh⟩ := hwanted
  have hbefore : Wanted dispatcher state.store declaration row event := by
    refine ⟨hstream, hevent, hmatch, ?_⟩
    by_contra hexpired
    have := eventIsExpired_mono hgrows.clock (by simpa using hexpired)
    exact absurd (this.symm.trans hfresh) (by simp)
  by_cases hold : row ∈ state.store.observations
  · obtain ⟨tick, htick, hresolved⟩ := h position hposition row hold hbaseline hle event hbefore
    exact ⟨tick, hgrows.ticks htick, hresolved⟩
  · exact absurd hle (not_le.mpr (hnew row hrow hold position hposition event hbefore))

theorem LosesNoEvent.grow_same {state' : SensorState} (hgrows : state.store.Grows state'.store)
    (hsame : state'.store.observations = state.store.observations) :
    LosesNoEvent dispatcher sensor declaration baseline state' :=
  h.grow hgrows fun _ hrow hnew => absurd (hsame ▸ hrow) hnew

/-- The drain of the sensor moves the checkpoint over rows it has fetched. -/
theorem LosesNoEvent.advance (hinv : SensorInv dispatcher state)
    (hsensor : EventSensorOf dispatcher.registry sensor declaration) {answer : Answer}
    (hordered : InOrder dispatcher sensor declaration state (.step answer)) {pass : Pass}
    {drain : Drain} {leaseHeld : Bool} {position : SensorStreamPosition}
    (hpass : state.pass = some pass) (hphase : pass.phase = .finish drain leaseHeld)
    (hposition : drain.advancedPosition = some position) {state' : SensorState}
    (hstore : state'.store = state.store.advanceCheckpoint drain.sensor.name
      drain.declaration.source position) :
    LosesNoEvent dispatcher sensor declaration baseline state' := by
  by_cases hname : drain.sensor.name = sensor.name
  · obtain ⟨rfl, rfl⟩ := hinv.registered.drain_eq hpass hphase hsensor hname
    have hcheckpoint : state.store.readCheckpoint drain.sensor.name drain.declaration.source =
        some drain.checkpoint := by
      have hdrain := hinv.pass pass hpass
      rw [hphase] at hdrain
      obtain ⟨pending, hdrain⟩ := hdrain
      exact hdrain.checkpoint
    have hsettled := hinv.passesSettled hpass hphase hposition
    intro position' hposition' row hrow hbaseline hle event hwanted
    rw [hstore, readCheckpoint_advanceCheckpoint, hcheckpoint] at hposition'
    cases hposition'
    rw [hstore] at hrow hwanted ⊢
    by_cases hold : row.position ≤ drain.checkpoint
    · exact h drain.checkpoint hcheckpoint row hrow hbaseline hold event hwanted
    · push Not at hold
      have hpassed : row.position ≤ position := (le_max_iff.mp hle).resolve_left (not_le.mpr hold)
      have hfinishing : drain ∈ state.finishing? := by
        simp [SensorState.finishing?, hpass, hphase]
      have hfetched := hordered drain hfinishing rfl position hposition row hrow hold hpassed event
        hwanted.2.1 hwanted
      obtain ⟨tick, hlast, hresolved⟩ := hsettled row (.inl hfetched) hwanted.1 hold hpassed event
        hwanted.2.1 hwanted.2.2.1 hwanted.2.2.2
      obtain ⟨htick, hconcerns⟩ := List.mem_filter.mp (List.mem_of_getLast? hlast)
      exact ⟨tick, htick, hconcerns, hresolved⟩
  · intro position' hposition' row hrow hbaseline hle event hwanted
    rw [hstore, readCheckpoint_advanceCheckpoint_of_ne _ (fun hkey => hname hkey.1)] at hposition'
    rw [hstore] at hrow hwanted ⊢
    exact h position' hposition' row hrow hbaseline hle event hwanted

theorem LosesNoEvent.next (hinv : SensorInv dispatcher state)
    (hsensor : EventSensorOf dispatcher.registry sensor declaration)
    {checkpoint : SensorStreamPosition}
    (hcheckpoint : state.store.readCheckpoint sensor.name declaration.source = some checkpoint)
    {e : DispatchEvent} (hordered : InOrder dispatcher sensor declaration state e) :
    LosesNoEvent dispatcher sensor declaration baseline (nextDispatch dispatcher state e) := by
  cases e with
  | observe row =>
    refine h.grow (.observe state.store row) fun row' hrow' hnew position hposition event
      hwanted => ?_
    have hsame : row' = row := by
      simp only [nextDispatch, SensorStore.observe] at hrow'
      split_ifs at hrow'
      · exact List.mem_singleton.mp ((List.mem_append.mp hrow').resolve_left hnew)
      · exact absurd hrow' hnew
    rw [hsame] at hwanted ⊢
    exact hordered position hposition event hwanted.2.1 hwanted
  | elapse milliseconds => exact h.grow_same (.elapse state.store milliseconds) rfl
  | override sensorName status =>
    exact h.grow_same ⟨List.Subset.refl _, List.Subset.refl _, le_rfl, rfl⟩ rfl
  | dispatchOnce leaseAcquired =>
    have hstore : (nextDispatch dispatcher state (.dispatchOnce leaseAcquired)).store =
        state.store := by
      simp only [nextDispatch]
      split
      · rfl
      · split_ifs <;> rfl
    exact h.grow_same (by rw [hstore]; exact .refl _) (by rw [hstore])
  | crash => exact h.grow_same (.refl _) rfl
  | step answer =>
    cases hpass : state.pass with
    | none =>
      simp only [nextDispatch, hpass]
      exact h
    | some pass =>
      simp only [nextDispatch, hpass]
      have hobservations := observations_stepPass dispatcher state pass answer
      have hstep := checkpointStep_stepPass dispatcher hpass answer
      generalize state.stepPass dispatcher pass answer = state' at hobservations hstep ⊢
      generalize hstore : state'.store = store at hstep
      cases hstep with
      | grow hgrows => exact h.grow_same (hstore ▸ hgrows) hobservations
      | @first pass' sensor' declaration' position hpass' hphase =>
        have hnone : state.store.readCheckpoint sensor'.name declaration'.source = none := by
          have hphaseInv := hinv.pass pass' hpass'
          rwa [hphase] at hphaseInv
        intro position' hposition' row hrow hbaseline hle event hwanted
        rw [hstore, readCheckpoint_advanceCheckpoint_of_ne] at hposition'
        · rw [hstore] at hrow hwanted ⊢
          exact h position' hposition' row hrow hbaseline hle event hwanted
        · rintro ⟨hname, hsource⟩
          rw [hname, hsource, hcheckpoint] at hnone
          exact absurd hnone (by simp)
      | advance hpass' hphase hposition =>
        exact h.advance hinv hsensor hordered hpass' hphase hposition hstore

end

/-- From a state in which the sensor has its checkpoint, a run in which rows become visible in
order loses no event of the rows it adds. -/
theorem run_losesNoEvent {observations : List Observation} {hids : IdsOnce observations}
    {clock : ℤ} {events events' : List DispatchEvent}
    (hsensor : EventSensorOf dispatcher.registry sensor declaration)
    (hcheckpoint : ((run (nextDispatch dispatcher) (.fresh observations hids clock)
      events).store.readCheckpoint sensor.name declaration.source).isSome)
    (hordered : Along (nextDispatch dispatcher) (InOrder dispatcher sensor declaration)
      (run (nextDispatch dispatcher) (.fresh observations hids clock) events) events') :
    LosesNoEvent dispatcher sensor declaration
      (run (nextDispatch dispatcher) (.fresh observations hids clock) events).store.observations
      (run (nextDispatch dispatcher) (.fresh observations hids clock) (events ++ events')) := by
  set start := run (nextDispatch dispatcher) (.fresh observations hids clock) events with hstart
  have hinv : SensorInv dispatcher start := hstart ▸ run_sensorInv events
  rw [run_append, ← hstart]
  refine (run_invariant (nextDispatch dispatcher) (I := fun state => SensorInv dispatcher state ∧
    (∃ checkpoint, state.store.readCheckpoint sensor.name declaration.source = some checkpoint) ∧
      LosesNoEvent dispatcher sensor declaration start.store.observations state) ?_ ?_ hordered).2.2
  · rintro state e ⟨hinv, ⟨checkpoint, hcheckpoint⟩, hlossless⟩ hordered
    obtain ⟨position', hposition', -⟩ := hinv.checkpointSafe e sensor declaration hsensor
      checkpoint hcheckpoint
    exact ⟨hinv.next e, ⟨position', hposition'⟩, hlossless.next hinv hsensor hcheckpoint hordered⟩
  · exact ⟨hinv, Option.isSome_iff_exists.mp hcheckpoint,
      fun _ _ row hrow hbaseline => absurd hrow hbaseline⟩

def auditDeclaration : EventSensorDeclaration :=
  { eventType := .auditCompleted, targets := none, triggers := none, maximumEventAge := none }

/-- Two audits become visible one after the other, each before the pass that comes to it. -/
theorem run_losesNoEvent_ordered :
    LosesNoEvent auditDispatcher auditAlert auditDeclaration []
      (run (nextDispatch auditDispatcher) (.fresh [] List.nodup_nil 10)
        ((.dispatchOnce true :: passSteps 6 .returned) ++
          (.observe (auditResult "r1" 5) :: .dispatchOnce true :: passSteps 16 .returned ++
            .observe (auditResult "r0" 6) :: .dispatchOnce true :: passSteps 16 .returned))) :=
  run_losesNoEvent ⟨by simp [auditDispatcher], rfl⟩ (by decide) (by decide)

/-- Two audits of one invocation have one timestamp, and the one with the smaller id becomes
visible after the other has been delivered. -/
theorem not_run_losesNoEvent :
    ¬ ∀ (dispatcher : SensorDispatcher) (observations : List Observation)
        (hids : IdsOnce observations) (clock : ℤ) (events events' : List DispatchEvent)
        (sensor : LoadedSensor) (declaration : EventSensorDeclaration),
      EventSensorOf dispatcher.registry sensor declaration →
      ((run (nextDispatch dispatcher) (.fresh observations hids clock)
        events).store.readCheckpoint sensor.name declaration.source).isSome →
      LosesNoEvent dispatcher sensor declaration
        (run (nextDispatch dispatcher) (.fresh observations hids clock) events).store.observations
        (run (nextDispatch dispatcher) (.fresh observations hids clock) (events ++ events')) := by
  intro h
  have hlost := h auditDispatcher [] List.nodup_nil 10 (.dispatchOnce true :: passSteps 6 .returned)
    (.observe (auditResult "r1" 5) :: .dispatchOnce true :: passSteps 16 .returned ++
      [.observe (auditResult "r0" 5)])
    auditAlert auditDeclaration ⟨by simp [auditDispatcher], rfl⟩ (by decide)
    ⟨5, "r1"⟩ (by decide) (auditResult "r0" 5) (by decide) (by decide) (by decide)
    ⟨.auditCompleted, "r0", "prod", some "manual", 5⟩ (by decide)
  obtain ⟨tick, htick, hconcerns, -⟩ := hlost
  revert tick
  decide

end SqlTide.Sensors
