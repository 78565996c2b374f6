import SqlTide.Sensors.EventDrain

/-!
# A pass comes to an end

Every page takes rows that no page has returned before, none of them after the stream head, and
a row has at most one event. What is left to do shrinks with every step of the pass; only a row
that becomes visible adds to it.
-/

namespace SqlTide.Sensors

open List SqlTide.Runs SensorState

variable {dispatcher : SensorDispatcher} {store : SensorStore} {state : SensorState} {pass : Pass}
  {drain : Drain}

/-- The rows of the stream after a position that a page can still return. -/
def unfetched (dispatcher : SensorDispatcher) (store : SensorStore) (drain : Drain)
    (position : SensorStreamPosition) : ℕ :=
  store.observations.countP fun row =>
    inStream drain.declaration.source dispatcher.target row ∧ position < row.position ∧
      row.position ≤ drain.streamHead

/-- Steps enough for what follows the current event. -/
def deliveryWork (dispatcher : SensorDispatcher) (store : SensorStore) (delivery : Delivery) : ℕ :=
  5 + 12 * unfetched dispatcher store delivery.drain delivery.page.last +
    8 * delivery.page.remaining.length + 6 * delivery.rest.length

def occasionWork (dispatcher : SensorDispatcher) (store : SensorStore) : Occasion → ℕ
  | .event delivery _ => deliveryWork dispatcher store delivery
  | .polling _ => 0

/-- Steps enough to get back to the loop over the sensors. -/
def phaseWork (dispatcher : SensorDispatcher) (store : SensorStore) : Phase → ℕ
  | .selecting => 0
  | .readCheckpoint _ _ => 5 + 12 * store.observations.length
  | .readNewest _ _ => 2
  | .writeInitial _ _ _ => 1
  | .readHead _ _ _ => 4 + 12 * store.observations.length
  | .readClock drain => 3 + 12 * unfetched dispatcher store drain drain.currentPosition
  | .readPage drain _ => 2 + 12 * unfetched dispatcher store drain drain.currentPosition
  | .rows drain page =>
    4 + 12 * unfetched dispatcher store drain page.last + 8 * page.remaining.length
  | .events delivery => deliveryWork dispatcher store delivery
  | .readTicks delivery _ => deliveryWork dispatcher store delivery + 4
  | .deadLetter delivery _ _ => deliveryWork dispatcher store delivery + 1
  | .startAttempt delivery _ _ => deliveryWork dispatcher store delivery + 3
  | .poll _ _ => 3
  | .evaluate attempt => occasionWork dispatcher store attempt.occasion + 2
  | .record attempt _ => occasionWork dispatcher store attempt.occasion + 1
  | .finish _ _ => 1

/-- Steps enough for the sensors that have not been selected yet. -/
def sensorsWork (store : SensorStore) (remaining : List LoadedSensor) : ℕ :=
  1 + remaining.length * (6 + 12 * store.observations.length)

def work (dispatcher : SensorDispatcher) (state : SensorState) : ℕ :=
  match state.pass with
  | none => 0
  | some pass => sensorsWork state.store pass.remaining + phaseWork dispatcher state.store
    pass.phase

theorem unfetched_le (dispatcher : SensorDispatcher) (store : SensorStore) (drain : Drain)
    (position : SensorStreamPosition) :
    unfetched dispatcher store drain position ≤ store.observations.length := countP_le_length

theorem unfetched_page (dispatcher : SensorDispatcher) {position : SensorStreamPosition} {limit : ℕ}
    {last : Observation} {deliveries : List Observation}
    (hdeliveries : deliveries = (observationsAfter store.observations drain.declaration.source
      dispatcher.target position limit).filter (·.position ≤ drain.streamHead))
    (hlast : deliveries.getLast? = some last) :
    unfetched dispatcher store drain last.position + deliveries.length ≤
      unfetched dispatcher store drain position := by
  have hascending : deliveries.Pairwise (·.position < ·.position) := by
    rw [hdeliveries]
    exact (pairwise_observationsAfter store.ids_once).sublist filter_sublist
  have hnodup : (store.observations.filter fun row =>
      inStream drain.declaration.source dispatcher.target row ∧ last.position < row.position ∧
        row.position ≤ drain.streamHead).Nodup := (store.ids_once.of_map).filter _
  have hmem : ∀ row ∈ deliveries, row ∈ store.observations ∧
      inStream drain.declaration.source dispatcher.target row = true ∧
        position < row.position ∧ row.position ≤ drain.streamHead := by
    intro row hrow
    rw [hdeliveries] at hrow
    obtain ⟨hpage, hhead⟩ := mem_filter.mp hrow
    obtain ⟨hobserved, hstream, hafter⟩ := mem_observationsAfter hpage
    exact ⟨hobserved, hstream, hafter, by simpa using hhead⟩
  have hlater : position < last.position := (hmem last (mem_of_getLast? hlast)).2.2.1
  have hdisjoint : ((store.observations.filter fun row =>
      inStream drain.declaration.source dispatcher.target row ∧ last.position < row.position ∧
        row.position ≤ drain.streamHead) ++ deliveries).Nodup := by
    refine nodup_append.mpr ⟨hnodup, hascending.imp fun hlt heq => ?_, ?_⟩
    · exact absurd hlt (by simp [heq])
    · intro row hrow row' hrow' heq
      subst heq
      have hle := position_le_of_getLast? hascending hlast hrow'
      have hlt : last.position < row.position := by
        simpa using ((mem_filter.mp hrow).2 |> of_decide_eq_true).2.1
      exact absurd hle (not_le.mpr hlt)
  unfold unfetched
  rw [countP_eq_length_filter, countP_eq_length_filter, ← length_append]
  refine (hdisjoint.subperm fun row hrow => ?_).length_le
  rcases mem_append.mp hrow with hrest | hpage
  · obtain ⟨hobserved, hrow⟩ := mem_filter.mp hrest
    simp only [decide_eq_true_eq] at hrow
    exact mem_filter.mpr ⟨hobserved, by simp [hrow.1, hrow.2.2, hlater.trans hrow.2.1]⟩
  · obtain ⟨hobserved, hstream, hafter, hhead⟩ := hmem row hpage
    exact mem_filter.mpr ⟨hobserved, by simp [hstream, hafter, hhead]⟩

section Steps

variable {store' : SensorStore} {answer : Answer}

theorem phaseWork_congr (h : store'.observations = store.observations) (phase : Phase) :
    phaseWork dispatcher store' phase = phaseWork dispatcher store phase := by
  have hunfetched : ∀ drain position, unfetched dispatcher store' drain position =
      unfetched dispatcher store drain position := by
    intro drain position
    rw [unfetched, unfetched, h]
  have hdelivery : ∀ delivery, deliveryWork dispatcher store' delivery =
      deliveryWork dispatcher store delivery := by
    intro delivery
    rw [deliveryWork, deliveryWork, hunfetched]
  have hoccasion : ∀ occasion, occasionWork dispatcher store' occasion =
      occasionWork dispatcher store occasion := by
    intro occasion
    cases occasion with
    | event delivery event => exact hdelivery delivery
    | polling sensor => rfl
  cases phase <;> simp only [phaseWork, h, hunfetched, hdelivery, hoccasion]

theorem work_goto (phase : Phase) : work dispatcher (state.goto pass phase) =
    sensorsWork state.store pass.remaining + phaseWork dispatcher state.store phase := rfl

theorem work_write (h : store.observations = state.store.observations) (phase : Phase) :
    work dispatcher (state.write pass store phase) =
      sensorsWork state.store pass.remaining + phaseWork dispatcher state.store phase := by
  have hsensors : sensorsWork store pass.remaining = sensorsWork state.store pass.remaining := by
    rw [sensorsWork, sensorsWork, h]
  calc work dispatcher (state.write pass store phase)
      = sensorsWork store pass.remaining + phaseWork dispatcher store phase := rfl
    _ = _ := by rw [hsensors, phaseWork_congr h]

theorem sensorsWork_pos (store : SensorStore) (remaining : List LoadedSensor) :
    0 < sensorsWork store remaining := by
  unfold sensorsWork
  omega

theorem work_selectSensor_lt :
    work dispatcher (state.selectSensor pass answer) <
      sensorsWork state.store pass.remaining + phaseWork dispatcher state.store .selecting := by
  unfold selectSensor
  cases hremaining : pass.remaining with
  | nil => exact sensorsWork_pos _ _
  | cons sensor remaining =>
    have hwork : sensorsWork state.store (sensor :: remaining) =
        sensorsWork state.store remaining + (6 + 12 * state.store.observations.length) := by
      rw [sensorsWork, sensorsWork, length_cons]
      ring
    rw [hwork]
    dsimp only
    by_cases hrunning : effectiveSensorStatus sensor pass.overrides = .running
    · rw [if_pos hrunning]
      cases sensor.declaration with
      | event declaration =>
        rw [work_goto]
        simp only [phaseWork]
        omega
      | polling minimumInterval =>
        dsimp only
        split_ifs
        · rw [work_goto]
          simp only [phaseWork]
          omega
        · simp only [work, finishPass]
          omega
    · rw [if_neg hrunning, work_goto]
      simp only [phaseWork]
      omega

theorem work_readPage_lt (warehouseNow : Option ℤ) :
    work dispatcher (state.readPage dispatcher pass drain warehouseNow) <
      sensorsWork state.store pass.remaining +
        phaseWork dispatcher state.store (.readPage drain warehouseNow) := by
  unfold SensorState.readPage
  dsimp only
  split
  · rw [work_goto]
    simp only [phaseWork]
    omega
  · next last hlast =>
    have hpage := unfetched_page dispatcher rfl hlast
    have hpos := length_pos_of_mem (mem_of_getLast? hlast)
    rw [work_goto]
    simp only [phaseWork, unfetched] at hpage ⊢
    omega

theorem work_deliverRow_lt (page : Page) :
    work dispatcher (state.deliverRow dispatcher pass drain page) <
      sensorsWork state.store pass.remaining +
        phaseWork dispatcher state.store (.rows drain page) := by
  unfold deliverRow
  cases hremaining : page.remaining with
  | nil =>
    dsimp only
    split_ifs
    all_goals
      rw [work_goto]
      simp only [phaseWork, unfetched, hremaining, length_nil]
      omega
  | cons row remaining =>
    have hevents := row.length_events_le dispatcher.eventTarget
    rw [work_goto]
    simp only [phaseWork, deliveryWork, hremaining, length_cons]
    omega

theorem work_deliverEvent_lt (delivery : Delivery) :
    work dispatcher (state.deliverEvent dispatcher pass delivery answer) <
      sensorsWork state.store pass.remaining +
        phaseWork dispatcher state.store (.events delivery) := by
  unfold deliverEvent
  cases hrest : delivery.rest with
  | nil =>
    rw [work_goto]
    simp only [phaseWork, deliveryWork, unfetched, hrest, length_nil]
    omega
  | cons event rest =>
    dsimp only
    split_ifs
    all_goals
      rw [work_goto]
      simp only [phaseWork, deliveryWork, hrest, length_cons]
      omega

theorem work_readTicks_lt (delivery : Delivery) (event : SensorEvent) :
    work dispatcher (state.readTicks pass delivery event) <
      sensorsWork state.store pass.remaining +
        phaseWork dispatcher state.store (.readTicks delivery event) := by
  unfold SensorState.readTicks
  dsimp only
  split_ifs
  all_goals
    rw [work_goto]
    simp only [phaseWork, deliveryWork]
    omega

theorem work_start (occasion : Occasion) (attemptNumber : ℕ) :
    work dispatcher (state.start dispatcher pass occasion attemptNumber) =
      sensorsWork state.store pass.remaining + (occasionWork dispatcher state.store occasion + 2) :=
  work_write rfl _

theorem work_record_lt (attempt : Attempt) (evaluation : SensorEvaluation) :
    work dispatcher (state.record pass attempt evaluation) <
      sensorsWork state.store pass.remaining +
        phaseWork dispatcher state.store (.record attempt evaluation) := by
  have hobservations : (state.store.recordTick (tickRow attempt evaluation.status
      (some state.store.clock) (some evaluation))).observations = state.store.observations := rfl
  unfold SensorState.record
  rw [work_write hobservations]
  cases hoccasion : attempt.occasion with
  | polling sensor =>
    simp only [phaseWork]
    omega
  | event delivery event =>
    dsimp only
    split_ifs
    all_goals
      simp only [phaseWork, hoccasion, occasionWork, deliveryWork]
      omega

theorem work_stepPass_lt (dispatcher : SensorDispatcher) (state : SensorState) (pass : Pass)
    (answer : Answer) :
    work dispatcher (state.stepPass dispatcher pass answer) <
      sensorsWork state.store pass.remaining +
        phaseWork dispatcher state.store pass.phase := by
  have hle := fun drain position => unfetched_le dispatcher state.store drain position
  cases hphase : pass.phase with
  | selecting => simpa only [stepPass, hphase] using work_selectSensor_lt
  | readCheckpoint sensor declaration =>
    simp only [stepPass, hphase]
    split
    all_goals
      rw [work_goto]
      simp only [phaseWork]
      omega
  | readNewest sensor declaration =>
    simp only [stepPass, hphase]
    rw [work_goto]
    simp only [phaseWork]
    omega
  | writeInitial sensor declaration position =>
    have hobservations : (state.store.advanceCheckpoint sensor.name declaration.source
        position).observations = state.store.observations := rfl
    simp only [stepPass, hphase]
    rw [work_write hobservations]
    simp only [phaseWork]
    omega
  | readHead sensor declaration checkpoint =>
    simp only [stepPass, hphase]
    split
    · rw [work_goto]
      simp only [phaseWork]
      omega
    · next streamHead _ =>
      rw [work_goto]
      simp only [phaseWork]
      have := hle ⟨sensor, declaration, checkpoint, streamHead, checkpoint, none,
        state.store.observations, []⟩ checkpoint
      omega
  | readClock drain =>
    simp only [stepPass, hphase]
    rw [work_goto]
    simp only [phaseWork]
    omega
  | readPage drain warehouseNow =>
    simpa only [stepPass, hphase] using work_readPage_lt warehouseNow
  | rows drain page => simpa only [stepPass, hphase] using work_deliverRow_lt page
  | events delivery =>
    simpa only [stepPass, hphase] using work_deliverEvent_lt delivery
  | readTicks delivery event =>
    simpa only [stepPass, hphase] using work_readTicks_lt delivery event
  | deadLetter delivery event attempts =>
    have hwork : work dispatcher
        (state.writeDeadLetter dispatcher pass delivery event attempts) =
          sensorsWork state.store pass.remaining +
            phaseWork dispatcher state.store (.events delivery) := work_write rfl _
    simp only [stepPass, hphase]
    rw [hwork]
    simp only [phaseWork]
    omega
  | startAttempt delivery event attempt =>
    simp only [stepPass, hphase]
    rw [work_start]
    simp only [phaseWork, occasionWork]
    omega
  | poll sensor minimumInterval =>
    simp only [stepPass, hphase, SensorState.poll]
    split_ifs
    · rw [work_goto]
      simp only [phaseWork]
      omega
    · rw [work_start]
      simp only [phaseWork, occasionWork]
      omega
  | evaluate attempt =>
    simp only [stepPass, hphase]
    change sensorsWork state.store _ + phaseWork dispatcher state.store (.record attempt _) < _
    simp only [phaseWork]
    omega
  | record attempt evaluation =>
    simpa only [stepPass, hphase] using work_record_lt attempt evaluation
  | finish drain leaseHeld =>
    simp only [stepPass, hphase, finishDrain]
    split_ifs
    · rw [work_write (by cases drain.advancedPosition <;> rfl)]
      simp only [phaseWork]
      omega
    · exact Nat.lt_of_lt_of_le (sensorsWork_pos state.store pass.remaining) (Nat.le_add_right _ _)

end Steps

def DispatchEvent.isStep : DispatchEvent → Bool
  | .step _ => true
  | _ => false

def DispatchEvent.isObserve : DispatchEvent → Bool
  | .observe _ => true
  | _ => false

def DispatchEvent.isDispatchOnce : DispatchEvent → Bool
  | .dispatchOnce _ => true
  | _ => false

/-- What one more visible row adds at most. -/
def rowWork (dispatcher : SensorDispatcher) : ℕ := 12 * (dispatcher.registry.sensors.length + 1)

theorem phaseWork_observe_le (dispatcher : SensorDispatcher) (store : SensorStore)
    (row : Observation) (phase : Phase) :
    phaseWork dispatcher (store.observe row) phase ≤ phaseWork dispatcher store phase + 12 := by
  have hlength : (store.observe row).observations.length ≤ store.observations.length + 1 := by
    unfold SensorStore.observe
    split_ifs <;> simp
  have hunfetched : ∀ drain position, unfetched dispatcher (store.observe row) drain position ≤
      unfetched dispatcher store drain position + 1 := by
    intro drain position
    unfold unfetched SensorStore.observe
    split_ifs
    · rw [countP_append, countP_singleton]
      split_ifs <;> omega
    · omega
  have hdelivery : ∀ delivery, deliveryWork dispatcher (store.observe row) delivery ≤
      deliveryWork dispatcher store delivery + 12 := by
    intro delivery
    have := hunfetched delivery.drain delivery.page.last
    unfold deliveryWork
    omega
  have hoccasion : ∀ occasion, occasionWork dispatcher (store.observe row) occasion ≤
      occasionWork dispatcher store occasion + 12 := by
    intro occasion
    cases occasion with
    | event delivery event => exact hdelivery delivery
    | polling sensor => exact Nat.zero_le _
  cases phase with
  | readClock drain =>
    have := hunfetched drain drain.currentPosition
    simp only [phaseWork]
    omega
  | readPage drain warehouseNow =>
    have := hunfetched drain drain.currentPosition
    simp only [phaseWork]
    omega
  | rows drain page =>
    have := hunfetched drain page.last
    simp only [phaseWork]
    omega
  | events delivery => exact hdelivery delivery
  | readTicks delivery event =>
    have := hdelivery delivery
    simp only [phaseWork]
    omega
  | deadLetter delivery event attempts =>
    have := hdelivery delivery
    simp only [phaseWork]
    omega
  | startAttempt delivery event attempt =>
    have := hdelivery delivery
    simp only [phaseWork]
    omega
  | evaluate attempt =>
    have := hoccasion attempt.occasion
    simp only [phaseWork]
    omega
  | record attempt evaluation =>
    have := hoccasion attempt.occasion
    simp only [phaseWork]
    omega
  | _ =>
    simp only [phaseWork]
    omega

theorem work_observe_le (hregistered : Registered dispatcher.registry state) (row : Observation) :
    work dispatcher (nextDispatch dispatcher state (.observe row)) ≤
      work dispatcher state + rowWork dispatcher := by
  cases hpass : state.pass with
  | none => simp [work, nextDispatch, hpass]
  | some pass =>
    have hlength : (state.store.observe row).observations.length ≤
        state.store.observations.length + 1 := by
      unfold SensorStore.observe
      split_ifs <;> simp
    have hremaining : pass.remaining.length ≤ dispatcher.registry.sensors.length := by
      have := (hregistered pass hpass).1.length_le
      rwa [SensorRegistry.ordered, length_insertionSort] at this
    have hsensors : sensorsWork (state.store.observe row) pass.remaining ≤
        sensorsWork state.store pass.remaining + 12 * pass.remaining.length := by
      have := Nat.mul_le_mul_left pass.remaining.length
        (show 6 + 12 * (state.store.observe row).observations.length ≤
          6 + 12 * state.store.observations.length + 12 by omega)
      unfold sensorsWork
      rw [Nat.mul_add _ _ 12] at this
      omega
    have hphase := phaseWork_observe_le dispatcher state.store row pass.phase
    simp only [work, nextDispatch, hpass, rowWork]
    omega

theorem work_step_lt (dispatcher : SensorDispatcher) (hpass : state.pass = some pass)
    (answer : Answer) :
    work dispatcher (nextDispatch dispatcher state (.step answer)) < work dispatcher state := by
  have hlt := work_stepPass_lt dispatcher state pass answer
  simpa only [work, nextDispatch, hpass] using hlt

theorem pass_eq_none_next (hpass : state.pass = none) {e : DispatchEvent}
    (he : e.isDispatchOnce = false) : (nextDispatch dispatcher state e).pass = none := by
  cases e with
  | dispatchOnce leaseAcquired => simp [DispatchEvent.isDispatchOnce] at he
  | step answer =>
    simp only [nextDispatch, hpass]
  | crash => rfl
  | _ => exact hpass

theorem work_next_le (hregistered : Registered dispatcher.registry state)
    (hpass : state.pass = some pass) {e : DispatchEvent} (he : e.isDispatchOnce = false) :
    work dispatcher (nextDispatch dispatcher state e) + (if e.isStep then 1 else 0) ≤
      work dispatcher state + rowWork dispatcher * (if e.isObserve then 1 else 0) := by
  cases e with
  | observe row => simpa [DispatchEvent.isStep, DispatchEvent.isObserve] using
      work_observe_le hregistered row
  | step answer => simpa [DispatchEvent.isStep, DispatchEvent.isObserve] using
      Nat.succ_le_of_lt (work_step_lt dispatcher hpass answer)
  | dispatchOnce leaseAcquired => simp [DispatchEvent.isDispatchOnce] at he
  | crash => exact Nat.zero_le _
  | elapse milliseconds =>
    simp only [work, nextDispatch, hpass]
    rw [phaseWork_congr rfl]
    rfl
  | override sensorName status =>
    simp only [work, nextDispatch, hpass]
    rw [phaseWork_congr rfl]
    rfl

/-- A pass that takes as many steps as there was work, counting what the visible rows added, is
over. -/
theorem pass_eq_none_of_work_le {events : List DispatchEvent}
    (hregistered : Registered dispatcher.registry state)
    (hdispatch : ∀ e ∈ events, e.isDispatchOnce = false)
    (hwork : work dispatcher state + rowWork dispatcher * events.countP DispatchEvent.isObserve ≤
      events.countP DispatchEvent.isStep) :
    (run (nextDispatch dispatcher) state events).pass = none := by
  induction events generalizing state with
  | nil =>
    cases hpass : state.pass with
    | none => exact hpass
    | some pass =>
      have := sensorsWork_pos state.store pass.remaining
      simp only [work, hpass, countP_nil] at hwork
      omega
  | cons e events ih =>
    have hrest : ∀ e ∈ events, e.isDispatchOnce = false :=
      fun e he => hdispatch e (mem_cons_of_mem _ he)
    have hhead := hdispatch e (by simp)
    rw [run_cons]
    cases hpass : state.pass with
    | none =>
      exact run_invariant (nextDispatch dispatcher)
        (I := fun state => state.pass = none) (fun _ _ hnone he => pass_eq_none_next hnone he.1)
        (pass_eq_none_next hpass hhead) ((along_true _ _ events).and_forall _ hrest)
    | some pass =>
      have hnext := work_next_le hregistered hpass hhead
      rw [countP_cons, countP_cons, Nat.mul_add] at hwork
      exact ih (hregistered.next e) hrest (by omega)

end SqlTide.Sensors
