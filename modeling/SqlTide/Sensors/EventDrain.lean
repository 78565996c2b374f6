import SqlTide.Sensors.PassInvariants

/-!
# The drain of an event stream

While a pass drains the stream of a sensor, the fetched rows are the ones that are done followed
by the pending ones, in ascending order, and the position that is going to be the checkpoint is
that of the last row done. Every event of a row that is done is settled: it does not match, it
has expired, or the tick log has it resolved.
-/

namespace SqlTide.Sensors

open List

variable {dispatcher : SensorDispatcher} {store store' : SensorStore} {state : SensorState}
  {pass : Pass} {sensor : LoadedSensor} {declaration : EventSensorDeclaration}
  {event : SensorEvent} {row : Observation} {drain : Drain} {pending : List Observation}

/-- A row of the tick log resolves the event. -/
def EventResolved (ticks : List AdapterSensorTickRecord) (sensorName eventId : String) : Prop :=
  ∃ tick ∈ ticks, concerns sensorName eventId tick = true ∧ tick.isResolved = true

def EventSettled (dispatcher : SensorDispatcher) (store : SensorStore) (sensor : LoadedSensor)
    (declaration : EventSensorDeclaration) (event : SensorEvent) : Prop :=
  matchesSensor declaration event = false ∨
    eventIsExpired dispatcher declaration event store.clock = true ∨
    EventResolved store.ticks sensor.name event.id

def RowSettled (dispatcher : SensorDispatcher) (store : SensorStore) (sensor : LoadedSensor)
    (declaration : EventSensorDeclaration) (row : Observation) : Prop :=
  ∀ event ∈ row.events dispatcher.eventTarget,
    EventSettled dispatcher store sensor declaration event

/-- Rows are added and time goes by; the checkpoints stay. -/
structure SensorStore.Grows (store store' : SensorStore) : Prop where
  observations : store.observations ⊆ store'.observations
  ticks : store.ticks ⊆ store'.ticks
  clock : store.clock ≤ store'.clock
  checkpoints : store'.checkpoints = store.checkpoints

theorem eventIsExpired_mono {now now' : ℤ} (h : now ≤ now')
    (hexpired : eventIsExpired dispatcher declaration event now = true) :
    eventIsExpired dispatcher declaration event now' = true := by
  unfold eventIsExpired at hexpired ⊢
  split at hexpired
  · exact hexpired
  · simp only [timestampIsBefore, decide_eq_true_eq] at hexpired ⊢
    omega

namespace SensorStore.Grows

theorem refl (store : SensorStore) : store.Grows store :=
  ⟨List.Subset.refl _, List.Subset.refl _, le_rfl, rfl⟩

theorem readCheckpoint (h : store.Grows store') (sensorName : String) (source : EventSource) :
    store'.readCheckpoint sensorName source = store.readCheckpoint sensorName source := by
  rw [SensorStore.readCheckpoint, SensorStore.readCheckpoint, h.checkpoints]

theorem recordTick (store : SensorStore) (tick : AdapterSensorTickRecord) (uuidsDrawn : ℕ) :
    store.Grows { store.recordTick tick with uuidsDrawn } :=
  ⟨List.Subset.refl _, subset_append_left _ _, le_rfl, rfl⟩

theorem elapse (store : SensorStore) (milliseconds : ℕ) :
    store.Grows { store with clock := store.clock + milliseconds } :=
  ⟨List.Subset.refl _, List.Subset.refl _, by simp, rfl⟩

theorem observe (store : SensorStore) (row : Observation) : store.Grows (store.observe row) := by
  unfold SensorStore.observe
  split_ifs
  · exact ⟨subset_append_left _ _, List.Subset.refl _, le_rfl, rfl⟩
  · exact refl store

theorem eventSettled (h : store.Grows store')
    (hsettled : EventSettled dispatcher store sensor declaration event) :
    EventSettled dispatcher store' sensor declaration event := by
  rcases hsettled with hmatch | hexpired | ⟨tick, htick, hresolved⟩
  · exact .inl hmatch
  · exact .inr (.inl (eventIsExpired_mono h.clock hexpired))
  · exact .inr (.inr ⟨tick, h.ticks htick, hresolved⟩)

theorem rowSettled (h : store.Grows store')
    (hsettled : RowSettled dispatcher store sensor declaration row) :
    RowSettled dispatcher store' sensor declaration row :=
  fun event hevent => h.eventSettled (hsettled event hevent)

end SensorStore.Grows

theorem position_le_of_getLast? {rows : List Observation} {last : Observation}
    (hascending : rows.Pairwise (·.position < ·.position)) (hlast : rows.getLast? = some last)
    (hrow : row ∈ rows) : row.position ≤ last.position := by
  obtain ⟨front, rfl⟩ := getLast?_eq_some_iff.mp hlast
  rcases mem_append.mp hrow with hfront | hend
  · exact ((pairwise_append.mp hascending).2.2 row hfront last (by simp)).le
  · rw [mem_singleton.mp hend]

/-- The position of the last fetched row. -/
def Drain.reached (drain : Drain) : SensorStreamPosition :=
  (drain.fetched.getLast?.map (·.position)).getD drain.checkpoint

/-- The rows fetched so far end with the pending ones. -/
structure DrainInv (dispatcher : SensorDispatcher) (store : SensorStore) (drain : Drain)
    (pending : List Observation) : Prop where
  checkpoint : store.readCheckpoint drain.sensor.name drain.declaration.source =
    some drain.checkpoint
  ascending : drain.fetched.Pairwise (·.position < ·.position)
  after : ∀ row ∈ drain.fetched, drain.checkpoint < row.position
  done : ∃ done, drain.fetched = done ++ pending ∧
    (∀ row ∈ done, RowSettled dispatcher store drain.sensor drain.declaration row) ∧
    drain.advancedPosition = done.getLast?.map (·.position)
  visible : drain.visibleAtStart ⊆ store.observations
  covered : ∀ row ∈ drain.visibleAtStart,
    inStream drain.declaration.source dispatcher.target row = true →
      drain.checkpoint < row.position →
        ∀ last ∈ drain.fetched, row.position ≤ last.position → row ∈ drain.fetched

namespace DrainInv

theorem grow (h : DrainInv dispatcher store drain pending) (hgrows : store.Grows store') :
    DrainInv dispatcher store' drain pending := by
  obtain ⟨done, hfetched, hsettled, hadvanced⟩ := h.done
  exact
    { checkpoint := (hgrows.readCheckpoint _ _).trans h.checkpoint
      ascending := h.ascending
      after := h.after
      done := ⟨done, hfetched, fun row hrow => hgrows.rowSettled (hsettled row hrow), hadvanced⟩
      visible := fun _ hrow => hgrows.observations (h.visible hrow)
      covered := h.covered }

theorem start {checkpoint streamHead : SensorStreamPosition}
    (h : store.readCheckpoint sensor.name declaration.source = some checkpoint) :
    DrainInv dispatcher store
      { sensor
        declaration
        checkpoint
        streamHead
        currentPosition := checkpoint
        advancedPosition := none
        visibleAtStart := store.observations
        fetched := [] } [] where
  checkpoint := h
  ascending := List.Pairwise.nil
  after := fun _ hrow => nomatch hrow
  done := ⟨[], rfl, by simp, rfl⟩
  visible := List.Subset.refl _
  covered := fun _ _ _ _ _ hlast => nomatch hlast

theorem checkpoint_le_reached (h : DrainInv dispatcher store drain pending) :
    drain.checkpoint ≤ drain.reached := by
  unfold Drain.reached
  cases hlast : drain.fetched.getLast? with
  | none => exact le_rfl
  | some last => exact (h.after last (mem_of_getLast? hlast)).le

theorem le_reached (h : DrainInv dispatcher store drain pending) (hrow : row ∈ drain.fetched) :
    row.position ≤ drain.reached := by
  unfold Drain.reached
  cases hlast : drain.fetched.getLast? with
  | none =>
    rw [getLast?_eq_none_iff.mp hlast] at hrow
    exact absurd hrow (by simp)
  | some last => exact position_le_of_getLast? h.ascending hlast hrow

/-- A page has been read: its rows come after the ones fetched before. -/
theorem fetch (h : DrainInv dispatcher store drain []) {limit : ℕ} {last : Observation}
    {deliveries : List Observation}
    (hdeliveries : deliveries = (observationsAfter store.observations drain.declaration.source
      dispatcher.target drain.reached limit).filter (·.position ≤ drain.streamHead))
    (hlast : deliveries.getLast? = some last) :
    DrainInv dispatcher store { drain with fetched := drain.fetched ++ deliveries } deliveries ∧
      last.position = Drain.reached { drain with fetched := drain.fetched ++ deliveries } := by
  have hpage : ∀ row ∈ deliveries, drain.reached < row.position := by
    intro row hrow
    rw [hdeliveries] at hrow
    exact (mem_observationsAfter (mem_of_mem_filter hrow)).2.2
  have hascending : deliveries.Pairwise (·.position < ·.position) := by
    rw [hdeliveries]
    exact (pairwise_observationsAfter store.ids_once).sublist filter_sublist
  obtain ⟨done, hfetched, hsettled, hadvanced⟩ := h.done
  refine ⟨⟨h.checkpoint, ?_, ?_, ?_, h.visible, ?_⟩, ?_⟩
  · refine pairwise_append.mpr ⟨h.ascending, hascending, ?_⟩
    intro row hrow row' hrow'
    exact (h.le_reached hrow).trans_lt (hpage row' hrow')
  · intro row hrow
    rcases mem_append.mp hrow with hold | hnew
    · exact h.after row hold
    · exact h.checkpoint_le_reached.trans_lt (hpage row hnew)
  · refine ⟨done, ?_, hsettled, hadvanced⟩
    rw [append_nil] at hfetched
    rw [hfetched]
  · intro row hrow hstream hafter row' hrow' hle
    -- Rows up to the last position were fetched before; the page has those up to its own end.
    by_cases hreached : row.position ≤ drain.reached
    · refine mem_append_left _ ?_
      unfold Drain.reached at hreached
      cases hend : drain.fetched.getLast? with
      | none =>
        rw [hend] at hreached
        exact absurd hafter (not_lt.mpr hreached)
      | some reached =>
        rw [hend] at hreached
        exact h.covered row hrow hstream hafter reached (mem_of_getLast? hend) hreached
    · push Not at hreached
      rcases mem_append.mp hrow' with hold | hnew
      · exact absurd (hle.trans (h.le_reached hold)) (not_le.mpr hreached)
      · refine mem_append_right _ ?_
        rw [hdeliveries] at hnew ⊢
        obtain ⟨hmem, hhead⟩ := mem_filter.mp hnew
        have hrow := mem_observationsAfter_of_le store.ids_once (h.visible hrow) hstream hreached
          hmem hle
        refine mem_filter.mpr ⟨hrow, ?_⟩
        simp only [decide_eq_true_eq] at hhead ⊢
        exact hle.trans hhead
  · simp [Drain.reached, getLast?_append, hlast]

theorem finishRow (h : DrainInv dispatcher store drain (row :: pending))
    (hrow : RowSettled dispatcher store drain.sensor drain.declaration row) :
    DrainInv dispatcher store { drain with advancedPosition := some row.position } pending := by
  obtain ⟨done, hfetched, hsettled, hadvanced⟩ := h.done
  refine ⟨h.checkpoint, h.ascending, h.after, ⟨done ++ [row], by simpa using hfetched, ?_, ?_⟩,
    h.visible, h.covered⟩
  · intro row' hrow'
    rcases mem_append.mp hrow' with hold | hnew
    · exact hsettled row' hold
    · rw [mem_singleton.mp hnew]
      exact hrow
  · simp

/-- What the checkpoint is going to pass over is settled, as far as the pass has seen it. -/
theorem settled (h : DrainInv dispatcher store drain pending) {position : SensorStreamPosition}
    (hadvanced : drain.advancedPosition = some position)
    (hseen : row ∈ drain.fetched ∨ row ∈ drain.visibleAtStart)
    (hstream : inStream drain.declaration.source dispatcher.target row = true)
    (hafter : drain.checkpoint < row.position) (hle : row.position ≤ position) :
    RowSettled dispatcher store drain.sensor drain.declaration row := by
  obtain ⟨done, hfetched, hsettled, hdone⟩ := h.done
  rw [hadvanced] at hdone
  obtain ⟨last, hlast, rfl⟩ := Option.map_eq_some_iff.mp hdone.symm
  have hlastDone : last ∈ done := mem_of_getLast? hlast
  have hrow : row ∈ drain.fetched := by
    rcases hseen with hmem | hvisible
    · exact hmem
    · exact h.covered row hvisible hstream hafter last (hfetched ▸ mem_append_left _ hlastDone) hle
  rw [hfetched] at hrow
  rcases mem_append.mp hrow with hmem | hpending
  · exact hsettled row hmem
  · have hascending := h.ascending
    rw [hfetched] at hascending
    have hlt := (pairwise_append.mp hascending).2.2 last hlastDone row hpending
    exact absurd hle (not_le.mpr hlt)

end DrainInv

/-- The time was read in the past. -/
def ClockRead (store : SensorStore) (warehouseNow : Option ℤ) : Prop :=
  ∀ now, warehouseNow = some now → now ≤ store.clock

/-- The current row is the first pending one, and all its events but the listed ones are settled. -/
structure DeliveryInv (dispatcher : SensorDispatcher) (store : SensorStore) (delivery : Delivery)
    (outstanding : List SensorEvent) : Prop where
  drain : DrainInv dispatcher store delivery.drain (delivery.row :: delivery.page.remaining)
  last : delivery.page.last = delivery.drain.reached
  clock : ClockRead store delivery.page.warehouseNow
  settled : ∀ event ∈ delivery.row.events dispatcher.eventTarget, event ∈ outstanding ∨
    EventSettled dispatcher store delivery.drain.sensor delivery.drain.declaration event

def OccasionInv (dispatcher : SensorDispatcher) (store : SensorStore) : Occasion → Prop
  | .event delivery event => DeliveryInv dispatcher store delivery (event :: delivery.rest)
  | .polling _ => True

def PhaseInv (dispatcher : SensorDispatcher) (store : SensorStore) : Phase → Prop
  | .selecting | .readCheckpoint _ _ | .poll _ _ => True
  | .readNewest sensor declaration | .writeInitial sensor declaration _ =>
    store.readCheckpoint sensor.name declaration.source = none
  | .readHead sensor declaration checkpoint =>
    store.readCheckpoint sensor.name declaration.source = some checkpoint
  | .readClock drain =>
    DrainInv dispatcher store drain [] ∧ drain.currentPosition = drain.reached
  | .readPage drain warehouseNow =>
    DrainInv dispatcher store drain [] ∧ drain.currentPosition = drain.reached ∧
      ClockRead store warehouseNow
  | .rows drain page =>
    DrainInv dispatcher store drain page.remaining ∧ page.last = drain.reached ∧
      ClockRead store page.warehouseNow
  | .events delivery => DeliveryInv dispatcher store delivery delivery.rest
  | .readTicks delivery event | .deadLetter delivery event _ | .startAttempt delivery event _ =>
    DeliveryInv dispatcher store delivery (event :: delivery.rest)
  | .evaluate attempt | .record attempt _ => OccasionInv dispatcher store attempt.occasion
  | .finish drain _ => ∃ pending, DrainInv dispatcher store drain pending

theorem phaseInv_events {delivery : Delivery} : PhaseInv dispatcher store (.events delivery) ↔
    DeliveryInv dispatcher store delivery delivery.rest := Iff.rfl

theorem phaseInv_record {attempt : Attempt} {evaluation : SensorEvaluation} :
    PhaseInv dispatcher store (.record attempt evaluation) ↔
      OccasionInv dispatcher store attempt.occasion := Iff.rfl

theorem ClockRead.grow {warehouseNow : Option ℤ} (h : ClockRead store warehouseNow)
    (hgrows : store.Grows store') : ClockRead store' warehouseNow :=
  fun now hnow => (h now hnow).trans hgrows.clock

namespace DeliveryInv

variable {delivery : Delivery} {outstanding : List SensorEvent}

theorem grow (h : DeliveryInv dispatcher store delivery outstanding)
    (hgrows : store.Grows store') : DeliveryInv dispatcher store' delivery outstanding :=
  ⟨h.drain.grow hgrows, h.last, h.clock.grow hgrows,
    fun event hevent => (h.settled event hevent).imp_right hgrows.eventSettled⟩

theorem settle (h : DeliveryInv dispatcher store delivery (event :: outstanding))
    (hevent : EventSettled dispatcher store delivery.drain.sensor
    delivery.drain.declaration event) : DeliveryInv dispatcher store delivery outstanding := by
  refine ⟨h.drain, h.last, h.clock, fun event' hevent' => ?_⟩
  rcases h.settled event' hevent' with hmem | hsettled
  · rcases mem_cons.mp hmem with rfl | hmem
    · exact .inr hevent
    · exact .inl hmem
  · exact .inr hsettled

theorem withRest (h : DeliveryInv dispatcher store delivery outstanding) (rest : List SensorEvent) :
    DeliveryInv dispatcher store { delivery with rest } outstanding :=
  ⟨h.drain, h.last, h.clock, h.settled⟩

end DeliveryInv

theorem OccasionInv.grow {occasion : Occasion} (h : OccasionInv dispatcher store occasion)
    (hgrows : store.Grows store') : OccasionInv dispatcher store' occasion := by
  cases occasion with
  | event delivery event => exact DeliveryInv.grow h hgrows
  | polling sensor => trivial

theorem PhaseInv.grow {phase : Phase} (h : PhaseInv dispatcher store phase)
    (hgrows : store.Grows store') : PhaseInv dispatcher store' phase := by
  cases phase with
  | selecting => trivial
  | readCheckpoint sensor declaration => trivial
  | poll sensor minimumInterval => trivial
  | readNewest sensor declaration => exact (hgrows.readCheckpoint _ _).trans h
  | writeInitial sensor declaration position => exact (hgrows.readCheckpoint _ _).trans h
  | readHead sensor declaration checkpoint => exact (hgrows.readCheckpoint _ _).trans h
  | readClock drain => exact ⟨h.1.grow hgrows, h.2⟩
  | readPage drain warehouseNow => exact ⟨h.1.grow hgrows, h.2.1, h.2.2.grow hgrows⟩
  | rows drain page => exact ⟨h.1.grow hgrows, h.2.1, h.2.2.grow hgrows⟩
  | events delivery => exact DeliveryInv.grow h hgrows
  | readTicks delivery event => exact DeliveryInv.grow h hgrows
  | deadLetter delivery event attempts => exact DeliveryInv.grow h hgrows
  | startAttempt delivery event attempt => exact DeliveryInv.grow h hgrows
  | evaluate attempt => exact OccasionInv.grow h hgrows
  | record attempt evaluation => exact OccasionInv.grow h hgrows
  | finish drain leaseHeld =>
    obtain ⟨pending, hdrain⟩ := h
    exact ⟨pending, hdrain.grow hgrows⟩

/-- The pass under way keeps the invariant of its phase. -/
def PassInv (dispatcher : SensorDispatcher) (state : SensorState) : Prop :=
  ∀ pass, state.pass = some pass → PhaseInv dispatcher state.store pass.phase

namespace PassInv

theorem of_pass_none (h : state.pass = none) : PassInv dispatcher state := by
  intro pass hpass
  rw [h] at hpass
  exact absurd hpass (by simp)

variable {phase : Phase} {delivery : Delivery}

theorem goto (h : PhaseInv dispatcher state.store phase) :
    PassInv dispatcher (state.goto pass phase) := by
  intro pass' hpass'
  cases hpass'
  exact h

theorem write (h : PhaseInv dispatcher store phase) :
    PassInv dispatcher (state.write pass store phase) := by
  intro pass' hpass'
  cases hpass'
  exact h

theorem selectSensor (answer : Answer) : PassInv dispatcher (state.selectSensor pass answer) := by
  unfold SensorState.selectSensor
  cases pass.remaining with
  | nil => exact of_pass_none rfl
  | cons sensor remaining =>
    dsimp only
    by_cases hrunning : effectiveSensorStatus sensor pass.overrides = .running
    · rw [if_pos hrunning]
      cases sensor.declaration with
      | event declaration => exact goto trivial
      | polling minimumInterval =>
        dsimp only
        split_ifs
        · exact goto trivial
        · exact of_pass_none rfl
    · rw [if_neg hrunning]
      exact goto trivial

theorem readPage {warehouseNow : Option ℤ} (h : DrainInv dispatcher state.store drain [])
    (hcurrent : drain.currentPosition = drain.reached)
    (hclock : ClockRead state.store warehouseNow) :
    PassInv dispatcher (state.readPage dispatcher pass drain warehouseNow) := by
  unfold SensorState.readPage
  dsimp only
  split
  · exact goto ⟨[], h⟩
  · next last hlast =>
    obtain ⟨hdrain, hreached⟩ := h.fetch (by rw [hcurrent]) hlast
    exact goto ⟨hdrain, hreached, hclock⟩

theorem deliverRow {page : Page} (h : DrainInv dispatcher state.store drain page.remaining)
    (hlast : page.last = drain.reached) (hclock : ClockRead state.store page.warehouseNow) :
    PassInv dispatcher (state.deliverRow dispatcher pass drain page) := by
  unfold SensorState.deliverRow
  cases hremaining : page.remaining with
  | cons row remaining =>
    rw [hremaining] at h
    exact goto ⟨h, hlast, hclock, fun event hevent => .inl hevent⟩
  | nil =>
    rw [hremaining] at h
    have hdrain : DrainInv dispatcher state.store { drain with currentPosition := page.last } [] :=
      ⟨h.checkpoint, h.ascending, h.after, h.done, h.visible, h.covered⟩
    dsimp only
    split_ifs
    · exact goto ⟨[], hdrain⟩
    · exact goto ⟨hdrain, hlast⟩

theorem deliverEvent
    (h : DeliveryInv dispatcher state.store delivery delivery.rest) (answer : Answer) :
    PassInv dispatcher (state.deliverEvent dispatcher pass delivery answer) := by
  unfold SensorState.deliverEvent
  cases hrest : delivery.rest with
  | nil =>
    rw [hrest] at h
    have hrow : RowSettled dispatcher state.store delivery.drain.sensor
        delivery.drain.declaration delivery.row :=
      fun event hevent => (h.settled event hevent).resolve_left (by simp)
    exact goto ⟨h.drain.finishRow hrow, h.last, h.clock⟩
  | cons event rest =>
    rw [hrest] at h
    dsimp only
    split_ifs with hmatch hexpired hlease
    · exact goto ((h.settle (.inl hmatch)).withRest rest)
    · have hnow : eventIsExpired dispatcher delivery.drain.declaration event
          state.store.clock = true := by
        cases hread : delivery.page.warehouseNow with
        | none => simp [hread] at hexpired
        | some now =>
          rw [hread] at hexpired
          exact eventIsExpired_mono (h.clock now hread) (by simpa using hexpired)
      exact goto ((h.settle (.inr (.inl hnow))).withRest rest)
    · exact goto (h.withRest rest)
    · exact goto ⟨_, h.drain⟩

theorem readTicks (honce : TerminalOnce state.store.ticks)
    (h : DeliveryInv dispatcher state.store delivery (event :: delivery.rest)) :
    PassInv dispatcher (state.readTicks pass delivery event) := by
  unfold SensorState.readTicks
  dsimp only
  split_ifs with hresolved
  · exact goto (h.settle (.inr (.inr ((resolved_iff honce).mp hresolved))))
  · exact goto h
  · exact goto ⟨_, h.drain⟩
  · exact goto h

theorem start {occasion : Occasion} (h : OccasionInv dispatcher state.store occasion)
    (attemptNumber : ℕ) : PassInv dispatcher (state.start dispatcher pass occasion attemptNumber) :=
  write (OccasionInv.grow h (.recordTick _ _ _) : PhaseInv dispatcher _ (.evaluate _))

theorem writeDeadLetter {attempts : TickAttemptState}
    (h : DeliveryInv dispatcher state.store delivery (event :: delivery.rest)) :
    PassInv dispatcher (state.writeDeadLetter dispatcher pass delivery event attempts) := by
  have hgrown := h.grow (.recordTick state.store (deadLetterRow delivery.drain.sensor event attempts
    (dispatcher.uuid4Hex state.store.uuidsDrawn) state.store.clock) (state.store.uuidsDrawn + 1))
  have hevents := hgrown.settle (.inr (.inr
    ⟨_, mem_append_right _ (mem_singleton_self _),
      by simp [concerns, deadLetterRow], rfl⟩))
  exact write (phaseInv_events.mpr hevents)

theorem record {attempt : Attempt} {evaluation : SensorEvaluation}
    (h : OccasionInv dispatcher state.store attempt.occasion) :
    PassInv dispatcher (state.record pass attempt evaluation) := by
  unfold SensorState.record
  refine write ?_
  cases hoccasion : attempt.occasion with
  | polling sensor => trivial
  | event delivery event =>
    rw [hoccasion] at h
    have hgrown := DeliveryInv.grow h (.recordTick state.store (tickRow attempt evaluation.status
      (some state.store.clock) (some evaluation)) state.store.uuidsDrawn)
    dsimp only
    split_ifs with hfailed
    · exact ⟨_, hgrown.drain⟩
    · refine hgrown.settle (.inr (.inr ⟨_, mem_append_right _ (mem_singleton_self _), ?_, ?_⟩))
      · simp [concerns, tickRow, Attempt.sensor, Occasion.sensor, hoccasion]
      · have hevaluated := evaluation.evaluated
        unfold AdapterSensorTickRecord.isResolved tickRow
        cases hstatus : evaluation.status <;>
          simp_all [SensorTickStatus.isEvaluated, SensorTickStatus.isResolved]

theorem stepPass (honce : TerminalOnce state.store.ticks)
    (h : PhaseInv dispatcher state.store pass.phase) (answer : Answer) :
    PassInv dispatcher (state.stepPass dispatcher pass answer) := by
  cases hphase : pass.phase with
  | selecting => simpa only [SensorState.stepPass, hphase] using selectSensor answer
  | readCheckpoint sensor declaration =>
    simp only [SensorState.stepPass, hphase]
    split
    · next hnone => exact goto hnone
    · next checkpoint hsome => exact goto hsome
  | readNewest sensor declaration =>
    rw [hphase] at h
    simp only [SensorState.stepPass, hphase]
    exact goto h
  | writeInitial sensor declaration position =>
    simp only [SensorState.stepPass, hphase]
    exact write trivial
  | readHead sensor declaration checkpoint =>
    rw [hphase] at h
    simp only [SensorState.stepPass, hphase]
    split
    · exact goto trivial
    · exact goto ⟨.start h, rfl⟩
  | readClock drain =>
    rw [hphase] at h
    simp only [SensorState.stepPass, hphase]
    refine goto ⟨h.1, h.2, fun now hnow => ?_⟩
    obtain ⟨-, -, rfl⟩ := Option.map_eq_some_iff.mp hnow
    exact le_rfl
  | readPage drain warehouseNow =>
    rw [hphase] at h
    simpa only [SensorState.stepPass, hphase] using readPage h.1 h.2.1 h.2.2
  | rows drain page =>
    rw [hphase] at h
    simpa only [SensorState.stepPass, hphase] using deliverRow h.1 h.2.1 h.2.2
  | events delivery =>
    rw [hphase] at h
    simpa only [SensorState.stepPass, hphase] using deliverEvent h answer
  | readTicks delivery event =>
    rw [hphase] at h
    simpa only [SensorState.stepPass, hphase] using readTicks honce h
  | deadLetter delivery event attempts =>
    rw [hphase] at h
    simpa only [SensorState.stepPass, hphase] using writeDeadLetter h
  | startAttempt delivery event attempt =>
    rw [hphase] at h
    have hoccasion : OccasionInv dispatcher state.store (.event delivery event) := h
    simpa only [SensorState.stepPass, hphase] using start hoccasion attempt
  | poll sensor minimumInterval =>
    simp only [SensorState.stepPass, hphase, SensorState.poll]
    split_ifs
    · exact goto trivial
    · have hoccasion : OccasionInv dispatcher state.store (.polling sensor) := trivial
      exact start hoccasion 1
  | evaluate attempt =>
    rw [hphase] at h
    simp only [SensorState.stepPass, hphase]
    exact goto (phaseInv_record.mpr h)
  | record attempt evaluation =>
    rw [hphase] at h
    simpa only [SensorState.stepPass, hphase] using record h
  | finish drain leaseHeld =>
    simp only [SensorState.stepPass, hphase, SensorState.finishDrain]
    split_ifs
    · exact write trivial
    · exact of_pass_none rfl

theorem grow (h : PassInv dispatcher state) (hgrows : state.store.Grows store) :
    PassInv dispatcher { state with store } :=
  fun pass hpass => (h pass hpass).grow hgrows

theorem next (h : PassInv dispatcher state) (honce : TerminalOnce state.store.ticks)
    (e : DispatchEvent) : PassInv dispatcher (nextDispatch dispatcher state e) := by
  cases e with
  | observe row => exact h.grow (.observe state.store row)
  | elapse milliseconds => exact h.grow (.elapse state.store milliseconds)
  | override sensorName status =>
    exact h.grow ⟨List.Subset.refl _, List.Subset.refl _, le_rfl, rfl⟩
  | dispatchOnce leaseAcquired =>
    simp only [nextDispatch]
    split
    · exact h
    · split_ifs
      · intro pass hpass
        cases hpass
        trivial
      · exact h
  | step answer =>
    simp only [nextDispatch]
    split
    · exact h
    · next pass hpass => exact stepPass honce (h pass hpass) answer
  | crash => exact of_pass_none rfl

end PassInv

end SqlTide.Sensors
