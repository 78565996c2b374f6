import SqlTide.Foundations.Runs
import SqlTide.Sensors.Observations

/-!
# Dispatch passes of the sensors

One pass goes through the running sensors and, for an event sensor, drains the stream after
its checkpoint. The pass is cut at its reads and durable writes: between any two of them rows
become visible, time goes by, or the process dies. Whether the dispatch lease is held, and how
a handler ends, is up to the environment.
-/

namespace SqlTide.Sensors

inductive SensorDeclaration
  | event (declaration : EventSensorDeclaration)
  | polling (minimumInterval : ℤ)
  deriving DecidableEq, Repr

/-- `SensorRetryPolicy`; `__post_init__` rejects less than one attempt. -/
structure SensorRetryPolicy where
  maxAttempts : ℕ
  backoff : ℤ
  maxAttempts_pos : 0 < maxAttempts

inductive SensorOverrideStatus
  | running
  | stopped
  | declaredInCode
  deriving DecidableEq, Repr

inductive DefaultSensorStatus
  | running
  | stopped
  deriving DecidableEq, Repr

structure LoadedSensor where
  name : String
  declaration : SensorDeclaration
  identityFingerprint : String
  defaultStatus : DefaultSensorStatus
  retryPolicy : SensorRetryPolicy
  /-- The seconds as they are printed; the warehouse does not see them otherwise. -/
  timeoutSeconds : String

def LoadedSensor.kind (sensor : LoadedSensor) : SensorKind :=
  match sensor.declaration with
  | .event _ => .event
  | .polling _ => .polling

/-- `SensorRegistry`: a mapping from names, so no two sensors share one. -/
structure SensorRegistry where
  sensors : List LoadedSensor
  names_nodup : (sensors.map (·.name)).Nodup

def SensorRegistry.ordered (registry : SensorRegistry) : List LoadedSensor :=
  registry.sensors.insertionSort (·.name ≤ ·.name)

def effectiveSensorStatus (sensor : LoadedSensor)
    (overrides : String → Option SensorOverrideStatus) : SensorOverrideStatus :=
  match overrides sensor.name, sensor.defaultStatus with
  | some .running, _ => .running
  | some .stopped, _ => .stopped
  | _, .running => .running
  | _, .stopped => .stopped

/-- A dispatcher with its project. `uuid4Hex` lists the ids it draws, which never repeat. -/
structure SensorDispatcher where
  registry : SensorRegistry
  eventTarget : String
  target : String
  batchLimit : ℕ
  maximumEventAge : Option ℤ
  uuid4Hex : ℕ → String
  uuid4Hex_injective : Function.Injective uuid4Hex

/-- How the call of a handler ends. -/
inductive HandlerOutcome
  | returned
  | skipReason (reason : String)
  | pollingResult (cursor : Option String)
  | raised (typeName message : String)
  | timedOut
  deriving DecidableEq, Repr

structure SensorEvaluation where
  status : SensorTickStatus
  skipReason : Option String := none
  errorMessage : Option String := none
  cursor : Option String := none
  evaluated : status.isEvaluated = true := by rfl

/-- `evaluate_sensor_handler`: no failure escapes. -/
def evaluateSensorHandler (sensor : LoadedSensor) : HandlerOutcome → SensorEvaluation
  | .timedOut =>
    { status := .failed
      errorMessage := some
        ("Sensor '" ++ sensor.name ++ "' timed out after " ++ sensor.timeoutSeconds ++ " seconds") }
  | .raised typeName message =>
    { status := .failed, errorMessage := some (typeName ++ ": " ++ message) }
  | .skipReason reason => { status := .skipped, skipReason := some reason }
  | .pollingResult cursor => { status := .succeeded, cursor }
  | .returned => { status := .succeeded }

structure AdapterSensorCheckpointRecord where
  sensorName : String
  source : EventSource
  position : SensorStreamPosition
  deriving DecidableEq, Repr

/-- What the warehouse holds: the visible rows of both streams, the sensor tables and the time.
Rows of one stream have different ids. -/
structure SensorStore where
  observations : List Observation
  ids_once : IdsOnce observations
  checkpoints : List AdapterSensorCheckpointRecord
  ticks : List AdapterSensorTickRecord
  overrides : String → Option SensorOverrideStatus
  clock : ℤ
  uuidsDrawn : ℕ

namespace SensorStore

variable (store : SensorStore)

def readCheckpoint (sensorName : String) (source : EventSource) : Option SensorStreamPosition :=
  newest ((store.checkpoints.filter fun record =>
    record.sensorName = sensorName ∧ record.source = source).map (·.position))

def advanceCheckpoint (sensorName : String) (source : EventSource)
    (position : SensorStreamPosition) : SensorStore :=
  { store with checkpoints := store.checkpoints ++ [⟨sensorName, source, position⟩] }

def recordTick (tick : AdapterSensorTickRecord) : SensorStore :=
  { store with ticks := store.ticks ++ [tick] }

/-- A row with an id of its own becomes visible. -/
def observe (row : Observation) : SensorStore :=
  if h : ∀ row' ∈ store.observations,
      (row'.source, row'.position.resultId) ≠ (row.source, row.position.resultId) then
    { store with
      observations := store.observations ++ [row]
      ids_once := by
        rw [IdsOnce, List.map_append, List.nodup_append]
        refine ⟨store.ids_once, by simp, ?_⟩
        intro id hid id' hid'
        obtain ⟨row', hrow', rfl⟩ := List.mem_map.mp hid
        obtain rfl := List.mem_singleton.mp hid'
        exact h row' hrow' }
  else store

end SensorStore

/-- The local variables of `_dispatch_event_sensor`. The last two fields are kept for the proofs
only: the rows visible when the stream head was read, and the rows the pages returned. -/
structure Drain where
  sensor : LoadedSensor
  declaration : EventSensorDeclaration
  checkpoint : SensorStreamPosition
  streamHead : SensorStreamPosition
  currentPosition : SensorStreamPosition
  advancedPosition : Option SensorStreamPosition
  visibleAtStart : List Observation
  fetched : List Observation

/-- One page: the time read for it, `len(deliveries)`, the position of its last row, and the
rows that are still to be delivered. -/
structure Page where
  warehouseNow : Option ℤ
  size : ℕ
  last : SensorStreamPosition
  remaining : List Observation

/-- Inside the loop over the events of one row: the row and its events after the current one. -/
structure Delivery where
  drain : Drain
  page : Page
  row : Observation
  rest : List SensorEvent

/-- What a handler is evaluated for. -/
inductive Occasion
  | event (delivery : Delivery) (event : SensorEvent)
  | polling (sensor : LoadedSensor)

def Occasion.sensor : Occasion → LoadedSensor
  | .event delivery _ => delivery.drain.sensor
  | .polling sensor => sensor

/-- One tick that has been started. -/
structure Attempt where
  occasion : Occasion
  tickId : String
  attempt : ℕ
  startedAt : ℤ

def Attempt.sensor (attempt : Attempt) : LoadedSensor := attempt.occasion.sensor

inductive Phase
  | selecting
  | readCheckpoint (sensor : LoadedSensor) (declaration : EventSensorDeclaration)
  | readNewest (sensor : LoadedSensor) (declaration : EventSensorDeclaration)
  | writeInitial (sensor : LoadedSensor) (declaration : EventSensorDeclaration)
      (position : SensorStreamPosition)
  | readHead (sensor : LoadedSensor) (declaration : EventSensorDeclaration)
      (checkpoint : SensorStreamPosition)
  | readClock (drain : Drain)
  | readPage (drain : Drain) (warehouseNow : Option ℤ)
  | rows (drain : Drain) (page : Page)
  | events (delivery : Delivery)
  | readTicks (delivery : Delivery) (event : SensorEvent)
  | deadLetter (delivery : Delivery) (event : SensorEvent) (state : TickAttemptState)
  | startAttempt (delivery : Delivery) (event : SensorEvent) (attempt : ℕ)
  | poll (sensor : LoadedSensor) (minimumInterval : ℤ)
  | evaluate (attempt : Attempt)
  | record (attempt : Attempt) (evaluation : SensorEvaluation)
  | finish (drain : Drain) (leaseHeld : Bool)

/-- A pass: the sensors after the current one, the override statuses it has read, and the
position inside the current sensor. -/
structure Pass where
  remaining : List LoadedSensor
  overrides : String → Option SensorOverrideStatus
  phase : Phase

/-- `evaluations` lists, for the proofs, the sensor and event of every call of a handler. -/
structure SensorState where
  store : SensorStore
  pass : Option Pass
  evaluations : List (String × String)

/-- What the environment decides at a step of the pass. -/
structure Answer where
  leaseHeld : Bool
  outcome : HandlerOutcome

inductive DispatchEvent
  | observe (row : Observation)
  | elapse (milliseconds : ℕ)
  | override (sensorName : String) (status : SensorOverrideStatus)
  | dispatchOnce (leaseAcquired : Bool)
  | step (answer : Answer)
  | crash

section Steps

variable (dispatcher : SensorDispatcher)

def eventAgeLimit (declaration : EventSensorDeclaration) : Option ℤ :=
  declaration.maximumEventAge.or dispatcher.maximumEventAge

def eventIsExpired (declaration : EventSensorDeclaration) (event : SensorEvent)
    (warehouseNow : ℤ) : Bool :=
  match eventAgeLimit dispatcher declaration with
  | none => false
  | some maximumAge => timestampIsBefore (shiftTimestamp event.completedAt maximumAge) warehouseNow

/-- `_record_tick_row`, for the started and for the terminal row of an attempt. -/
def tickRow (attempt : Attempt) (status : SensorTickStatus) (completedAt : Option ℤ)
    (evaluation : Option SensorEvaluation) : AdapterSensorTickRecord :=
  let event := match attempt.occasion with
    | .event _ event => some event
    | .polling _ => none
  { tickId := attempt.tickId
    sensorName := attempt.sensor.name
    definitionFingerprint := attempt.sensor.identityFingerprint
    kind := attempt.sensor.kind
    eventId := event.map (·.id)
    eventKind := event.map (·.eventType)
    attempt := attempt.attempt
    status
    startedAt := attempt.startedAt
    completedAt
    errorMessage := evaluation.bind (·.errorMessage)
    skipReason := evaluation.bind (·.skipReason)
    cursor := evaluation.bind (·.cursor) }

/-- `_record_dead_letter`. -/
def deadLetterRow (sensor : LoadedSensor) (event : SensorEvent) (state : TickAttemptState)
    (tickId : String) (now : ℤ) : AdapterSensorTickRecord :=
  { tickId
    sensorName := sensor.name
    definitionFingerprint := sensor.identityFingerprint
    kind := sensor.kind
    eventId := some event.id
    eventKind := some event.eventType
    attempt := state.failedAttempts
    status := .deadLettered
    startedAt := now
    completedAt := some now
    errorMessage := state.lastErrorMessage
    skipReason := none
    cursor := none }

/-- `latest_polling_tick_start_query`, of `polling_tick_state`. -/
def lastStartedAt (ticks : List AdapterSensorTickRecord) (sensorName : String) : Option ℤ :=
  ((ticks.filter (·.sensorName = sensorName)).map (·.startedAt)).max?

namespace SensorState

variable (state : SensorState) (pass : Pass)

def goto (phase : Phase) : SensorState := { state with pass := some { pass with phase } }

/-- The state after a write, in which the pass goes on at `phase`. -/
def write (store : SensorStore) (phase : Phase) : SensorState :=
  { state with store, pass := some { pass with phase } }

/-- `dispatch_once` returns. -/
def finishPass : SensorState := { state with pass := none }

/-- An attempt begins: the id is drawn, the time read and the STARTED row written. -/
def start (occasion : Occasion) (attemptNumber : ℕ) : SensorState :=
  let attempt : Attempt :=
    { occasion
      tickId := dispatcher.uuid4Hex state.store.uuidsDrawn
      attempt := attemptNumber
      startedAt := state.store.clock }
  state.write pass
    { state.store.recordTick (tickRow attempt .started none none) with
      uuidsDrawn := state.store.uuidsDrawn + 1 }
    (.evaluate attempt)

/-- The next sensor of the loop of `dispatch_once`. -/
def selectSensor (answer : Answer) : SensorState :=
  match pass.remaining with
  | [] => state.finishPass
  | sensor :: remaining =>
    let pass := { pass with remaining }
    if effectiveSensorStatus sensor pass.overrides = .running then
      match sensor.declaration with
      | .event declaration => state.goto pass (.readCheckpoint sensor declaration)
      | .polling minimumInterval =>
        if answer.leaseHeld then state.goto pass (.poll sensor minimumInterval)
        else state.finishPass
    else state.goto pass .selecting

/-- One page of the rows after the current position, up to the stream head. -/
def readPage (drain : Drain) (warehouseNow : Option ℤ) : SensorState :=
  let deliveries := (observationsAfter state.store.observations drain.declaration.source
    dispatcher.target drain.currentPosition dispatcher.batchLimit).filter
      (·.position ≤ drain.streamHead)
  match deliveries.getLast? with
  | none => state.goto pass (.finish drain true)
  | some last =>
    state.goto pass (.rows { drain with fetched := drain.fetched ++ deliveries }
      { warehouseNow, size := deliveries.length, last := last.position, remaining := deliveries })

/-- The loop over the rows of a page, and what follows it. -/
def deliverRow (drain : Drain) (page : Page) : SensorState :=
  match page.remaining with
  | row :: remaining =>
    state.goto pass (.events
      { drain, page := { page with remaining }, row, rest := row.events dispatcher.eventTarget })
  | [] =>
    let drain := { drain with currentPosition := page.last }
    if page.size < dispatcher.batchLimit then state.goto pass (.finish drain true)
    else state.goto pass (.readClock drain)

/-- The loop over the events of a row. -/
def deliverEvent (delivery : Delivery) (answer : Answer) : SensorState :=
  match delivery.rest with
  | [] =>
    state.goto pass (.rows
      { delivery.drain with advancedPosition := some delivery.row.position } delivery.page)
  | event :: rest =>
    let delivery := { delivery with rest }
    if matchesSensor delivery.drain.declaration event = false then
      state.goto pass (.events delivery)
    else if delivery.page.warehouseNow.any
        (eventIsExpired dispatcher delivery.drain.declaration event) then
      state.goto pass (.events delivery)
    else if answer.leaseHeld then state.goto pass (.readTicks delivery event)
    else state.goto pass (.finish delivery.drain false)

/-- `_deliver_event` up to its first write. Nobody else writes ticks, so the clock is read
together with them. -/
def readTicks (delivery : Delivery) (event : SensorEvent) : SensorState :=
  let sensor := delivery.drain.sensor
  let attempts := tickAttemptState state.store.ticks sensor.name event.id
  if attempts.resolved then state.goto pass (.events delivery)
  else if sensor.retryPolicy.maxAttempts ≤ attempts.failedAttempts then
    state.goto pass (.deadLetter delivery event attempts)
  else if 0 < attempts.failedAttempts ∧ attempts.lastFailedAt.any (fun lastFailedAt =>
      timestampIsBefore state.store.clock
        (shiftTimestamp lastFailedAt sensor.retryPolicy.backoff)) then
    state.goto pass (.finish delivery.drain true)
  else state.goto pass (.startAttempt delivery event (attempts.failedAttempts + 1))

def writeDeadLetter (delivery : Delivery) (event : SensorEvent) (attempts : TickAttemptState) :
    SensorState :=
  state.write pass
    { state.store.recordTick (deadLetterRow delivery.drain.sensor event attempts
        (dispatcher.uuid4Hex state.store.uuidsDrawn) state.store.clock) with
      uuidsDrawn := state.store.uuidsDrawn + 1 }
    (.events delivery)

/-- `_dispatch_polling_sensor` up to its STARTED row. -/
def poll (sensor : LoadedSensor) (minimumInterval : ℤ) : SensorState :=
  if (lastStartedAt state.store.ticks sensor.name).any (fun lastStartedAt =>
      timestampIsBefore state.store.clock (shiftTimestamp lastStartedAt minimumInterval)) then
    state.goto pass .selecting
  else state.start dispatcher pass (.polling sensor) 1

/-- The handler runs. -/
def evaluate (attempt : Attempt) (answer : Answer) : SensorState :=
  let evaluations := match attempt.occasion with
    | .event _ event => state.evaluations ++ [(attempt.sensor.name, event.id)]
    | .polling _ => state.evaluations
  { state with evaluations }.goto pass
    (.record attempt (evaluateSensorHandler attempt.sensor answer.outcome))

/-- The terminal row of an attempt; a failed event blocks the stream. -/
def record (attempt : Attempt) (evaluation : SensorEvaluation) : SensorState :=
  state.write pass
    (state.store.recordTick
      (tickRow attempt evaluation.status (some state.store.clock) (some evaluation)))
    (match attempt.occasion with
    | .polling _ => .selecting
    | .event delivery _ =>
      if evaluation.status = .failed then .finish delivery.drain true else .events delivery)

/-- `_dispatch_event_sensor` returns, after it has advanced the checkpoint. -/
def finishDrain (drain : Drain) (leaseHeld : Bool) : SensorState :=
  let store := match drain.advancedPosition with
    | none => state.store
    | some position =>
      state.store.advanceCheckpoint drain.sensor.name drain.declaration.source position
  if leaseHeld then state.write pass store .selecting
  else { state with store, pass := none }

/-- One step of the pass. -/
def stepPass (answer : Answer) : SensorState :=
  match pass.phase with
  | .selecting => state.selectSensor pass answer
  | .readCheckpoint sensor declaration =>
    match state.store.readCheckpoint sensor.name declaration.source with
    | none => state.goto pass (.readNewest sensor declaration)
    | some checkpoint => state.goto pass (.readHead sensor declaration checkpoint)
  | .readNewest sensor declaration =>
    state.goto pass (.writeInitial sensor declaration
      ((newestPosition state.store.observations declaration.source dispatcher.target).getD
        epochPosition))
  | .writeInitial sensor declaration position =>
    state.write pass (state.store.advanceCheckpoint sensor.name declaration.source position)
      .selecting
  | .readHead sensor declaration checkpoint =>
    match newestPosition state.store.observations declaration.source dispatcher.target with
    | none => state.goto pass .selecting
    | some streamHead =>
      state.goto pass (.readClock
        { sensor
          declaration
          checkpoint
          streamHead
          currentPosition := checkpoint
          advancedPosition := none
          visibleAtStart := state.store.observations
          fetched := [] })
  | .readClock drain =>
    state.goto pass (.readPage drain
      ((eventAgeLimit dispatcher drain.declaration).map fun _ => state.store.clock))
  | .readPage drain warehouseNow => state.readPage dispatcher pass drain warehouseNow
  | .rows drain page => state.deliverRow dispatcher pass drain page
  | .events delivery => state.deliverEvent dispatcher pass delivery answer
  | .readTicks delivery event => state.readTicks pass delivery event
  | .deadLetter delivery event attempts =>
    state.writeDeadLetter dispatcher pass delivery event attempts
  | .startAttempt delivery event attempt =>
    state.start dispatcher pass (.event delivery event) attempt
  | .poll sensor minimumInterval => state.poll dispatcher pass sensor minimumInterval
  | .evaluate attempt => state.evaluate pass attempt answer
  | .record attempt evaluation => state.record pass attempt evaluation
  | .finish drain leaseHeld => state.finishDrain pass drain leaseHeld

end SensorState

/-- One event of a run. Only one pass is under way at a time. -/
def nextDispatch (state : SensorState) : DispatchEvent → SensorState
  | .observe row => { state with store := state.store.observe row }
  | .elapse milliseconds =>
    { state with store := { state.store with clock := state.store.clock + milliseconds } }
  | .override sensorName status =>
    { state with
      store := { state.store with
        overrides := Function.update state.store.overrides sensorName (some status) } }
  | .dispatchOnce leaseAcquired =>
    match state.pass with
    | some _ => state
    | none =>
      if leaseAcquired then
        { state with
          pass := some ⟨dispatcher.registry.ordered, state.store.overrides, .selecting⟩ }
      else state
  | .step answer =>
    match state.pass with
    | none => state
    | some pass => state.stepPass dispatcher pass answer
  | .crash => state.finishPass

end Steps

/-- Sensors that have never been dispatched, over streams that may have rows already. -/
def SensorState.fresh (observations : List Observation) (h : IdsOnce observations) (clock : ℤ) :
    SensorState where
  store :=
    { observations
      ids_once := h
      checkpoints := []
      ticks := []
      overrides := fun _ => none
      clock
      uuidsDrawn := 0 }
  pass := none
  evaluations := []

/-- A sensor of failed audits that tries each event once. -/
def auditAlert : LoadedSensor where
  name := "audit_alert"
  declaration := .event
    { eventType := .auditCompleted, targets := none, triggers := none, maximumEventAge := none }
  identityFingerprint := "f1"
  defaultStatus := .running
  retryPolicy := ⟨1, 0, Nat.one_pos⟩
  timeoutSeconds := "60"

/-- Pages of two rows, for the target `prod`. -/
def auditDispatcher : SensorDispatcher where
  registry := ⟨[auditAlert], by decide⟩
  eventTarget := "prod"
  target := "prod"
  batchLimit := 2
  maximumEventAge := none
  uuid4Hex := fun k => String.ofList (List.replicate k 'a')
  uuid4Hex_injective := by
    intro i j h
    simpa using congrArg String.length h

def auditResult (resultId : String) (completedAt : ℤ) : Observation :=
  .nodeResult
    { resultId
      nodeKind := .audit
      targetIdentity := "prod"
      trigger := "manual"
      status := .failed
      completedAt }

/-- A pass of so many steps, in which the lease is kept and every handler ends in this way. -/
def passSteps (count : ℕ) (outcome : HandlerOutcome) : List DispatchEvent :=
  List.replicate count (.step ⟨true, outcome⟩)

end SqlTide.Sensors
