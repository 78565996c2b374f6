import SqlTide.Foundations.Runs

/-!
# The build child of the development server

`BuildProcessManager` starts one build at a time, signals it and reads its output. A step is one
section under the lock, one signal or one return of a wait; between any two steps the other threads
go on and children exit. What the manager holds is stamped with the invocation whose thread wrote
it.
-/

namespace SqlTide.DevServer

inductive CancellationStatus
  | cancelling
  | cancelled
  | cancellationFailed
  deriving DecidableEq, Repr

inductive SignalKind
  | interrupt
  | terminate
  | kill
  deriving DecidableEq, Repr

/-- A signal that is issued for an invocation, and the child that gets it. -/
structure Signal where
  kind : SignalKind
  invocationId : ℕ
  process : ℕ
  deriving DecidableEq, Repr

/-- A value with the invocation of the thread that wrote it. -/
structure Written (α : Type) where
  value : α
  writer : ℕ
  deriving DecidableEq, Repr

/-- A child is named by the invocation that it is started for. -/
inductive Child
  | absent
  | running
  | exited (code : ℤ)
  deriving DecidableEq, Repr

/-- The event of a line on standard output. -/
inductive BuildEvent
  | runStarted (invocationId : String)
  | statementStarted (queryId : Option String)
  | statementCompleted
  | other
  deriving DecidableEq, Repr

/-- `AdapterQueryCancellation`. -/
structure QueryCancellation where
  supported : Bool
  queryFound : Bool
  terminationConfirmed : Bool
  detail : Option String
  deriving DecidableEq, Repr

/-- What a cancellation is for. -/
structure CancellationTarget where
  invocationId : ℕ
  process : ℕ
  queryId : Option String
  deriving DecidableEq, Repr

/-- What came of the cancellation of the active query. -/
structure WarehouseAttempt where
  cancellation : Option QueryCancellation
  error : Option String
  deriving DecidableEq, Repr

/-- A call of a server thread, by the sections that it has behind it. -/
inductive CallPhase
  | idle
  | requested (target : CancellationTarget)
  | signalled (target : CancellationTarget)
  | stored (target : CancellationTarget)
  | killing (invocationId process : ℕ)
  | killed
  | returned
  deriving DecidableEq, Repr

/-- `_complete_cancellation`, by what it waits for. -/
inductive ThreadPhase
  | absent
  | querying (target : CancellationTarget)
  | waiting (target : CancellationTarget) (attempt : WarehouseAttempt)
  | terminating (target : CancellationTarget) (attempt : WarehouseAttempt)
  | outlasted (target : CancellationTarget) (attempt : WarehouseAttempt)
  | exitSeen (target : CancellationTarget) (attempt : WarehouseAttempt) (code : ℤ)
  | reporting (target : CancellationTarget)
  | closing
  | finished
  deriving DecidableEq, Repr

def ThreadPhase.isAlive : ThreadPhase → Bool
  | .absent => false
  | .finished => false
  | _ => true

/-- The manager, its children and the threads; a cancellation thread is named by its call. -/
structure State where
  nextInvocationId : ℕ
  child : ℕ → Child
  process : Option ℕ
  statementCount : ℕ
  invocationId : Option ℕ
  exitCode : Option (Written ℤ)
  currentInvocationId : Option String
  cancellingInvocationId : Option ℕ
  forceAvailable : Bool
  activeQueryId : Option String
  cancellationQueryId : Option String
  cancellationStatus : Option (Written CancellationStatus)
  cancellationError : Option String
  cancellationThread : Option ℕ
  reads : ℕ → Bool
  call : ℕ → CallPhase
  thread : ℕ → ThreadPhase
  signals : List Signal

/-- How the launch of a child ends: it runs, it fails with an `OSError`, or with another error. -/
inductive Launch
  | spawned
  | refused
  | failed
  deriving DecidableEq, Repr

inductive Event
  | start (launch : Launch)
  | exit (process : ℕ) (code : ℤ)
  | readLine (process : ℕ) (event : BuildEvent)
  | readExit (process : ℕ)
  | cancel (call invocationId : ℕ)
  | sendInterrupt (call : ℕ)
  | storeThread (call : ℕ)
  | startThread (call : ℕ)
  | kill (call invocationId : ℕ)
  | sendKill (call : ℕ)
  | finishKill (call : ℕ)
  | cancelQuery (call : ℕ) (answer : Option (Except String QueryCancellation))
  | seeExit (call : ℕ)
  | terminate (call : ℕ)
  | outlast (call : ℕ)
  | complete (call : ℕ)
  | report (call : ℕ) (error : Option String)
  | close (call : ℕ)

namespace State

variable (s : State)

def initial : State where
  nextInvocationId := 0
  child _ := .absent
  process := none
  statementCount := 0
  invocationId := none
  exitCode := none
  currentInvocationId := none
  cancellingInvocationId := none
  forceAvailable := false
  activeQueryId := none
  cancellationQueryId := none
  cancellationStatus := none
  cancellationError := none
  cancellationThread := none
  reads _ := false
  call _ := .idle
  thread _ := .absent
  signals := []

/-- `self._process is not None and self._process.poll() is None`. -/
def processRuns : Bool := s.process.any fun process => s.child process = .running

/-- `_cancellation_thread is not None and _cancellation_thread.is_alive()`. -/
def cancellationRuns : Bool := s.cancellationThread.any fun call => (s.thread call).isAlive

/-- `_owned_process_locked`; without a process it raises `BuildInProgressError`. -/
def ownedProcess (invocationId : ℕ) : Option ℕ :=
  s.process.filter fun process => s.invocationId = some invocationId ∧ s.child process = .running

/-- `process is self._process and self._invocation_id == invocation_id`. -/
def isCurrent (process invocationId : ℕ) : Bool :=
  s.process = some process ∧ s.invocationId = some invocationId

def setCall (call : ℕ) (phase : CallPhase) : State :=
  { s with call := Function.update s.call call phase }

def setThread (call : ℕ) (phase : ThreadPhase) : State :=
  { s with thread := Function.update s.thread call phase }

def signal (kind : SignalKind) (invocationId process : ℕ) : State :=
  { s with signals := s.signals ++ [⟨kind, invocationId, process⟩] }

/-- What `start` clears before it launches the child. -/
def launching : State :=
  { s with
    nextInvocationId := s.nextInvocationId + 1
    statementCount := 0
    invocationId := some s.nextInvocationId
    currentInvocationId := none
    cancellingInvocationId := none
    forceAvailable := false
    activeQueryId := none
    cancellationQueryId := none
    cancellationStatus := none
    cancellationError := none
    exitCode := none }

/-- `start`; while a build or its cancellation goes on it raises `BuildInProgressError`. -/
def start (launch : Launch) : State :=
  if s.cancellationRuns ∨ s.processRuns then s
  else
    match launch with
    | .spawned =>
      { s.launching with
        process := some s.nextInvocationId
        child := Function.update s.child s.nextInvocationId .running
        reads := Function.update s.reads s.nextInvocationId true }
    | .refused => { s.launching with invocationId := none }
    | .failed => s.launching

/-- The first section of `cancel`. -/
def cancel (call invocationId : ℕ) : State :=
  if s.cancellingInvocationId = some invocationId then s.setCall call .returned
  else
    match s.ownedProcess invocationId with
    | none => s.setCall call .returned
    | some process =>
      { s.setCall call (.requested ⟨invocationId, process, s.activeQueryId⟩) with
        cancellingInvocationId := some invocationId
        cancellationStatus := some ⟨.cancelling, invocationId⟩
        cancellationError := none
        cancellationQueryId := s.activeQueryId }

/-- The section of `kill` that finds the process. -/
def kill (call invocationId : ℕ) : State :=
  match s.ownedProcess invocationId with
  | none => s.setCall call .returned
  | some process => s.setCall call (.killing invocationId process)

/-- An event in `_consume_stdout`. -/
def readEvent : BuildEvent → State
  | .runStarted invocationId => { s with currentInvocationId := some invocationId }
  | .statementStarted queryId => { s with activeQueryId := queryId }
  | .statementCompleted =>
    { s with statementCount := s.statementCount + 1, activeQueryId := none }
  | .other => s

/-- The last section of `_consume_stdout`. -/
def readExit (process : ℕ) (code : ℤ) : State :=
  if s.isCurrent process process then
    { s with exitCode := some ⟨code, process⟩, forceAvailable := false }
  else s

/-- The query of a target could not be cancelled, or its end is not confirmed. -/
def warehouseFailed (target : CancellationTarget) (attempt : WarehouseAttempt) : Bool :=
  target.queryId.isSome ∧ (attempt.error.isSome ∨
    attempt.cancellation.all fun cancellation =>
      ¬ cancellation.supported ∨ ¬ cancellation.terminationConfirmed)

def attemptOf (target : CancellationTarget) :
    Option (Except String QueryCancellation) → WarehouseAttempt
  | answer =>
    if target.queryId = none then ⟨none, none⟩
    else
      match answer with
      | none => ⟨none, some "Warehouse query cancellation is unavailable"⟩
      | some (.ok cancellation) => ⟨some cancellation, none⟩
      | some (.error message) => ⟨none, some message⟩

/-- The section of `_complete_cancellation` when the child outlasts its termination. -/
def outlast (call : ℕ) (target : CancellationTarget) (attempt : WarehouseAttempt) : State :=
  if s.isCurrent target.process target.invocationId then
    { s.setThread call (.outlasted target attempt) with
      forceAvailable := true
      cancellationStatus := some ⟨if warehouseFailed target attempt then .cancellationFailed
        else .cancelling, target.invocationId⟩
      cancellationError := attempt.error }
  else s.setThread call .finished

/-- The error that is shown at the end. -/
def cancellationErrorOf (target : CancellationTarget) (attempt : WarehouseAttempt) :
    Option String :=
  match attempt.error, attempt.cancellation with
  | none, some cancellation =>
    if warehouseFailed target attempt then
      match cancellation.detail with
      | some detail =>
        if detail = "" then some "Warehouse query cancellation was not confirmed" else some detail
      | none => some "Warehouse query cancellation was not confirmed"
    else none
  | error, _ => error

/-- The last section of `_complete_cancellation` before its outcome is reported. -/
def complete (call : ℕ) (target : CancellationTarget) (attempt : WarehouseAttempt) (code : ℤ) :
    State :=
  if s.isCurrent target.process target.invocationId then
    { s.setThread call (.reporting target) with
      forceAvailable := false
      cancellationStatus := some ⟨if warehouseFailed target attempt then .cancellationFailed
        else .cancelled, target.invocationId⟩
      cancellationError := cancellationErrorOf target attempt
      exitCode := some ⟨code, target.invocationId⟩ }
  else s.setThread call .finished

/-- The outcome was reported. When that failed, the failure is recorded without a look at what is
current. -/
def report (call : ℕ) (target : CancellationTarget) : Option String → State
  | none => s.setThread call .closing
  | some error =>
    { s.setThread call .closing with
      cancellationStatus := some ⟨.cancellationFailed, target.invocationId⟩
      cancellationError := some ("Cancellation outcome persistence failed: " ++ error) }

end State

open State

/-- A step; where a thread does not stand at it, nothing happens. -/
def next (s : State) : Event → State
  | .start launch => s.start launch
  | .exit process code =>
    if s.child process = .running then
      { s with child := Function.update s.child process (.exited code) }
    else s
  | .readLine process event =>
    if s.reads process ∧ s.isCurrent process process then s.readEvent event else s
  | .readExit process =>
    match s.reads process, s.child process with
    | true, .exited code =>
      { s.readExit process code with reads := Function.update s.reads process false }
    | _, _ => s
  | .cancel call invocationId =>
    if s.call call = .idle then s.cancel call invocationId else s
  | .sendInterrupt call =>
    match s.call call with
    | .requested target =>
      (s.setCall call (.signalled target)).signal .interrupt target.invocationId target.process
    | _ => s
  | .storeThread call =>
    match s.call call with
    | .signalled target =>
      { s.setCall call (.stored target) with cancellationThread := some call }
    | _ => s
  | .startThread call =>
    match s.call call with
    | .stored target => (s.setCall call .returned).setThread call (.querying target)
    | _ => s
  | .kill call invocationId => if s.call call = .idle then s.kill call invocationId else s
  | .sendKill call =>
    match s.call call with
    | .killing invocationId process => (s.setCall call .killed).signal .kill invocationId process
    | _ => s
  | .finishKill call =>
    match s.call call with
    | .killed => { s.setCall call .returned with forceAvailable := false }
    | _ => s
  | .cancelQuery call answer =>
    match s.thread call with
    | .querying target => s.setThread call (.waiting target (attemptOf target answer))
    | _ => s
  | .seeExit call =>
    match s.thread call with
    | .waiting target attempt | .terminating target attempt | .outlasted target attempt =>
      match s.child target.process with
      | .exited code => s.setThread call (.exitSeen target attempt code)
      | _ => s
    | _ => s
  | .terminate call =>
    match s.thread call with
    | .waiting target attempt =>
      (s.setThread call (.terminating target attempt)).signal .terminate target.invocationId
        target.process
    | _ => s
  | .outlast call =>
    match s.thread call with
    | .terminating target attempt => s.outlast call target attempt
    | _ => s
  | .complete call =>
    match s.thread call with
    | .exitSeen target attempt code => s.complete call target attempt code
    | _ => s
  | .report call error =>
    match s.thread call with
    | .reporting target => s.report call target error
    | _ => s
  | .close call =>
    match s.thread call with
    | .closing =>
      { s.setThread call .finished with
        cancellationThread :=
          if s.cancellationThread = some call then none else s.cancellationThread }
    | _ => s

end SqlTide.DevServer
