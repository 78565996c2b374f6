import SqlTide.Foundations.OpenOperations
import SqlTide.Foundations.Sorting
import SqlTide.Observability.RunEventSink

/-!
# The run query

The status and the progress of a run are derived from its event rows, and from its terminal row
where it has one. The rows read are the start of the run and a bounded number of the newest ones.
-/

namespace SqlTide.DevServer

open Foundations Observability

def runEventWindowSize : ℕ := 400

def runUnresponsiveAfterSeconds : ℤ := 45

inductive RunPresentationStatus where
  | succeeded
  | failed
  | cancelled
  | cancelling
  | cancellationFailed
  | running
  | unresponsive
  | presumedFailed
  deriving DecidableEq, Repr

def RunPresentationStatus.text : RunPresentationStatus → String
  | .succeeded => "succeeded"
  | .failed => "failed"
  | .cancelled => "cancelled"
  | .cancelling => "cancelling"
  | .cancellationFailed => "cancellation_failed"
  | .running => "running"
  | .unresponsive => "unresponsive"
  | .presumedFailed => "presumed_failed"

def terminalStatuses (outcome : String) : Option RunPresentationStatus :=
  if outcome = "succeeded" then some .succeeded
  else if outcome = "failed" then some .failed
  else if outcome = "cancelled" then some .cancelled
  else none

/-- Times are in milliseconds. -/
def deriveRunStatus (terminalOutcome completedEventOutcome : Option String)
    (lastSignalAt warehouseNow presumedFailedAfterSeconds : ℤ) : RunPresentationStatus :=
  match terminalOutcome.bind terminalStatuses with
  | some status => status
  | none =>
    match completedEventOutcome.bind terminalStatuses with
    | some status => status
    | none =>
      let signalAge := max (warehouseNow - lastSignalAt) 0
      if signalAge < runUnresponsiveAfterSeconds * 1000 then .running
      else if signalAge < presumedFailedAfterSeconds * 1000 then .unresponsive
      else .presumedFailed

/-- `row_number()` among the rows, newest first. -/
def recency (rows : List RunEvent) (row : RunEvent) : ℕ :=
  (rows.filter fun other => row.sequence ≤ other.sequence).length

def eventStream (recentLimit : Option ℕ) (rows : List RunEvent) : List RunEvent :=
  match recentLimit with
  | none => rows.insertionSort (·.sequence ≤ ·.sequence)
  | some limit =>
    (rows.filter fun row => recency rows row ≤ limit ∨ row.event = .runStarted).insertionSort
      (·.sequence ≤ ·.sequence)

def isCompletedOperation (e : RunEvent) : Bool :=
  e.event = .statementCompleted ∨ e.event = .auditCompleted

/-- A missing key counts zero. -/
def consumeCount {κ : Type} [DecidableEq κ] (counts : κ → ℕ) (key : κ) : (κ → ℕ) × Bool :=
  if counts key = 0 then (counts, false)
  else (Function.update counts key (counts key - 1), true)

/-- The events come newest first. -/
def activeStepLoop : List RunEvent → (ℤ → ℕ) → (String → ℕ) → Option String
  | [], _, _ => none
  | e :: older, completedStatements, completedAudits =>
    match e.event, e.payload.statementSequence, e.stepId with
    | .statementCompleted, some key, _ =>
      activeStepLoop older
        (Function.update completedStatements key (completedStatements key + 1)) completedAudits
    | .auditCompleted, _, some key =>
      activeStepLoop older completedStatements
        (Function.update completedAudits key (completedAudits key + 1))
    | .statementStarted, some key, stepId =>
      match consumeCount completedStatements key with
      | (remaining, true) => activeStepLoop older remaining completedAudits
      | (_, false) => stepId
    | .statementStarted, none, stepId => stepId
    | .auditStarted, _, some key =>
      match consumeCount completedAudits key with
      | (remaining, true) => activeStepLoop older completedStatements remaining
      | (_, false) => some key
    | .auditStarted, _, none => none
    | _, _, _ => activeStepLoop older completedStatements completedAudits

def activeStep (events : List RunEvent) : Option String :=
  activeStepLoop events.reverse (fun _ => 0) fun _ => 0

def activeStatementLoop : List RunEvent → (ℤ → ℕ) → Option RunEvent
  | [], _ => none
  | e :: older, completedStatements =>
    match e.event, e.payload.statementSequence with
    | .statementCompleted, some key =>
      activeStatementLoop older
        (Function.update completedStatements key (completedStatements key + 1))
    | .statementStarted, some key =>
      match consumeCount completedStatements key with
      | (remaining, true) => activeStatementLoop older remaining
      | (_, false) => some e
    | _, _ => activeStatementLoop older completedStatements

def activeStatement (events : List RunEvent) : Option RunEvent :=
  activeStatementLoop events.reverse fun _ => 0

structure AuditSummary where
  passed : ℕ
  warning : ℕ
  failed : ℕ
  error : ℕ
  total : ℕ
  deriving DecidableEq, Repr

def eventAuditSummary (events : List RunEvent) : Option AuditSummary :=
  let count status := events.countP fun e =>
    e.event = .auditCompleted ∧ e.payload.status = some status
  let total := count "passed" + count "warning" + count "failed" + count "error"
  if total = 0 then none
  else some ⟨count "passed", count "warning", count "failed", count "error", total⟩

structure RunProgress where
  completedOperationCount : Option ℕ
  totalStatements : Option ℤ
  currentStep : Option String
  auditSummary : Option AuditSummary
  deriving DecidableEq, Repr

def runProgress (events : List RunEvent) : RunProgress where
  completedOperationCount := events.countP isCompletedOperation
  totalStatements :=
    (events.find? fun e => e.event = .runStarted).bind fun e => e.payload.totalStatements
  currentStep := activeStep events
  auditSummary := eventAuditSummary events

/-- What is shown of one run. A terminal row has no count and no step of its own. -/
structure RunView where
  status : String
  lastSignalAt : ℤ
  progress : RunProgress
  deriving DecidableEq, Repr

/-- The invocation row of a finished run. -/
structure TerminalRun where
  outcome : String
  completedAt : ℤ
  auditSummary : Option AuditSummary
  deriving DecidableEq, Repr

def TerminalRun.view (run : TerminalRun) : RunView where
  status := run.outcome
  lastSignalAt := run.completedAt
  progress := ⟨none, none, none, run.auditSummary⟩

def cancellationStatus (events : List RunEvent) : Option RunPresentationStatus :=
  if events.any (·.event = .cancellationFailed) then some .cancellationFailed
  else if events.any (·.event = .cancellationCompleted) then some .cancelled
  else none

def lastRunCompleted (events : List RunEvent) : Option RunEvent :=
  events.reverse.find? (·.event = .runCompleted)

/-- The text of an absent outcome is `None`. -/
def completedOutcome (e : RunEvent) : String := e.payload.outcome.getD "None"

def assembleTerminalRun (run : TerminalRun) (events : List RunEvent) : RunView :=
  let narrated :=
    match events.getLast? with
    | some last =>
      if events.any (·.event ≠ .runStarted) then
        { run.view with
          lastSignalAt := last.emittedAt
          progress :=
            if run.auditSummary.isSome then
              { runProgress events with auditSummary := run.auditSummary }
            else runProgress events }
      else run.view
    | none => run.view
  match cancellationStatus events with
  | some status => { narrated with status := status.text }
  | none => narrated

def assembleActiveRun (events : List RunEvent) (last : RunEvent)
    (warehouseNow presumedFailedAfterSeconds : ℤ) : RunView where
  status :=
    ((cancellationStatus events).getD
      (deriveRunStatus none ((lastRunCompleted events).map completedOutcome) last.emittedAt
        warehouseNow presumedFailedAfterSeconds)).text
  lastSignalAt := last.emittedAt
  progress := runProgress events

/-- A run is listed where it has a terminal row or an event. -/
def assembleRun (terminal : Option TerminalRun) (events : List RunEvent)
    (warehouseNow presumedFailedAfterSeconds : ℤ) : Option RunView :=
  match terminal, events.getLast? with
  | some run, _ => some (assembleTerminalRun run events)
  | none, some last =>
    some (assembleActiveRun events last warehouseNow presumedFailedAfterSeconds)
  | none, none => none

/-- Statements and audits, each by its own key. -/
def stepMark (e : RunEvent) : Mark (ℤ ⊕ String) :=
  match e.event, e.payload.statementSequence, e.stepId with
  | .statementCompleted, some key, _ => .closes (.inl key)
  | .auditCompleted, _, some key => .closes (.inr key)
  | .statementStarted, some key, _ => .opens (.inl key)
  | .statementStarted, none, _ => .unkeyed
  | .auditStarted, _, some key => .opens (.inr key)
  | .auditStarted, _, none => .unkeyed
  | _, _, _ => .plain

def statementMark (e : RunEvent) : Mark ℤ :=
  match e.event, e.payload.statementSequence with
  | .statementCompleted, some key => .closes key
  | .statementStarted, some key => .opens key
  | _, _ => .plain

theorem activeStepLoop_eq (older : List RunEvent) (statements : ℤ → ℕ) (audits : String → ℕ) :
    activeStepLoop older statements audits =
      (scanOpen stepMark older (Sum.elim statements audits)).bind RunEvent.stepId := by
  induction older generalizing statements audits with
  | nil => rfl
  | cons e older ih =>
    rw [activeStepLoop, scanOpen, stepMark]
    cases hevent : e.event with
    | statementCompleted =>
      cases hkey : e.payload.statementSequence with
      | none => exact ih _ _
      | some key =>
        simp only [Sum.elim_inl, Sum.update_elim_inl]
        exact ih _ _
    | auditCompleted =>
      cases hstep : e.stepId with
      | none => exact ih _ _
      | some key =>
        simp only [Sum.elim_inr, Sum.update_elim_inr]
        exact ih _ _
    | statementStarted =>
      cases hkey : e.payload.statementSequence with
      | none => rfl
      | some key =>
        by_cases hcount : statements key = 0
        · simp only [consumeCount, hcount, Sum.elim_inl, if_true, Option.bind_some]
        · simp only [consumeCount, hcount, Sum.elim_inl, Sum.update_elim_inl, if_false]
          exact ih _ _
    | auditStarted =>
      cases hstep : e.stepId with
      | none => exact hstep.symm
      | some key =>
        by_cases hcount : audits key = 0
        · simp only [consumeCount, hcount, Sum.elim_inr, if_true, Option.bind_some, hstep]
        · simp only [consumeCount, hcount, Sum.elim_inr, Sum.update_elim_inr, if_false]
          exact ih _ _
    | _ => exact ih _ _

theorem activeStep_eq (events : List RunEvent) :
    activeStep events = (latestOpen stepMark events).bind RunEvent.stepId := by
  rw [activeStep, activeStepLoop_eq, latestOpen]
  congr 2
  funext key
  cases key <;> rfl

theorem activeStatementLoop_eq (older : List RunEvent) (statements : ℤ → ℕ) :
    activeStatementLoop older statements = scanOpen statementMark older statements := by
  induction older generalizing statements with
  | nil => rfl
  | cons e older ih =>
    rw [activeStatementLoop, scanOpen, statementMark]
    cases hevent : e.event with
    | statementCompleted =>
      cases hkey : e.payload.statementSequence with
      | none => simp [ih]
      | some key => simp [ih]
    | statementStarted =>
      cases hkey : e.payload.statementSequence with
      | none => simp [ih]
      | some key => by_cases hcount : statements key = 0 <;> simp [consumeCount, hcount, ih]
    | _ => simp [ih]

theorem activeStatement_eq (events : List RunEvent) :
    activeStatement events = latestOpen statementMark events :=
  activeStatementLoop_eq _ _

end SqlTide.DevServer
