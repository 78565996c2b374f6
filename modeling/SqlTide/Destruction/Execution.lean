import SqlTide.Destruction.Drift

/-!
# Execution of a destruction plan

`execute_destruction` as a function of its environment. The environment says of every
external effect whether it succeeds or what it raises; the result is what the call
returns or raises, with the log of its effects in the order in which they happened.
An interrupted `DROP` may or may not have been executed by the server.
-/

namespace SqlTide.Destruction

open Foundations

/-- An `Exception`; a keyboard interrupt is none. -/
inductive PyException
  | adapterError (message : String)
  | destructionError (error : DestructionError)
  | other (message : String)
  deriving DecidableEq, Repr

inductive Raised
  | exception (x : PyException)
  | keyboardInterrupt (message : String)
  deriving DecidableEq, Repr

def PyException.message : PyException → String
  | .adapterError message => message
  | .destructionError error => error.message
  | .other message => message

def Raised.message : Raised → String
  | .exception x => x.message
  | .keyboardInterrupt message => message

inductive DropOutcome
  | done
  | failed (x : PyException)
  | interrupted (message : String) (executed : Bool)
  deriving DecidableEq, Repr

/-- `persist_terminal_observations` returns nothing, returns a warning, or raises. -/
inductive PersistOutcome
  | persisted
  | warned (warning : String)
  | raised (e : Raised)
  deriving DecidableEq, Repr

/-- What the external effects of one execution do; statements go by their sequence. -/
structure Environment where
  initializeObservability : Option Raised
  runStarted : Option Raised
  workflowPrepared : Option Raised
  acquireTargetMutationLock : Option Raised
  replan : Except Raised DestructionPlan
  consume : (planId : String) → (challengeResponses : List String) → (actor : String) →
    Except Raised DestructionPlan
  statementStarted : ℕ → Option Raised
  executeWorkflowMutation : ℕ → DropOutcome
  statementCompleted : ℕ → Option Raised
  relations : Finset String
  recoveryCatalog : Option Raised
  residualCatalog : Option Raised
  runCompleted : Option Raised
  persistTerminal : PersistOutcome
  persistTerminalFallback : PersistOutcome
  sameConnection : Bool
  releaseTargetMutationLock : Option Raised

inductive RunOutcome
  | succeeded
  | failed
  deriving DecidableEq, Repr

inductive ResidualCatalogStatus
  | notMutated
  | observed
  | unavailable
  deriving DecidableEq, Repr

/-- What is recorded about the end of a run. -/
structure TerminalRecord where
  outcome : RunOutcome
  exitCode : ℕ
  completedSequences : List ℕ
  pendingSequences : List ℕ
  remaining : Option (List String)
  residualCatalogStatus : ResidualCatalogStatus
  residualCatalogError : Option String
  failurePhase : Option String
  errorMessage : Option String
  runCompletedError : Option String
  deriving DecidableEq, Repr

inductive Event
  | runStarted
  | workflowPersisted
  | lockAcquired
  | driftVerified
  | planConsumed (planId actor : String)
  | dropIssued (sequence : ℕ) (outcome : DropOutcome)
  | reconciled
  | recorded (record : TerminalRecord)
  | releaseAttempted
  deriving DecidableEq, Repr

structure DestructionExecutionResult where
  outcome : RunOutcome
  completedStatementSequences : List ℕ
  pendingStatementSequences : List ℕ
  remainingRelationNames : Option (List String)
  errorMessage : Option String
  residualCatalogStatus : ResidualCatalogStatus
  residualCatalogError : Option String
  deriving DecidableEq, Repr

/-- A statement and the relation that it drops. -/
abbrev Step := WarehouseStatement × DestructionRelationEvidence

variable (env : Environment)

/-- How the loop ends: with all results, with an error that carries the results so far,
or with an exception that it does not handle. -/
inductive WorkflowEnd
  | completed (results : List String)
  | failed (stepId : String) (results : List String) (cause : Raised)
  | escaped (e : Raised)
  deriving DecidableEq, Repr

structure WorkflowRun where
  ending : WorkflowEnd
  log : List Event
  relations : Finset String
  deriving DecidableEq

def WorkflowRun.prepend (event : Event) (run : WorkflowRun) : WorkflowRun :=
  { run with log := event :: run.log }

/-- `execute_warehouse_workflow`; a result is known by its step. -/
def executeWarehouseWorkflow : List Step → List String → Finset String → WorkflowRun
  | [], results, relations => ⟨.completed results, [], relations⟩
  | (statement, relation) :: steps, results, relations =>
    match env.statementStarted statement.sequence with
    | some e => ⟨.failed statement.stepId results e, [], relations⟩
    | none =>
      let issued := Event.dropIssued statement.sequence
        (env.executeWorkflowMutation statement.sequence)
      match env.executeWorkflowMutation statement.sequence with
      | .interrupted message executed =>
        ⟨.failed statement.stepId results (.keyboardInterrupt message), [issued],
          if executed then relations.erase relation.name else relations⟩
      | .failed (.adapterError message) =>
        match env.statementCompleted statement.sequence with
        | some (.exception x) => ⟨.failed statement.stepId results (.exception x), [issued],
          relations⟩
        | some (.keyboardInterrupt message) =>
          ⟨.escaped (.keyboardInterrupt message), [issued], relations⟩
        | none =>
          if statement.continueOnError then
            (executeWarehouseWorkflow steps (results ++ [statement.stepId])
              relations).prepend issued
          else
            ⟨.failed statement.stepId results (.exception (.adapterError message)), [issued],
              relations⟩
      | .failed x => ⟨.escaped (.exception x), [issued], relations⟩
      | .done =>
        match env.statementCompleted statement.sequence with
        | some e =>
          ⟨.failed statement.stepId (results ++ [statement.stepId]) e, [issued],
            relations.erase relation.name⟩
        | none =>
          (executeWarehouseWorkflow steps (results ++ [statement.stepId])
            (relations.erase relation.name)).prepend issued

/-- The planned relations that the catalog still has. -/
def remainingRelations (plan : DestructionPlan) (relations : Finset String) : List String :=
  ((plan.relations.map (·.name)).filter (· ∈ relations)).insertionSort (· ≤ ·)

/-- `int(step_id.removeprefix("destroy_relation_"))`. -/
def stepNumber (stepId : String) : Option ℕ :=
  if relationStepPrefix.toList.isPrefixOf stepId.toList then
    some (Nat.ofDigitChars 10 (stepId.toList.drop relationStepPrefix.toList.length) 0)
  else none

def misalignedDrop : Raised :=
  .exception (.destructionError (.consistency
    "Interrupted DROP did not align with the confirmed workflow prefix"))

/-- `_recover_interrupted_drop`: a drop whose relation is gone counts as completed. -/
def recoverInterruptedDrop (plan : DestructionPlan) (steps : List Step) (results : List String)
    (failedStepId : String) (relations : Finset String) :
    Except Raised (List String) × List Event :=
  match stepNumber failedStepId with
  | none => (.ok results, [])
  | some number =>
    match steps[number - 1]? with
    | none => (.error (.exception (.other "tuple index out of range")), [])
    | some (_, relation) =>
      match env.recoveryCatalog with
      | some e => (.error e, [])
      | none =>
        if relation.name ∈ remainingRelations plan relations then (.ok results, [.reconciled])
        else
          match steps.findIdx? fun step => step.1.stepId = failedStepId with
          | none => (.error (.exception (.other "")), [.reconciled])
          | some index =>
            if results.length ≠ index then (.error misalignedDrop, [.reconciled])
            else (.ok (results ++ [failedStepId]), [.reconciled])

/-- `_verify_completed_prefix`. -/
def completedPrefix (steps : List Step) (results : List String) : Bool :=
  decide (results = (steps.take results.length).map (·.1.stepId))

def notAPrefix : Raised :=
  .exception (.destructionError (.consistency
    "Destruction execution results are not an exact workflow prefix"))

/-- A warning, if the terminal record was not persisted; an interrupt passes. -/
def persistWarning : PersistOutcome → Except Raised (Option String)
  | .persisted => .ok none
  | .warned warning => .ok (some warning)
  | .raised (.exception x) => .ok (some ("Terminal observations were not recorded: " ++ x.message))
  | .raised (.keyboardInterrupt message) => .error (.keyboardInterrupt message)

/-- The end of a run as it is known before it is recorded. -/
structure Ending where
  results : List String
  remaining : Option (List String)
  residualCatalogStatus : ResidualCatalogStatus
  residualCatalogError : Option String
  errorMessage : Option String
  failurePhase : Option String

/-- The record of an ending, before it is known whether it can be written. -/
def terminalRecord (steps : List Step) (ending : Ending) : TerminalRecord :=
  let completed := (steps.take ending.results.length).map (·.1.sequence)
  let pending := (steps.drop ending.results.length).map (·.1.sequence)
  let succeeded := ending.errorMessage = none ∧ ending.residualCatalogStatus = .observed ∧
    ending.remaining = some [] ∧ pending = []
  { outcome := if succeeded then .succeeded else .failed
    exitCode := if succeeded then 0 else 1
    completedSequences := completed
    pendingSequences := pending
    remaining := ending.remaining
    residualCatalogStatus := ending.residualCatalogStatus
    residualCatalogError := ending.residualCatalogError
    failurePhase := ending.failurePhase
    errorMessage := ending.errorMessage
    runCompletedError := none }

/-- The record after `run_completed` could not be written. -/
def TerminalRecord.withRunCompletedError (record : TerminalRecord) (message : String) :
    TerminalRecord :=
  { record with
    outcome := .failed
    exitCode := 1
    runCompletedError := some message
    errorMessage := match record.errorMessage with
      | none => some ("Run completion evidence failed: " ++ message)
      | some first => some (first ++ "; run completion evidence failed: " ++ message)
    failurePhase := match record.failurePhase with
      | none => some "run_completed"
      | some phase => some phase }

def TerminalRecord.result (record : TerminalRecord) : DestructionExecutionResult where
  outcome := record.outcome
  completedStatementSequences := record.completedSequences
  pendingStatementSequences := record.pendingSequences
  remainingRelationNames := record.remaining
  errorMessage := record.errorMessage
  residualCatalogStatus := record.residualCatalogStatus
  residualCatalogError := record.residualCatalogError

/-- The terminal write, with the other connection as a fallback. -/
def writeTerminal (record : TerminalRecord) :
    Except Raised DestructionExecutionResult × List Event :=
  match persistWarning env.persistTerminal with
  | .error e => (.error e, [.recorded record])
  | .ok none => (.ok record.result, [.recorded record])
  | .ok (some primary) =>
    if env.sameConnection then
      (.error (.exception (.destructionError (.recording primary))), [.recorded record])
    else
      match persistWarning env.persistTerminalFallback with
      | .error e => (.error e, [.recorded record, .recorded record])
      | .ok none => (.ok record.result, [.recorded record, .recorded record])
      | .ok (some fallback) =>
        (.error (.exception (.destructionError
          (.recording (primary ++ "; fallback failed: " ++ fallback)))),
          [.recorded record, .recorded record])

def recordTerminal (steps : List Step) (ending : Ending) :
    Except Raised DestructionExecutionResult × List Event :=
  if !completedPrefix steps ending.results then (.error notAPrefix, [])
  else
    let record := terminalRecord steps ending
    match env.runCompleted with
    | some (.keyboardInterrupt message) => (.error (.keyboardInterrupt message), [.recorded record])
    | some (.exception x) =>
      let written := writeTerminal env (record.withRunCompletedError x.message)
      (written.1, .recorded record :: written.2)
    | none =>
      let written := writeTerminal env record
      (written.1, .recorded record :: written.2)

/-- What is known after the loop and the reconciliation. -/
structure Attempt where
  results : List String
  errorMessage : Option String
  failurePhase : Option String
  interruption : Option Raised

/-- The outcome of the loop as the handlers of `_execute_recorded_plan` see it. -/
def attemptOf (plan : DestructionPlan) (steps : List Step) (run : WorkflowRun) :
    Except Raised Attempt × List Event :=
  match run.ending with
  | .completed results => (.ok ⟨results, none, none, none⟩, run.log)
  | .escaped (.keyboardInterrupt message) => (.error (.keyboardInterrupt message), run.log)
  | .escaped (.exception x) =>
    (.ok ⟨[], some x.message, some "warehouse_execution", none⟩, run.log)
  | .failed stepId results cause =>
    if !completedPrefix steps results then (.error notAPrefix, run.log)
    else
      match cause with
      | .exception x =>
        (.ok ⟨results, some x.message, some "warehouse_execution", none⟩, run.log)
      | .keyboardInterrupt message =>
        let recovered := recoverInterruptedDrop env plan steps results stepId run.relations
        match recovered.1 with
        | .ok results =>
          (.ok ⟨results, some message, some "warehouse_execution", some cause⟩,
            run.log ++ recovered.2)
        | .error (.exception x) =>
          (.ok ⟨results, some (message ++ "; interrupted DROP reconciliation failed: " ++
            x.message),
            some "drop_reconciliation", some cause⟩, run.log ++ recovered.2)
        | .error (.keyboardInterrupt message) =>
          (.error (.keyboardInterrupt message), run.log ++ recovered.2)

/-- The residual catalog completes what is known about the end of the run. -/
def residualEnding (plan : DestructionPlan) (relations : Finset String) (attempt : Attempt) :
    Except Raised Ending :=
  match env.residualCatalog with
  | some (.keyboardInterrupt message) => .error (.keyboardInterrupt message)
  | some (.exception x) => .ok
      { results := attempt.results
        remaining := none
        residualCatalogStatus := .unavailable
        residualCatalogError := some x.message
        errorMessage := match attempt.errorMessage with
          | none => some ("Residual catalog inspection failed: " ++ x.message)
          | some first => some (first ++ "; residual catalog inspection failed: " ++ x.message)
        failurePhase := some "residual_catalog" }
  | none =>
    let remaining := remainingRelations plan relations
    let stays := attempt.errorMessage = none ∧ remaining ≠ []
    .ok
      { results := attempt.results
        remaining := some remaining
        residualCatalogStatus := .observed
        residualCatalogError := none
        errorMessage :=
          if stays then some "Planned relations remain after destructive workflow completion"
          else attempt.errorMessage
        failurePhase := if stays then some "residual_catalog" else attempt.failurePhase }

def executeRecordedPlan (plan : DestructionPlan) (steps : List Step) :
    Except Raised DestructionExecutionResult × List Event :=
  let run := executeWarehouseWorkflow env steps [] env.relations
  let attempted := attemptOf env plan steps run
  match attempted.1 with
  | .error e => (.error e, attempted.2)
  | .ok attempt =>
    if !completedPrefix steps attempt.results then (.error notAPrefix, attempted.2)
    else
      match residualEnding env plan run.relations attempt with
      | .error e => (.error e, attempted.2)
      | .ok ending =>
        let recorded := recordTerminal env steps ending
        match recorded.1, attempt.interruption with
        | .ok _, some interruption => (.error interruption, attempted.2 ++ recorded.2)
        | result, _ => (result, attempted.2 ++ recorded.2)

/-- Who confirmed which plan, and how. -/
structure Confirmation where
  frozenPlan : DestructionPlan
  actorId : String
  challengeResponses : List String

/-- A stage before the first statement that did not succeed. -/
structure Aborted where
  cause : Raised
  failurePhase : String
  locked : Bool
  recordable : Bool

def verifyReplan (frozenPlan : DestructionPlan) (replan : Except Raised DestructionPlan) :
    Except Raised DestructionPlan :=
  let verified := fun outcome =>
    match verifyDestructionDrift frozenPlan outcome with
    | .ok plan => .ok plan
    | .error e => .error (.exception (.destructionError e))
  match replan with
  | .ok plan => verified (.ok plan)
  | .error (.exception (.destructionError e)) => verified (.error e)
  | .error e => .error e

/-- The stages that need the lock: the replan, and the consumption of the plan. -/
def authorise (c : Confirmation) : Except Aborted Unit × List Event :=
  match verifyReplan c.frozenPlan env.replan with
  | .error e => (.error ⟨e, "locked_replan", true, true⟩, [])
  | .ok _ =>
    match env.consume c.frozenPlan.planId c.challengeResponses c.actorId with
    | .error e => (.error ⟨e, "plan_consumption", true, true⟩, [.driftVerified])
    | .ok consumed =>
      if consumed.planFingerprint ≠ c.frozenPlan.planFingerprint then
        (.error ⟨.exception (.destructionError (.consistency
            "Consumed destruction plan differs from the locked replan")),
          "plan_consumption", true, true⟩,
          [.driftVerified, .planConsumed c.frozenPlan.planId c.actorId])
      else (.ok (), [.driftVerified, .planConsumed c.frozenPlan.planId c.actorId])

/-- The stages from `run_started` to the lock. An empty workflow is not persisted. -/
def announce (steps : List Step) : Except Aborted Unit × List Event :=
  match env.runStarted with
  | some e => (.error ⟨e, "pre_execution", false, true⟩, [])
  | none =>
    let prepared := if steps = [] then none else env.workflowPrepared
    match prepared with
    | some e => (.error ⟨e, "workflow_prepared", false, true⟩, [.runStarted])
    | none =>
      let persisted := if steps = [] then [] else [Event.workflowPersisted]
      match env.acquireTargetMutationLock with
      | some e => (.error ⟨e, "target_lock", false, true⟩, .runStarted :: persisted)
      | none => (.ok (), .runStarted :: persisted ++ [.lockAcquired])

/-- Steps of the workflow with the relations that they drop. -/
def workflowSteps (plan : DestructionPlan) : Except DestructionError (List Step) :=
  match assembleDestructionWorkflow plan, orderedRelations plan with
  | .ok statements, .ok ordered => .ok (statements.zip ordered)
  | .error e, _ => .error e
  | _, .error e => .error e

/-- The handler of a failure before the first statement: it is recorded, if it can be. -/
def recordAborted (plan : DestructionPlan) (steps : List Step) (aborted : Aborted) :
    Except Raised DestructionExecutionResult × List Event :=
  if !aborted.recordable || steps = [] then (.error aborted.cause, [])
  else
    let recorded := recordTerminal env steps
      { results := []
        remaining := some ((plan.relations.filter (·.doesExist)).map (·.name))
        residualCatalogStatus := .notMutated
        residualCatalogError := none
        errorMessage := some aborted.cause.message
        failurePhase := some aborted.failurePhase }
    match recorded.1 with
    | .ok _ => (.error aborted.cause, recorded.2)
    | .error e => (.error e, recorded.2)

/-- The `finally` block: a lock that was acquired is released. -/
def releaseLock (result : Except Raised DestructionExecutionResult) :
    Except Raised DestructionExecutionResult × List Event :=
  match env.releaseTargetMutationLock with
  | none => (result, [.releaseAttempted])
  | some e => (.error e, [.releaseAttempted])

def executeDestruction (c : Confirmation) :
    Except Raised DestructionExecutionResult × List Event :=
  match env.initializeObservability with
  | some e => (.error e, [])
  | none =>
    match workflowSteps c.frozenPlan with
    | .error e => (.error (.exception (.destructionError e)), [])
    | .ok steps =>
      match announce env steps with
      | (.error aborted, log) =>
        let recorded := recordAborted env c.frozenPlan steps aborted
        (recorded.1, log ++ recorded.2)
      | (.ok _, log) =>
        let body :=
          match authorise env c with
          | (.error aborted, authorised) =>
            let recorded := recordAborted env c.frozenPlan steps aborted
            (recorded.1, authorised ++ recorded.2)
          | (.ok _, authorised) =>
            let executed := executeRecordedPlan env c.frozenPlan steps
            (executed.1, authorised ++ executed.2)
        let released := releaseLock env body.1
        (released.1, log ++ body.2 ++ released.2)

end SqlTide.Destruction
