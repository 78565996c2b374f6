import SqlTide.Direct.BuildWorkflow

/-!
# Execution of a direct build

`execute_direct_build_workflow` as a function of its environment: what the emitter, the rendering
and the connection do at each statement. A statement that raises may have taken effect.
-/

namespace SqlTide.Direct

open Foundations Replay

inductive PyError
  | adapterError (message : String)
  | keyError (key : String)
  | keyboardInterrupt
  | exception (message : String)
  | baseException (message : String)
  deriving DecidableEq, Repr

/-- `except (Exception, KeyboardInterrupt)`. -/
def PyError.isExceptionOrInterrupt : PyError → Bool
  | .baseException _ => false
  | _ => true

/-- `except Exception`. -/
def PyError.isException : PyError → Bool
  | .baseException _ | .keyboardInterrupt => false
  | _ => true

/-- What a failure of the capture or of its rendering raises. -/
def raisedBy : CaptureError → PyError
  | .adapterResult message => .adapterError message
  | .adapterReplay message => .adapterError message
  | .directBuild message => .exception message
  | .valueError text => .exception ("invalid literal for int() with base 10: '" ++ text ++ "'")

/-- An exception that leaves a part of the build, alone or as the cause of a
`WorkflowExecutionError`. -/
structure StepError where
  cause : PyError
  wrapped : Bool
  deriving DecidableEq, Repr

/-- `except (AdapterError, KeyError, KeyboardInterrupt, WorkflowExecutionError)`. -/
def StepError.caught (error : StepError) : Bool :=
  error.wrapped ||
    match error.cause with
    | .adapterError _ | .keyError _ | .keyboardInterrupt => true
    | .exception _ | .baseException _ => false

/-- `except (AdapterError, KeyboardInterrupt, WorkflowExecutionError)`. -/
def StepError.caughtInRecovery (error : StepError) : Bool :=
  error.wrapped ||
    match error.cause with
    | .adapterError _ | .keyboardInterrupt => true
    | .keyError _ | .exception _ | .baseException _ => false

inductive ExecutionOutcome
  | done (rows : List CaptureRow)
  | failed (error : PyError) (executed : Bool)

/-- What happens around one statement; only a replay is rendered and announced again. -/
structure StatementBehaviour where
  rendered : Option PyError := none
  workflowPrepared : Option PyError := none
  statementStarted : Option PyError := none
  execution : ExecutionOutcome := .done []
  statementCompleted : Option PyError := none

/-- Statements go by their sequence; the sequences of the attempted statements are distinct. -/
structure Environment where
  workflowPrepared : Option PyError := none
  behaviour : ℕ → StatementBehaviour

/-- How `execute_warehouse_workflow` ends for one statement, and whether the statement took
effect. -/
structure StatementRun where
  result : Except StepError (List CaptureRow)
  executed : Bool

/-- `execute_warehouse_workflow`. -/
def executeWarehouseStatement (behaviour : StatementBehaviour) (statement : WarehouseStatement) :
    StatementRun :=
  match behaviour.statementStarted with
  | some error => ⟨.error ⟨error, error.isExceptionOrInterrupt⟩, false⟩
  | none =>
    match behaviour.execution with
    | .failed (.adapterError message) executed =>
      match behaviour.statementCompleted with
      | some error => ⟨.error ⟨error, error.isException⟩, executed⟩
      | none =>
        if statement.continueOnError then ⟨.ok [], executed⟩
        else ⟨.error ⟨.adapterError message, true⟩, executed⟩
    | .failed .keyboardInterrupt executed => ⟨.error ⟨.keyboardInterrupt, true⟩, executed⟩
    | .failed error executed => ⟨.error ⟨error, false⟩, executed⟩
    | .done rows =>
      match behaviour.statementCompleted with
      | some error => ⟨.error ⟨error, error.isExceptionOrInterrupt⟩, true⟩
      | none => ⟨.ok rows, true⟩

/-- The relations after a statement that may have taken effect. -/
def relationsAfter (statement : WarehouseStatement) (executed : Bool) (relations : Finset String) :
    Finset String :=
  if executed then statement.sql.apply relations else relations

section

variable (env : Environment) (workflow : DirectBuildWorkflow)

structure Progress where
  attempted : List WarehouseStatement
  completed : List WarehouseStatement
  captures : List (String × DirectReplayCapture)
  relations : Finset String

/-- The model that a dictionary of the runtime replays gives for a step; the last entry stays. -/
def runtimeByStep (stepOf : DirectRuntimeReplay → String) (stepId : String) :
    Option DirectRuntimeReplay :=
  workflow.runtimeReplays.reverse.find? fun runtime => stepOf runtime = stepId

def raising {α : Type} : Except CaptureError α → Except PyError α
  | .error error => .error (raisedBy error)
  | .ok a => .ok a

def failing : Option PyError → Except PyError Unit
  | some error => .error error
  | none => .ok ()

/-- `captures_by_model[model_name]`. -/
def captureOf (captures : List (String × DirectReplayCapture)) (modelName : String) :
    Except PyError DirectReplayCapture :=
  match captures.lookup modelName with
  | none => .error (.keyError modelName)
  | some capture => .ok capture

def realizeDirectReplayStatement (behaviour : StatementBehaviour) (template : WarehouseStatement)
    (capture : DirectReplayCapture) : Except PyError WarehouseStatement := do
  let boundaries ← raising (capturedBoundaries capture)
  let lowerBounds ← raising (capturedLowerBounds capture)
  let _ ← failing behaviour.rendered
  return { template with sql := .replay capture.logicalModelName boundaries lowerBounds }

/-- The statement to attempt in the place of a template statement. -/
def preparedStatement (progress : Progress) (template : WarehouseStatement) :
    Except PyError WarehouseStatement :=
  match runtimeByStep workflow replayStepId template.stepId with
  | none => .ok template
  | some runtime => do
    let capture ← captureOf progress.captures runtime.modelName
    let statement ← realizeDirectReplayStatement (env.behaviour template.sequence) template capture
    let _ ← failing (env.behaviour template.sequence).workflowPrepared
    return statement

/-- What is kept of the result of a completed statement. -/
def keepCapture (progress : Progress) (statement : WarehouseStatement) (rows : List CaptureRow) :
    Progress × Option StepError :=
  match runtimeByStep workflow captureStepId statement.stepId with
  | none => (progress, none)
  | some runtime =>
    match decodeCapture runtime rows with
    | .error error => (progress, some ⟨raisedBy error, false⟩)
    | .ok capture =>
      ({ progress with captures := (capture.logicalModelName, capture) :: progress.captures }, none)

/-- The progress once a statement has been handed to the connection. -/
def Progress.attempt (progress : Progress) (statement : WarehouseStatement) (executed : Bool) :
    Progress :=
  { progress with
    attempted := progress.attempted ++ [statement]
    relations := relationsAfter statement executed progress.relations }

/-- The body of the loop. -/
def executeStep (progress : Progress) (template : WarehouseStatement) :
    Progress × Option StepError :=
  match preparedStatement env workflow progress template with
  | .error error => (progress, some ⟨error, false⟩)
  | .ok statement =>
    let run := executeWarehouseStatement (env.behaviour statement.sequence) statement
    let progress := progress.attempt statement run.executed
    match run.result with
    | .error error => (progress, some error)
    | .ok rows =>
      keepCapture workflow { progress with completed := progress.completed ++ [statement] }
        statement rows

/-- The loop, up to the first exception and the step it failed in. -/
def executeSteps : List WarehouseStatement → Progress → Progress × Option (String × StepError)
  | [], progress => (progress, none)
  | template :: rest, progress =>
    match executeStep env workflow progress template with
    | (progress, some error) => (progress, some (template.stepId, error))
    | (progress, none) => executeSteps rest progress

def pausedSourceStepPrefixes : List String := ["pause_source_", "clear_staged_source_"]

def pausesSource (stepId : String) : Bool :=
  pausedSourceStepPrefixes.any fun start => startsWith stepId start

/-- The statements of a recovery that have been attempted, and the exception that has left it. -/
structure Recovery where
  recovered : List WarehouseStatement
  relations : Finset String
  escaped : Option PyError

def activationStepId (recoveryStatement : WarehouseStatement) : String :=
  replaceFirst recoveryStatement.stepId "recover_" "activate_"

/-- The loop of `_recover_managed_sources`. -/
def recoverSources (completed : List String) (startSequence : ℕ) :
    List WarehouseStatement → List WarehouseStatement → Finset String → Recovery
  | [], recovered, relations => ⟨recovered, relations, none⟩
  | recoveryStatement :: rest, recovered, relations =>
    if activationStepId recoveryStatement ∈ completed then
      recoverSources completed startSequence rest recovered relations
    else
      let statement := { recoveryStatement with sequence := startSequence + recovered.length }
      let run := executeWarehouseStatement (env.behaviour statement.sequence) statement
      let relations := relationsAfter statement run.executed relations
      match run.result with
      | .ok _ => recoverSources completed startSequence rest (recovered ++ [statement]) relations
      | .error error =>
        if error.caughtInRecovery then
          recoverSources completed startSequence rest (recovered ++ [statement]) relations
        else ⟨recovered ++ [statement], relations, some error.cause⟩

def recoverManagedSources (progress : Progress) (failedStepId : String) : Recovery :=
  if pausesSource failedStepId || progress.completed.any fun s => pausesSource s.stepId then
    recoverSources env (progress.completed.map (·.stepId)) (progress.attempted.length + 1)
      workflow.sourceRecoveryStatements [] progress.relations
  else ⟨[], progress.relations, none⟩

/-- What leaves the call: a result, a `DirectWorkflowExecutionError` with its statements, or
another exception. -/
inductive DirectEnding
  | returned (statements : List WarehouseStatement)
  | failed (statements : List WarehouseStatement) (failedStepId : String) (cause : PyError)
  | escaped (error : PyError)

/-- A run, with the statements it has attempted and completed and the relations it leaves. -/
structure DirectRun where
  attempted : List WarehouseStatement
  completed : List WarehouseStatement
  relations : Finset String
  ending : DirectEnding

def workflowValidationError : PyError := .exception "Workflow statement sequences or phases"

def exactWorkflow (statements : List WarehouseStatement) :
    Except PyError (List WarehouseStatement) :=
  if validWorkflow statements then .ok statements else .error workflowValidationError

/-- The `except` clause around the body of the loop. -/
def handleFailure (progress : Progress) (failedStepId : String) (error : StepError) : DirectRun :=
  let recovery := recoverManagedSources env workflow progress failedStepId
  let attempted := progress.attempted ++ recovery.recovered
  { attempted := attempted
    completed := progress.completed
    relations := recovery.relations
    ending :=
      match recovery.escaped, exactWorkflow attempted with
      | some error, _ => .escaped error
      | none, .error error => .escaped error
      | none, .ok statements => .failed statements failedStepId error.cause }

/-- How the call ends once the loop is over. -/
def finishRun : Progress × Option (String × StepError) → DirectRun
  | (progress, none) =>
    { attempted := progress.attempted
      completed := progress.completed
      relations := progress.relations
      ending :=
        match exactWorkflow progress.attempted with
        | .error error => .escaped error
        | .ok statements => .returned statements }
  | (progress, some (failedStepId, error)) =>
    if error.caught then handleFailure env workflow progress failedStepId error
    else
      { attempted := progress.attempted
        completed := progress.completed
        relations := progress.relations
        ending := .escaped error.cause }

def executeDirectBuildWorkflow (relations : Finset String) : DirectRun :=
  match env.workflowPrepared with
  | some error =>
    { attempted := [], completed := [], relations := relations, ending := .escaped error }
  | none =>
    finishRun env workflow (executeSteps env workflow workflow.statements ⟨[], [], [], relations⟩)

end

end SqlTide.Direct
