import SqlTide.Destruction.Workflow
import SqlTide.Replay.CoverageCapture

/-!
# The workflow of a direct build

The statements of a direct build in their order: managed sources are prepared and their landing
views paused, models are torn down and realized, the replays run, and the landing views are
activated again before the audits. The statements that bring the sources back after a failure are
assembled with them.
-/

namespace SqlTide.Direct

open Destruction (WorkflowPhase StatementIntent)
open Foundations Replay

/-- What a statement says. -/
inductive StatementSql
  | ensureDatabase
  | createIfNotExists (relation : String)
  | create (relation : String)
  | dropIfExists (relation : String)
  | exchange (relation other : String)
  | wait
  | coverage (modelName : String)
  | replayTemplate (modelName : String)
  | replay (modelName : String) (boundaries : List AdapterReplayBoundary)
      (lowerBounds : List AdapterReplayLowerBound)
  | audit (name : String)

/-- The relations of the target database after a statement; an exchange swaps what two names stand
for, and keeps the names. -/
def StatementSql.apply : StatementSql → Finset String → Finset String
  | .createIfNotExists relation, relations => insert relation relations
  | .create relation, relations => insert relation relations
  | .dropIfExists relation, relations => relations.erase relation
  | _, relations => relations

structure WarehouseStatement where
  sequence : ℕ
  stepId : String
  phase : WorkflowPhase
  intent : StatementIntent
  sql : StatementSql
  continueOnError : Bool := false

/-- `WORKFLOW_PHASE_ORDER.index(phase)`. -/
def phaseIndex : WorkflowPhase → ℕ
  | .preflight => 0
  | .preparation => 1
  | .teardown => 2
  | .realization => 3
  | .stabilization => 4
  | .boundary => 5
  | .replay => 6
  | .audit => 7
  | .finalization => 8

/-- The check of `BuildWorkflow`: sequences count from one, and phases do not go back. -/
def validWorkflow (statements : List WarehouseStatement) : Bool :=
  statements.map (·.sequence) = List.range' 1 statements.length
    && (statements.map fun statement => phaseIndex statement.phase).Pairwise (· ≤ ·)

def stepSegment (value : String) : String :=
  String.ofList (value.toList.map fun c => if c.isAlphanum then c else '_')

def kafkaTableName (logicalName : String) : String := "kafka__" ++ logicalName

def rawTableName (logicalName : String) : String := "raw__" ++ logicalName

def landingMvName (logicalName : String) : String := "mv__" ++ logicalName

def stagedSourceNamePrefix : String := "_sqltide_next__"

/-- A managed source of the build; its name has been checked to be an identifier. -/
structure ManagedSource where
  name : String
  drifted : Bool
  identifier : ∀ c ∈ name.toList, c.isAlphanum ∨ c = '_'

def ManagedSource.stagedRelationName (source : ManagedSource) : String :=
  stagedSourceNamePrefix ++ kafkaTableName source.name

/-- What the statements are assembled from: the sources with the catalog they were planned for,
the relations to drop and to create, the replays and the audits. -/
structure DirectBuildRequest where
  sources : List ManagedSource
  sources_nodup : (sources.map (·.name)).Nodup
  catalog : Finset String
  executes : Bool
  stabilizes : Bool
  teardownOperations : List String
  realizations : List String
  runtimeReplays : List DirectRuntimeReplay
  audits : List String

section

variable (request : DirectBuildRequest)

/-- `_plan_source_recreations`, where nothing blocks. -/
def recreatedSources : List ManagedSource :=
  request.sources.filter fun source =>
    kafkaTableName source.name ∈ request.catalog && source.drifted

def preservedLandingViews : List String :=
  (request.sources.map fun source => landingMvName source.name).filter (· ∈ request.catalog)

/-- The landing views that are not there yet. -/
def landingViews : List String :=
  (request.sources.map fun source => landingMvName source.name).filter (· ∉ request.catalog)

def sourceRealizations : List String :=
  (request.sources.flatMap fun source =>
    [kafkaTableName source.name, rawTableName source.name]).filter
    (· ∉ request.catalog)

def pausedLandingViews : List String := preservedLandingViews request ++ landingViews request

end

def mutationStatements (rendered : List (String × StatementSql)) (phase : WorkflowPhase)
    (startSequence : ℕ) : List WarehouseStatement :=
  rendered.mapIdx fun i entry =>
    { sequence := startSequence + i
      stepId := entry.1
      phase := phase
      intent := .mutation
      sql := entry.2 }

def waitStatements (stepId : String) (phase : WorkflowPhase) (startSequence : ℕ) :
    List WarehouseStatement :=
  [{ sequence := startSequence, stepId := stepId, phase := phase, intent := .wait, sql := .wait }]

def pauseRendered (landingViewName : String) : String × StatementSql :=
  ("pause_source_" ++ stepSegment landingViewName, .dropIfExists landingViewName)

section

variable (request : DirectBuildRequest)

def earlyPausedLandingViews : List String :=
  ((recreatedSources request).map fun source => landingMvName source.name).filter
    (· ∈ preservedLandingViews request)

def sourceRecreationRendered : List (String × StatementSql) :=
  (recreatedSources request).flatMap fun source =>
    let segment := stepSegment (kafkaTableName source.name)
    (if landingMvName source.name ∈ earlyPausedLandingViews request then
        [pauseRendered (landingMvName source.name)]
      else []) ++
      [("clear_staged_source_" ++ segment, .dropIfExists source.stagedRelationName),
        ("stage_source_" ++ segment, .create source.stagedRelationName),
        ("swap_source_" ++ segment,
          .exchange (kafkaTableName source.name) source.stagedRelationName),
        ("retire_source_" ++ segment, .dropIfExists source.stagedRelationName)]

def passiveRendered : List (String × StatementSql) :=
  ("prepare_target_database", .ensureDatabase) ::
    (sourceRealizations request).map fun relation =>
      ("prepare_source_" ++ stepSegment relation, .createIfNotExists relation)

def bootstrapRendered : List (String × StatementSql) :=
  (landingViews request).map fun view =>
    ("bootstrap_source_" ++ stepSegment view, .createIfNotExists view)

def latePausedLandingViews : List String :=
  (pausedLandingViews request).filter (· ∉ earlyPausedLandingViews request)

def preparationStatements (startSequence : ℕ) : List WarehouseStatement :=
  let passive := mutationStatements (passiveRendered request) .preparation startSequence
  let recreated := mutationStatements (sourceRecreationRendered request) .preparation
    (startSequence + passive.length)
  let bootstrapStart := startSequence + passive.length + recreated.length
  let bootstrap := mutationStatements (bootstrapRendered request) .preparation bootstrapStart
  let bootstrapWait := if bootstrap ≠ [] ∧ request.stabilizes then
      waitStatements "wait_for_source_bootstrap" .preparation (bootstrapStart + bootstrap.length)
    else []
  let pause := mutationStatements ((latePausedLandingViews request).map pauseRendered) .preparation
    (bootstrapStart + bootstrap.length + bootstrapWait.length)
  passive ++ recreated ++ bootstrap ++ bootstrapWait ++ pause

def teardownStatements (startSequence : ℕ) : List WarehouseStatement :=
  mutationStatements (request.teardownOperations.map fun relation =>
    ("drop_" ++ stepSegment relation, .dropIfExists relation)) .teardown startSequence

def realizationStatements (startSequence : ℕ) : List WarehouseStatement :=
  mutationStatements (request.realizations.map fun relation =>
    ("realize_" ++ stepSegment relation, .create relation)) .realization startSequence

def stabilizationStatements (startSequence : ℕ) : List WarehouseStatement :=
  waitStatements "wait_for_live_stabilization" .stabilization startSequence

def captureStepId (runtime : DirectRuntimeReplay) : String :=
  "capture_replay_" ++ stepSegment runtime.modelName

def replayStepId (runtime : DirectRuntimeReplay) : String :=
  "replay_" ++ stepSegment runtime.modelName

def runtimeReplayStatements (startSequence : ℕ) : List WarehouseStatement :=
  (request.runtimeReplays.flatMap fun runtime =>
    [(captureStepId runtime, StatementIntent.query, StatementSql.coverage runtime.modelName),
      (replayStepId runtime, .mutation, .replayTemplate runtime.modelName)]).mapIdx
    fun i (stepId, intent, sql) =>
      { sequence := startSequence + i, stepId := stepId, phase := .replay, intent := intent,
        sql := sql }

def sourceActivationStatements (startSequence : ℕ) : List WarehouseStatement :=
  mutationStatements ((pausedLandingViews request).map fun view =>
    ("activate_source_" ++ stepSegment view, .createIfNotExists view)) .replay startSequence

def auditStatements (startSequence : ℕ) : List WarehouseStatement :=
  (request.audits.mapIdx fun i name =>
    let step := "audit_" ++ toString (i + 1) ++ "_" ++ stepSegment name
    [(step ++ "_count", name), (step ++ "_sample", name)]).flatten.mapIdx fun i (stepId, name) =>
      { sequence := startSequence + i, stepId := stepId, phase := .audit, intent := .query,
        sql := .audit name, continueOnError := true }

def assembleStatements : List WarehouseStatement :=
  if request.executes = false ∧ request.audits = [] then []
  else
    let preparation := preparationStatements request 1
    let teardown := teardownStatements request (preparation.length + 1)
    let realization := realizationStatements request (preparation.length + teardown.length + 1)
    let stabilization := stabilizationStatements
      (preparation.length + teardown.length + realization.length + 1)
    let priorCount :=
      preparation.length + teardown.length + realization.length + stabilization.length
    let replay := runtimeReplayStatements request (priorCount + 1)
    let activation := sourceActivationStatements request (priorCount + replay.length + 1)
    let audit := auditStatements request (priorCount + replay.length + activation.length + 1)
    preparation ++ teardown ++ realization ++ stabilization ++ replay ++ activation ++ audit

/-- `activation_by_step_id[step_id]`. -/
def activationByStepId (statements : List WarehouseStatement) (stepId : String) :
    Except String WarehouseStatement :=
  match statements.reverse.find? fun statement => statement.stepId = stepId with
  | none => .error stepId
  | some statement => .ok statement

/-- `_source_recovery_statements`; a missing activation is a `KeyError`. -/
def sourceRecoveryStatements (statements : List WarehouseStatement) :
    Except String (List WarehouseStatement) :=
  if statements = [] then .ok []
  else do
    let stagedRecovery := (recreatedSources request).mapIdx fun i source =>
      { sequence := i + 1
        stepId := "recover_staged_source_" ++ stepSegment (kafkaTableName source.name)
        phase := .finalization
        intent := .mutation
        sql := .dropIfExists source.stagedRelationName }
    let activations ← (pausedLandingViews request).mapM fun view =>
      activationByStepId statements ("activate_source_" ++ stepSegment view)
    return stagedRecovery ++ ((pausedLandingViews request).zip activations).mapIdx
      fun i (view, activation) =>
        { activation with
          sequence := stagedRecovery.length + 1 + i
          stepId := "recover_source_" ++ stepSegment view
          phase := .finalization }

structure DirectBuildWorkflow where
  statements : List WarehouseStatement
  runtimeReplays : List DirectRuntimeReplay
  sourceRecoveryStatements : List WarehouseStatement

def assembleDirectBuildWorkflow : Except String DirectBuildWorkflow := do
  let statements := assembleStatements request
  let recovery ← sourceRecoveryStatements request statements
  return {
    statements := statements
    runtimeReplays := request.runtimeReplays
    sourceRecoveryStatements := recovery }

end

end SqlTide.Direct
