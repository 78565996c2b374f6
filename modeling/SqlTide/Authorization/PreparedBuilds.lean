import SqlTide.Authorization.ProjectAuthorizer
import SqlTide.Compiler.ProjectGraph

/-!
# Authorized builds and their scopes

The server authorizes one preparation of a build and gives its scopes to the child process, which
prepares the build again. The child goes on only if the scopes are the same.
-/

namespace SqlTide.Authorization

open Foundations Compiler

/-- The scopes of a direct preparation's plan. -/
structure DirectWorkflowPreparation where
  executionScope : List LogicalResourceKey
  prerequisiteScope : List LogicalResourceKey
  deriving DecidableEq, Repr

/-- The scopes of a virtual preparation's preview. -/
structure VirtualWorkflowPreparation where
  runExecutionScope : List LogicalResourceKey
  runContextScope : List LogicalResourceKey
  deriving DecidableEq, Repr

inductive WorkflowPreparation
  | direct (preparation : DirectWorkflowPreparation)
  | virtual (preparation : VirtualWorkflowPreparation)
  | mixed (virtual : VirtualWorkflowPreparation) (direct : DirectWorkflowPreparation)
  deriving DecidableEq, Repr

namespace WorkflowPreparation

def direct? : WorkflowPreparation → Option DirectWorkflowPreparation
  | .direct preparation => some preparation
  | .virtual _ => none
  | .mixed _ preparation => some preparation

def virtual? : WorkflowPreparation → Option VirtualWorkflowPreparation
  | .direct _ => none
  | .virtual preparation => some preparation
  | .mixed preparation _ => some preparation

/-- What the direct part writes. -/
def directWrites (preparation : WorkflowPreparation) : List LogicalResourceKey :=
  (preparation.direct?.map (·.executionScope)).getD []

/-- What the virtual part writes. -/
def virtualWrites (preparation : WorkflowPreparation) : List LogicalResourceKey :=
  (preparation.virtual?.map (·.runExecutionScope)).getD []

def directReads (preparation : WorkflowPreparation) : List LogicalResourceKey :=
  (preparation.direct?.map (·.prerequisiteScope)).getD []

def virtualReads (preparation : WorkflowPreparation) : List LogicalResourceKey :=
  (preparation.virtual?.map (·.runContextScope)).getD []

def writes (preparation : WorkflowPreparation) : List LogicalResourceKey :=
  preparation.directWrites ++ preparation.virtualWrites

def reads (preparation : WorkflowPreparation) : List LogicalResourceKey :=
  preparation.directReads ++ preparation.virtualReads

end WorkflowPreparation

/-- What the authorization of a build reads of an analysis. -/
structure CompileAnalysis where
  compiledProject : CompiledProject
  accessPolicy : Option CompiledAccessPolicy

/-- One of the texts of `logical_resource_identities`. -/
def logicalResourceIdentity (key : LogicalResourceKey) : String :=
  key.resourceType.value ++ ":" ++ key.name

def logicalResourceIdentities (keys : List LogicalResourceKey) : List String :=
  keys.map logicalResourceIdentity

/-- `_prepared_logical_scopes`: the writes and the reads. -/
def preparedLogicalScopes (preparation : WorkflowPreparation) : Finset String × Finset String :=
  ((logicalResourceIdentities preparation.writes).toFinset,
    (logicalResourceIdentities preparation.reads).toFinset)

def pipelineByKey (analysis : CompileAnalysis) (key : LogicalResourceKey) : Option String :=
  (analysis.compiledProject.models.reverse.find? fun model => model.key = key).map (·.pipelineName)

def preparedPipelineScope (preparation : WorkflowPreparation) (analysis : CompileAnalysis) :
    Finset String :=
  ((preparation.writes ++ preparation.reads).filterMap fun key =>
    (pipelineByKey analysis key).map fun pipeline =>
      logicalResourceIdentity key ++ "=" ++ pipeline).toFinset

/-- The expected scopes of the environment. Each is what its text is in JSON, if it is JSON. -/
structure BuildEnvironment where
  expectedWriteScope : Option (Option Json)
  expectedReadScope : Option (Option Json)
  expectedPipelineScope : Option (Option Json)

inductive BuildScopeError
  | invalid
  | incomplete
  | changed
  deriving DecidableEq, Repr

/-- The texts of the `CliUserError`. -/
def BuildScopeError.message : BuildScopeError → String
  | .invalid => "Authorized build scope is invalid; re-plan the build"
  | .incomplete => "Authorized build scope is incomplete; re-plan the build"
  | .changed => "Build scope changed after server authorization; review and start the plan again"

/-- A JSON value that is a string. -/
def stringItem? : Json → Option String
  | .str item => some item
  | _ => none

def scopeFromJson : Option Json → Except BuildScopeError (Finset String)
  | some (.arr items) =>
    if items.all fun item => (stringItem? item).isSome then
      .ok (items.filterMap stringItem?).toFinset
    else .error .invalid
  | _ => .error .invalid

def validateExpected (environment : BuildEnvironment) (preparation : WorkflowPreparation)
    (analysis : CompileAnalysis) : Except BuildScopeError Unit :=
  match environment.expectedWriteScope, environment.expectedReadScope,
      environment.expectedPipelineScope with
  | none, none, none => .ok ()
  | some rawWrites, some rawReads, some rawPipelines => do
    let expectedWrites ← scopeFromJson rawWrites
    let expectedReads ← scopeFromJson rawReads
    let expectedPipelines ← scopeFromJson rawPipelines
    if (preparedLogicalScopes preparation).1 = expectedWrites ∧
        (preparedLogicalScopes preparation).2 = expectedReads ∧
        preparedPipelineScope preparation analysis = expectedPipelines then .ok ()
    else .error .changed
  | _, _, _ => .error .incomplete

/-- A scope in the child's environment. -/
def scopeToJson (scope : Finset String) : Json := .arr ((sortedNames scope).map .str)

/-- The environment of the child of an authorized build. -/
def childEnvironment (preparation : WorkflowPreparation) (analysis : CompileAnalysis) :
    BuildEnvironment where
  expectedWriteScope := some (some (scopeToJson (preparedLogicalScopes preparation).1))
  expectedReadScope := some (some (scopeToJson (preparedLogicalScopes preparation).2))
  expectedPipelineScope := some (some (scopeToJson (preparedPipelineScope preparation analysis)))

structure HTTPException where
  statusCode : ℕ
  detail : List (String × Json)
  deriving DecidableEq, Repr

structure OperationAuthorizationContext where
  store : ControlStore
  projectDir : String
  selectedTarget : Option String

section
variable (analysis : CompileAnalysis) (authenticated : Auth.AuthenticatedRequest)
  (context : OperationAuthorizationContext)

/-- The project of an operation: the analysis names it, or its directory does. -/
def operationProject : String :=
  analysis.compiledProject.projectName.getD context.projectDir

def operationTarget : Option String :=
  analysis.compiledProject.targetName.or context.selectedTarget

def operationRequest (permission : Permission) (grantScope : Option GrantScope)
    (affectedPipelines : List String) : AuthorizationRequest where
  authenticated := authenticated
  permission := permission
  projectName := operationProject analysis context
  targetName := operationTarget analysis context
  grantScope := grantScope
  affectedPipelines := affectedPipelines
  policy := analysis.accessPolicy

def requireOperationAuthorization (permission : Permission) (grantScope : Option GrantScope)
    (affectedPipelines : List String) (denialMessage : String) :
    Except HTTPException AuthorizationDecision :=
  let decision := decide context.store
    (operationRequest analysis authenticated context permission grantScope affectedPipelines)
  if !decision.allowed then
    .error ⟨403, [
      ("message", .str denialMessage),
      ("permission", .str decision.permission.value),
      ("reason", .str decision.reason.value),
      ("project", .str decision.projectName),
      ("target", (decision.targetName.map .str).getD .null),
      ("missingPipelines", .arr (decision.missingPipelines.map .str))]⟩
  else .ok decision

def pipelineByModel (name : String) : Option String :=
  (analysis.compiledProject.models.reverse.find? fun model => model.key.name = name).map
    (·.pipelineName)

def pipelinesForModelNames (modelNames : List String) : Option (List String) :=
  if modelNames.any fun name => (pipelineByModel analysis name).isNone then none
  else some (sortedNames (modelNames.filterMap (pipelineByModel analysis)).toFinset)

/-- The names of the models among the keys. -/
def modelNames (keys : List LogicalResourceKey) : List String :=
  (keys.filter fun key => key.resourceType = .model).map (·.name)

def pipelinesForKeys (keys : List LogicalResourceKey) : Except HTTPException (List String) :=
  match pipelinesForModelNames analysis (modelNames keys) with
  | some pipelines => .ok pipelines
  | none => .error ⟨403, [
      ("message", .str "Cannot resolve pipeline ownership for the resolved build scope"),
      ("reason", .str "unresolved_scope")]⟩

def directPipelines (preparation : WorkflowPreparation) : Except HTTPException (List String) :=
  match preparation.direct? with
  | none => .ok []
  | some direct => pipelinesForKeys analysis direct.executionScope

def virtualPipelines (preparation : WorkflowPreparation) : Except HTTPException (List String) :=
  match preparation.virtual? with
  | none => .ok []
  | some virtual => pipelinesForKeys analysis virtual.runExecutionScope

def requireScoped (permission : Permission) (pipelines : List String) (message : String) :
    Except HTTPException Unit :=
  (requireOperationAuthorization analysis authenticated context permission none pipelines
    message).map
    fun _ => ()

/-- A scope is required where it has pipelines. -/
def requireScopedIfAny (permission : Permission) (pipelines : List String) (message : String) :
    Except HTTPException Unit :=
  if pipelines ≠ [] then requireScoped analysis authenticated context permission pipelines message
  else .ok ()

def requirePreparedBuildAuthorization (preparation : WorkflowPreparation) :
    Except HTTPException Unit := do
  let directPipelines ← directPipelines analysis preparation
  let virtualPipelines ← virtualPipelines analysis preparation
  if directPipelines = [] ∧ virtualPipelines = [] then
    requireScoped analysis authenticated context .buildDirectRun []
      "Build authorization requires a resolvable pipeline scope"
  else do
    requireScopedIfAny analysis authenticated context .buildDirectRun directPipelines
      "Direct build writes are not permitted"
    requireScopedIfAny analysis authenticated context .deploymentCreate virtualPipelines
      "Creating staged deployments is not permitted"

end

end SqlTide.Authorization
