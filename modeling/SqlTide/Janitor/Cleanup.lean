import SqlTide.Foundations.DecimalText
import SqlTide.Planner.PhysicalNames
import SqlTide.Promotion.Publishing

/-!
# Janitor

The janitor removes bindings that no model's latest publication uses, and drops the relations of
deployments that are neither live nor needed: not kept as rollback points and published, if ever,
before the retention window.
-/

namespace SqlTide.Janitor

open Destruction Foundations Planner Promotion

structure JanitorRequest where
  database : String
  retentionDays : ℕ
  minimumRollbackDeployments : ℕ

/-- The live stable views, and the names of the relations in each database. -/
structure Warehouse where
  activeBindings : List StableBinding
  catalogs : String → List String

structure JanitorPreviewCandidate where
  deploymentId : String
  createdAt : ℤ
  status : String
  logicalViewNames : List String
  physicalObjectNames : List String
  deletable : Bool
  reason : String
  deriving DecidableEq, Repr

def physicalMappingsAreSafe (deployment : AdapterDeploymentRecord) : Prop :=
  ∀ mapping ∈ deployment.preparedObjectMappings,
    isDeploymentPhysicalName mapping.physicalName = true ∧
      deploymentIdFromPhysicalName mapping.physicalName = some deployment.deploymentId ∧
      logicalNameFromPhysicalName mapping.physicalName = mapping.logicalKey.name

instance (deployment : AdapterDeploymentRecord) : Decidable (physicalMappingsAreSafe deployment) :=
  List.decidableBAll _ _

variable (inventory : AdapterDeploymentInventory)

/-- `_latest_publish_ranks`, and `published_rank_by_deployment` of the binding activity. -/
def latestPublishRank (deploymentId : String) : Option EventRank :=
  (latestEvent (inventory.publishEvents.filter (·.deploymentId = deploymentId))).map eventRank

/-- `_latest_publish_times`. -/
def latestPublishTime (deploymentId : String) : Option ℤ :=
  ((inventory.publishEvents.filter (·.deploymentId = deploymentId)).map (·.publishedAt)).max?

/-- A relation that a publication bound for a model, with the rank of its deployment. -/
structure PublishedRelation where
  rank : EventRank
  physicalName : String
  deriving DecidableEq, Repr

theorem PublishedRelation.toLex_injective :
    Function.Injective fun relation : PublishedRelation =>
      toLex (relation.rank, relation.physicalName) := by
  rintro ⟨rank, physicalName⟩ ⟨rank', physicalName'⟩ h
  simpa using h

instance : LinearOrder PublishedRelation :=
  LinearOrder.lift' (fun relation => toLex (relation.rank, relation.physicalName))
    PublishedRelation.toLex_injective

/-- The mappings of the published deployments whose names they have published, with the rank of
the deployment's latest publication. -/
def publishedRelations : List (String × PublishedRelation) :=
  inventory.deployments.flatMap fun deployment =>
    match latestPublishRank inventory deployment.deploymentId with
    | none => []
    | some rank =>
      (deployment.preparedObjectMappings.filter fun mapping => mapping.logicalKey.name ∈
        publishedNames inventory.publishEvents deployment.deploymentId).map fun mapping =>
          (mapping.logicalModelName, ⟨rank, mapping.physicalName⟩)

def knownPhysicalNames : List String :=
  (publishedRelations inventory).map (·.2.physicalName)

/-- `latest_by_model_name`. -/
def latestOfModel (logicalModelName : String) : Option PublishedRelation :=
  (((publishedRelations inventory).filter (·.1 = logicalModelName)).map (·.2)).max?

def latestPhysicalNames : List String :=
  ((publishedRelations inventory).map (·.1)).filterMap fun logicalModelName =>
    (latestOfModel inventory logicalModelName).map (·.physicalName)

/-- A live binding that janitor removes: of a published relation, and of no model's latest one. -/
def ObsoleteBinding (binding : StableBinding) : Prop :=
  binding.physicalName ∈ knownPhysicalNames inventory ∧
    binding.physicalName ∉ latestPhysicalNames inventory

instance : DecidablePred (ObsoleteBinding inventory) := fun _ => instDecidableAnd

/-- `_binding_activity`: the names that stay bound, and the bindings to remove. -/
def bindingActivity (activeBindings : List StableBinding) :
    List String × List AdapterStableBindingRemoval :=
  ((activeBindings.filter (¬ ObsoleteBinding inventory ·)).map (·.physicalName),
    (activeBindings.filter (ObsoleteBinding inventory ·)).map stableName)

def activeRelationNames (warehouse : Warehouse) : List String :=
  (bindingActivity inventory warehouse.activeBindings).1

def obsoleteRemovals (warehouse : Warehouse) : List AdapterStableBindingRemoval :=
  (bindingActivity inventory warehouse.activeBindings).2

def activeDeploymentIds (warehouse : Warehouse) : List String :=
  (warehouse.activeBindings.filter fun binding =>
    binding.physicalName ∈ activeRelationNames inventory warehouse ∧
      isDeploymentPhysicalName binding.physicalName = true).filterMap fun binding =>
        deploymentIdFromPhysicalName binding.physicalName

/-- `_rollback_relations_are_available`; every database of a mapping has its catalog loaded. -/
def rollbackRelationsAreAvailable (deployment : AdapterDeploymentRecord) (database : String)
    (catalogs : String → List String) : Prop :=
  deployment.preparedObjectMappings ≠ [] ∧ ∀ mapping ∈ deployment.preparedObjectMappings,
    (relationOf mapping database).2 ∈ catalogs (relationOf mapping database).1

def hasCompletePublication (deployment : AdapterDeploymentRecord) (database : String)
    (publishEvents : List AdapterPublishEventRecord) : Prop :=
  bindingIdentity (expectedBindings deployment database) ≠ [] ∧
    ∃ event ∈ publishEvents, event.deploymentId = deployment.deploymentId ∧
      bindingIdentity event.bindings = bindingIdentity (expectedBindings deployment database)

/-- What makes a deployment a rollback point, the number of these apart. -/
def RollbackPoint (warehouse : Warehouse) (database : String)
    (deployment : AdapterDeploymentRecord) : Prop :=
  latestPublishRank inventory deployment.deploymentId ≠ none ∧
    deployment.deploymentId ∉ activeDeploymentIds inventory warehouse ∧
    deployment.status ≠ virtualDeploymentStatusIncomplete ∧
    physicalMappingsAreSafe deployment ∧
    rollbackRelationsAreAvailable deployment database warehouse.catalogs ∧
    hasCompletePublication deployment database inventory.publishEvents

instance (warehouse : Warehouse) (database : String) :
    DecidablePred (RollbackPoint inventory warehouse database) := by
  unfold RollbackPoint rollbackRelationsAreAvailable hasCompletePublication
  infer_instance

def eligibleDeployments (warehouse : Warehouse) (database : String) :
    List AdapterDeploymentRecord :=
  inventory.deployments.filter (RollbackPoint inventory warehouse database ·)

/-- `ordered_deployments`: those published last come first. -/
def orderedDeployments (warehouse : Warehouse) (database : String) :
    List (EventRank × AdapterDeploymentRecord) :=
  ((eligibleDeployments inventory warehouse database).filterMap fun deployment =>
    (latestPublishRank inventory deployment.deploymentId).map (·, deployment)).insertionSort
      fun ranked ranked' => ranked'.1 ≤ ranked.1

def rollbackDeploymentIds (warehouse : Warehouse) (database : String)
    (minimumRollbackDeployments : ℕ) : List String :=
  if minimumRollbackDeployments = 0 then []
  else ((orderedDeployments inventory warehouse database).take minimumRollbackDeployments).map
    (·.2.deploymentId)

variable (warehouse : Warehouse) (request : JanitorRequest) (now : ℤ)

def retentionCutoff : ℤ := now - request.retentionDays * 86400000000

/-- Whether a deployment's relations may be dropped, and why. -/
def deletability (deployment : AdapterDeploymentRecord) : Bool × String :=
  if ¬ physicalMappingsAreSafe deployment then
    (false, "physical mappings do not match deployment identity")
  else if ∃ mapping ∈ deployment.preparedObjectMappings,
      mapping.physicalName ∈ activeRelationNames inventory warehouse then
    (false, "contains currently active relation")
  else if deployment.deploymentId ∈ activeDeploymentIds inventory warehouse then
    (false, "currently active")
  else if deployment.deploymentId ∈ rollbackDeploymentIds inventory warehouse request.database
      request.minimumRollbackDeployments then
    (false, "retained as rollback point (minimum " ++
      decimalText request.minimumRollbackDeployments ++ " deployments)")
  else
    match latestPublishTime inventory deployment.deploymentId with
    | none => (true, "stale unpublished deployment")
    | some publishedAt =>
      if retentionCutoff request now ≤ publishedAt then
        (false, "published within retention window (" ++ decimalText request.retentionDays ++
          " days)")
      else
        (true, "published before retention window (" ++ decimalText request.retentionDays ++
          " days)")

/-- `_preview_janitor`: the deployments, the last created first. -/
def previewJanitor : List JanitorPreviewCandidate :=
  (inventory.deployments.insertionSort fun deployment deployment' =>
    deployment'.createdAt ≤ deployment.createdAt).map fun deployment =>
      { deploymentId := deployment.deploymentId
        createdAt := deployment.createdAt
        status := deployment.status
        logicalViewNames := ((publishMappings deployment).map (·.logicalKey.name)).insertionSort
          (· ≤ ·)
        physicalObjectNames := (deployment.preparedObjectMappings.map
          (·.physicalName)).insertionSort (· ≤ ·)
        deletable := (deletability inventory warehouse request now deployment).1
        reason := (deletability inventory warehouse request now deployment).2 }

def requestedObjectNames : List String :=
  ((previewJanitor inventory warehouse request now).filter (·.deletable)).flatMap
    (·.physicalObjectNames)

/-- `render_clickhouse_relation_cleanup`: no relation of a live binding is dropped. -/
def renderRelationCleanup (relationNames : List String) :
    Except String (List AdapterStableBindingRemoval) :=
  relationNames.mapM fun relationName =>
    if relationName ∈ warehouse.activeBindings.map (·.physicalName) then
      .error ("Refusing to clean active physical relation '" ++ relationName ++ "'")
    else .ok ⟨request.database, relationName⟩

/-- What is left after these views and relations have been dropped. -/
def dropNames (dropped : List AdapterStableBindingRemoval) : Warehouse where
  activeBindings := warehouse.activeBindings.filter (stableName · ∉ dropped)
  catalogs database := (warehouse.catalogs database).filter (⟨database, ·⟩ ∉ dropped)

/-- `_apply_janitor`: the bindings are inspected again before anything is dropped. -/
def applyJanitor (refreshed : Warehouse) : Except String Warehouse := do
  let requested := requestedObjectNames inventory warehouse request now
  let obsolete := obsoleteRemovals inventory warehouse
  let refreshedActiveNames := (refreshed.activeBindings.filter (stableName · ∉ obsolete)).map
    (·.physicalName)
  let newlyActiveNames := refreshedActiveNames.filter (· ∈ requested)
  if newlyActiveNames ≠ [] then
    .error ("Refusing to clean relations that became active: " ++
      pyReprTuple (sortedNames newlyActiveNames.toFinset))
  else
    let cleanup ← renderRelationCleanup refreshed request requested
    .ok (dropNames refreshed (obsolete ++ cleanup))

end SqlTide.Janitor
