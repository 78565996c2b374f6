import SqlTide.Foundations.Failures
import SqlTide.Promotion.Publications

/-!
# Rollback points

A rollback finds the current publication by the live bindings, and the publication it goes back
to in the history: the previous one with other bindings, or the latest of a named deployment.
-/

namespace SqlTide.Promotion

open Destruction Foundations

/-- What a `RollbackRequest` asks for: a deployment id or `--previous`, never both. -/
inductive RollbackTarget
  | previous
  | deployment (deploymentId : String)
  deriving DecidableEq, Repr

structure RollbackPlan where
  currentDeploymentId : String
  targetDeploymentId : String
  logicalViewNames : List String
  deriving DecidableEq, Repr

def currentPublishEvent (events : List AdapterPublishEventRecord)
    (activeBindings : List StableBinding) : Except String AdapterPublishEventRecord :=
  if activeBindings = [] then .error "Rollback requires an active published deployment"
  else
    match latestEvent (events.filter fun event =>
      bindingIdentity event.bindings = bindingIdentity activeBindings) with
    | none => .error
      "Active bindings do not match a complete publication; repair the target before rollback"
    | some event => .ok event

def previousPublishEvent (events : List AdapterPublishEventRecord)
    (currentEvent : AdapterPublishEventRecord) : Except String AdapterPublishEventRecord :=
  match latestEvent (events.filter fun event => eventRank event < eventRank currentEvent ∧
    bindingIdentity event.bindings ≠ bindingIdentity currentEvent.bindings) with
  | none => .error "No previous published deployment is available for rollback"
  | some event => .ok event

def explicitPublishEvent (events : List AdapterPublishEventRecord) (deploymentId : String)
    (currentEvent : AdapterPublishEventRecord) : Except String AdapterPublishEventRecord :=
  if deploymentId = currentEvent.deploymentId then
    .error ("Deployment '" ++ deploymentId ++ "' is already active")
  else
    match latestEvent (events.filter (·.deploymentId = deploymentId)) with
    | none => .error
      ("Deployment '" ++ deploymentId ++ "' has no successful publication to roll back to")
    | some event => .ok event

def targetPublishEvent (events : List AdapterPublishEventRecord) (target : RollbackTarget)
    (currentEvent : AdapterPublishEventRecord) : Except String AdapterPublishEventRecord :=
  match target with
  | .previous => previousPublishEvent events currentEvent
  | .deployment deploymentId => explicitPublishEvent events deploymentId currentEvent

/-- `deployment_by_id.get`: of two records with one id the later one counts. -/
def deploymentById (deployments : List AdapterDeploymentRecord) (deploymentId : String) :
    Option AdapterDeploymentRecord :=
  (deployments.filter (·.deploymentId = deploymentId)).getLast?

/-- The prepared relations that the catalogs do not have. -/
def missingRelations (catalogs : String → List String) (defaultDatabase : String)
    (deployment : AdapterDeploymentRecord) : List String :=
  (((deployment.preparedObjectMappings.map (relationOf · defaultDatabase)).filter fun relation =>
    relation.2 ∉ catalogs relation.1).map fun relation => relation.1 ++ "." ++
      relation.2).insertionSort
      (· ≤ ·)

/-- The checks of `resolve_rollback_plan` on the target it has found. -/
def rollbackPlanTo (inventory : AdapterDeploymentInventory) (catalogs : String → List String)
    (defaultDatabase : String) (currentEvent targetEvent : AdapterPublishEventRecord) :
    Except String RollbackPlan :=
  match deploymentById inventory.deployments targetEvent.deploymentId with
  | none => .error ("Rollback target deployment '" ++ targetEvent.deploymentId ++
      "' is missing deployment metadata")
  | some deployment =>
    if bindingIdentity targetEvent.bindings ≠
        bindingIdentity (expectedBindings deployment defaultDatabase) then
      .error ("Rollback target deployment '" ++ targetEvent.deploymentId ++
        "' publication bindings do not match its deployment metadata")
    else if missingRelations catalogs defaultDatabase deployment ≠ [] then
      .error ("Rollback target deployment '" ++ targetEvent.deploymentId ++
        "' is missing retained relations: " ++
          ", ".intercalate (missingRelations catalogs defaultDatabase deployment))
    else
      .ok
        { currentDeploymentId := currentEvent.deploymentId
          targetDeploymentId := targetEvent.deploymentId
          logicalViewNames := ((publishMappings deployment).map (·.logicalKey.name)).insertionSort
            (· ≤ ·) }

def resolveRollbackPlan (inventory : AdapterDeploymentInventory)
    (activeBindings : List StableBinding) (catalogs : String → List String)
    (defaultDatabase : String) (target : RollbackTarget) : Except String RollbackPlan := do
  let currentEvent ← currentPublishEvent inventory.publishEvents activeBindings
  let targetEvent ← targetPublishEvent inventory.publishEvents target currentEvent
  rollbackPlanTo inventory catalogs defaultDatabase currentEvent targetEvent

variable {inventory : AdapterDeploymentInventory} {events : List AdapterPublishEventRecord}
  {activeBindings : List StableBinding} {catalogs : String → List String}
  {defaultDatabase : String} {target : RollbackTarget}
  {currentEvent targetEvent event : AdapterPublishEventRecord} {plan : RollbackPlan}

theorem currentPublishEvent_eq_ok : currentPublishEvent events activeBindings = .ok event ↔
    activeBindings ≠ [] ∧ latestEvent (events.filter fun event =>
      bindingIdentity event.bindings = bindingIdentity activeBindings) = some event := by
  unfold currentPublishEvent
  split_ifs with hactive
  · simp [hactive]
  · split <;> simp_all

theorem previousPublishEvent_eq_ok : previousPublishEvent events currentEvent = .ok event ↔
    latestEvent (events.filter fun event => eventRank event < eventRank currentEvent ∧
      bindingIdentity event.bindings ≠ bindingIdentity currentEvent.bindings) = some event := by
  unfold previousPublishEvent
  split <;> simp_all

theorem missingRelations_eq_nil {deployment : AdapterDeploymentRecord} :
    missingRelations catalogs defaultDatabase deployment = [] ↔
      ∀ mapping ∈ deployment.preparedObjectMappings,
        (relationOf mapping defaultDatabase).2 ∈ catalogs
          (relationOf mapping defaultDatabase).1 := by
  rw [missingRelations, ← List.length_eq_zero_iff, List.length_insertionSort,
    List.length_eq_zero_iff, List.map_eq_nil_iff, List.filter_eq_nil_iff]
  simp

/-- A target is good when its deployment is recorded with just the bindings it published and all
its relations are there. -/
theorem rollbackPlanTo_eq_ok :
    rollbackPlanTo inventory catalogs defaultDatabase currentEvent targetEvent = .ok plan ↔
      ∃ deployment, deploymentById inventory.deployments targetEvent.deploymentId =
        some deployment ∧
        targetEvent.bindings.Perm (expectedBindings deployment defaultDatabase) ∧
        missingRelations catalogs defaultDatabase deployment = [] ∧
        plan =
          { currentDeploymentId := currentEvent.deploymentId
            targetDeploymentId := targetEvent.deploymentId
            logicalViewNames :=
              ((publishMappings deployment).map (·.logicalKey.name)).insertionSort (· ≤ ·) } := by
  unfold rollbackPlanTo
  cases hdeployment : deploymentById inventory.deployments targetEvent.deploymentId with
  | none => simp
  | some deployment =>
    simp only [Option.some.injEq, exists_eq_left', ← bindingIdentity_eq_iff]
    split_ifs with hidentity hmissing
    · simp [hidentity]
    · simp [hmissing]
    · rw [not_not] at hidentity hmissing
      simp [hidentity, hmissing, eq_comm]

theorem resolveRollbackPlan_eq_ok :
    resolveRollbackPlan inventory activeBindings catalogs defaultDatabase target = .ok plan ↔
      ∃ currentEvent targetEvent,
        currentPublishEvent inventory.publishEvents activeBindings = .ok currentEvent ∧
        targetPublishEvent inventory.publishEvents target currentEvent = .ok targetEvent ∧
        rollbackPlanTo inventory catalogs defaultDatabase currentEvent targetEvent = .ok plan := by
  simp only [resolveRollbackPlan, bind_eq_ok, exists_and_left]

end SqlTide.Promotion
