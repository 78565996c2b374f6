import SqlTide.Promotion.Rollback

/-!
# Publishing a deployment

A publication binds the stable names of the deployment's tables and views, and unbinds the names
that its models had in earlier publications. The record of a publication holds its own bindings
only.
-/

namespace SqlTide.Promotion

open Destruction Foundations List

structure InspectedPhysicalTableCandidate where
  database : String
  logicalName : String
  physicalName : String
  objectType : DesiredObjectType
  deriving DecidableEq, Repr

/-- The live stable views with their relations, and the relations of deployments. -/
structure InspectedManagedTableState where
  activeBindings : List StableBinding
  physicalCandidates : List InspectedPhysicalTableCandidate

structure AdapterStableBindingRemoval where
  database : String
  logicalName : String
  deriving DecidableEq, Repr

structure AdapterBindingReplacementRequest where
  bindings : List StableBinding
  removals : List AdapterStableBindingRemoval
  deriving DecidableEq, Repr

/-- The stable name that a binding defines. -/
def stableName (binding : StableBinding) : AdapterStableBindingRemoval :=
  ⟨binding.database, binding.logicalName⟩

def publishedViewKindOrder (objectType : DesiredObjectType) : ℕ :=
  if objectType = .table then 0 else 1

/-- `_publish_inspected_stable_views`, for a deployment without metadata. -/
def publishInspectedStableViews (relationNames : List String) (state : InspectedManagedTableState)
    (deploymentId : String) : Except String AdapterBindingReplacementRequest :=
  let candidates := state.physicalCandidates.filter fun candidate =>
    ("__" ++ deploymentId).toList <:+ candidate.physicalName.toList ∧
      (candidate.objectType = .table ∨ candidate.objectType = .view)
  let missingNames := (candidates.map (·.physicalName)).filter (· ∉ relationNames)
  if candidates = [] then
    .error ("Deployment '" ++ deploymentId ++ "' has no staged model relations to publish")
  else if missingNames ≠ [] then
    .error ("Deployment '" ++ deploymentId ++ "' is missing staged relations: " ++
      ", ".intercalate (missingNames.insertionSort (· ≤ ·)))
  else
    .ok
      { bindings := (candidates.insertionSort fun candidate candidate' =>
          toLex (candidate.database, toLex (publishedViewKindOrder candidate.objectType,
            candidate.logicalName)) ≤
          toLex (candidate'.database, toLex (publishedViewKindOrder candidate'.objectType,
            candidate'.logicalName))).map fun candidate =>
              ⟨candidate.database, candidate.logicalName, candidate.physicalName⟩
        removals := [] }

/-- `published_names_by_deployment`. -/
def publishedNames (events : List AdapterPublishEventRecord) (deploymentId : String) :
    List String :=
  (events.filter (·.deploymentId = deploymentId)).flatMap (·.logicalViewNames)

/-- `historical_bindings`: what the models of the mappings were bound by under other names. -/
def historicalBindings (inventory : AdapterDeploymentInventory)
    (currentMappings : List PreparedObjectMapping) (defaultDatabase : String) :
    List StableBinding :=
  inventory.deployments.flatMap fun deployment =>
    (deployment.preparedObjectMappings.filter fun mapping =>
      mapping.logicalModelName ∈ currentMappings.map (·.logicalModelName) ∧
        mapping.logicalKey.name ∈ publishedNames inventory.publishEvents deployment.deploymentId ∧
          stableName (bindingOf mapping defaultDatabase) ∉
            currentMappings.map fun mapping => stableName (bindingOf mapping defaultDatabase)).map
      (bindingOf · defaultDatabase)

def obsoleteBindingRemovals (inventory : AdapterDeploymentInventory)
    (currentMappings : List PreparedObjectMapping) (defaultDatabase : String)
    (activeBindings : List StableBinding) : List AdapterStableBindingRemoval :=
  (((historicalBindings inventory currentMappings defaultDatabase).dedup.insertionSort
    (· ≤ ·)).filter (· ∈ activeBindings)).map stableName

def orderedMappings (deployment : AdapterDeploymentRecord) : List PreparedObjectMapping :=
  (publishMappings deployment).insertionSort fun mapping mapping' =>
    toLex (mapping.logicalKey.database.getD "",
      toLex (publishedViewKindOrder mapping.logicalKey.objectType, mapping.logicalKey.name)) ≤
    toLex (mapping'.logicalKey.database.getD "",
      toLex (publishedViewKindOrder mapping'.logicalKey.objectType, mapping'.logicalKey.name))

/-- `build_publish_binding_request`; the relation names are those of the default database. -/
def buildPublishBindingRequest (inventory : AdapterDeploymentInventory)
    (relationNames : List String) (state : InspectedManagedTableState)
    (defaultDatabase deploymentId : String) : Except String AdapterBindingReplacementRequest :=
  match inventory.deployments.find? (·.deploymentId = deploymentId) with
  | none => publishInspectedStableViews relationNames state deploymentId
  | some deployment =>
    let missingNames := (deployment.preparedObjectMappings.map (·.physicalName)).filter
      (· ∉ relationNames)
    if deployment.status = virtualDeploymentStatusIncomplete then
      .error ("Deployment '" ++ deploymentId ++ "' is incomplete and cannot be published")
    else if missingNames ≠ [] then
      .error ("Deployment '" ++ deploymentId ++ "' is missing staged relations: " ++
        ", ".intercalate (missingNames.insertionSort (· ≤ ·)))
    else if publishMappings deployment = [] then
      .error ("Deployment '" ++ deploymentId ++ "' has no staged model relations to publish")
    else
      .ok
        { bindings := (orderedMappings deployment).map (bindingOf · defaultDatabase)
          removals := obsoleteBindingRemovals inventory (orderedMappings deployment)
            defaultDatabase state.activeBindings }

/-- `render_replace_stable_bindings`, executed: views are created or replaced, then dropped. -/
def replaceStableBindings (views : List StableBinding)
    (request : AdapterBindingReplacementRequest) : List StableBinding :=
  (request.bindings.foldl (fun views binding =>
    views.filter (stableName · ≠ stableName binding) ++ [binding]) views).filter
      (stableName · ∉ request.removals)

/-- `build_publish_metadata_state`: the recorded bindings are all in the default database. -/
def buildPublishEvent (deploymentId : String) (publishedAt : ℤ) (publicationId : String)
    (bindings : List StableBinding) (database operation : String)
    (previousDeploymentId : Option String) : AdapterPublishEventRecord :=
  { deploymentId
    publishedAt
    logicalViewNames := bindings.map (·.logicalName)
    publicationId
    bindings := bindings.map fun binding => ⟨database, binding.logicalName, binding.physicalName⟩
    operation
    previousDeploymentId }

variable {inventory : AdapterDeploymentInventory} {relationNames : List String}
  {state : InspectedManagedTableState} {defaultDatabase deploymentId : String}
  {deployment : AdapterDeploymentRecord} {views bindings : List StableBinding}
  {request : AdapterBindingReplacementRequest}

theorem orderedMappings_perm (deployment : AdapterDeploymentRecord) :
    (orderedMappings deployment).Perm (publishMappings deployment) := perm_insertionSort _ _

/-- A recorded deployment can be published when it is complete, its relations are there and one
of them is a table or a view. -/
theorem buildPublishBindingRequest_eq_ok
    (hdeployment : inventory.deployments.find? (·.deploymentId = deploymentId) = some deployment) :
    buildPublishBindingRequest inventory relationNames state defaultDatabase deploymentId =
        .ok request ↔
      deployment.status ≠ virtualDeploymentStatusIncomplete ∧
        (∀ mapping ∈ deployment.preparedObjectMappings, mapping.physicalName ∈ relationNames) ∧
        publishMappings deployment ≠ [] ∧
        request =
          { bindings := (orderedMappings deployment).map (bindingOf · defaultDatabase)
            removals := obsoleteBindingRemovals inventory (orderedMappings deployment)
              defaultDatabase state.activeBindings } := by
  have hmissing : (deployment.preparedObjectMappings.map (·.physicalName)).filter
      (· ∉ relationNames) = [] ↔
        ∀ mapping ∈ deployment.preparedObjectMappings, mapping.physicalName ∈ relationNames := by
    rw [filter_eq_nil_iff]
    simp
  unfold buildPublishBindingRequest
  rw [hdeployment]
  dsimp only
  split_ifs with hstatus hmissing' hempty
  · simp [hstatus]
  · rw [Ne, hmissing] at hmissing'
    constructor
    · rintro ⟨⟩
    · rintro ⟨-, hrelations, -⟩
      exact absurd hrelations hmissing'
  · simp [hempty]
  · rw [not_not, hmissing] at hmissing'
    constructor
    · rintro ⟨⟩
      exact ⟨hstatus, hmissing', hempty, rfl⟩
    · rintro ⟨-, -, -, rfl⟩
      rfl

theorem mem_historicalBindings {currentMappings : List PreparedObjectMapping}
    {binding : StableBinding} :
    binding ∈ historicalBindings inventory currentMappings defaultDatabase ↔
      ∃ deployment ∈ inventory.deployments, ∃ mapping ∈ deployment.preparedObjectMappings,
        mapping.logicalModelName ∈ currentMappings.map (·.logicalModelName) ∧
        mapping.logicalKey.name ∈ publishedNames inventory.publishEvents deployment.deploymentId ∧
        stableName (bindingOf mapping defaultDatabase) ∉
          currentMappings.map (fun mapping => stableName (bindingOf mapping defaultDatabase)) ∧
        bindingOf mapping defaultDatabase = binding := by
  simp only [historicalBindings, mem_flatMap, mem_map, mem_filter, decide_eq_true_eq, and_assoc]

theorem mem_obsoleteBindingRemovals {currentMappings : List PreparedObjectMapping}
    {activeBindings : List StableBinding} {name : AdapterStableBindingRemoval} :
    name ∈ obsoleteBindingRemovals inventory currentMappings defaultDatabase activeBindings ↔
      ∃ binding ∈ activeBindings,
        binding ∈ historicalBindings inventory currentMappings defaultDatabase ∧
          stableName binding = name := by
  simp only [obsoleteBindingRemovals, mem_map, mem_filter, mem_insertionSort,
    mem_dedup, decide_eq_true_eq]
  constructor
  · rintro ⟨binding, ⟨hhistorical, hactive⟩, hname⟩
    exact ⟨binding, hactive, hhistorical, hname⟩
  · rintro ⟨binding, hactive, hhistorical, hname⟩
    exact ⟨binding, ⟨hhistorical, hactive⟩, hname⟩

theorem foldl_bind (hnames : (bindings.map stableName).Nodup) :
    bindings.foldl (fun views binding => views.filter (stableName · ≠ stableName binding) ++
      [binding]) views =
      views.filter (stableName · ∉ bindings.map stableName) ++ bindings := by
  induction bindings using reverseRecOn generalizing views with
  | nil => simp
  | append_singleton bindings binding ih =>
    rw [map_append, nodup_append] at hnames
    obtain ⟨hnodup, -, hnew⟩ := hnames
    have hkept : bindings.filter (stableName · ≠ stableName binding) = bindings := by
      refine filter_eq_self.mpr fun binding' hbinding' => ?_
      simpa using hnew _ (mem_map_of_mem hbinding') (stableName binding) (by simp)
    rw [foldl_append, ih hnodup]
    simp only [foldl_cons, foldl_nil, filter_append, hkept, filter_filter, append_assoc, map_append,
      map_cons, map_nil, mem_append, mem_singleton]
    congr 1
    refine filter_congr fun view _ => ?_
    simp [not_or, and_comm]

/-- When every other live view is removed and no new one is, just the bindings are live. -/
theorem replaceStableBindings_eq (hnames : (request.bindings.map stableName).Nodup)
    (hremoved : ∀ view ∈ views, stableName view ∉ request.bindings.map stableName →
      stableName view ∈ request.removals)
    (hkept : ∀ binding ∈ request.bindings, stableName binding ∉ request.removals) :
    replaceStableBindings views request = request.bindings := by
  rw [replaceStableBindings, foldl_bind hnames, filter_append]
  have hbound : request.bindings.filter (stableName · ∉ request.removals) = request.bindings := by
    refine filter_eq_self.mpr fun binding hbinding => ?_
    simpa using hkept binding hbinding
  rw [hbound, append_left_eq_self, filter_eq_nil_iff]
  intro view hview
  obtain ⟨hview, hother⟩ := mem_filter.mp hview
  simpa using hremoved view hview (by simpa using hother)

end SqlTide.Promotion
