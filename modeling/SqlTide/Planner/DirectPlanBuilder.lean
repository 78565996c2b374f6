import SqlTide.Compiler.Lineage
import SqlTide.Population.DirectPlan

/-!
# Building a direct plan

A direct build takes the selected models with everything that reads them, and on request the
models upstream of these whose relations do not exist. What else the executed models read has to
be in the warehouse already, or is kept up by the framework. The scope is rebuilt in place: its
relations are torn down from the readers up and created again from the tables on.
-/

namespace SqlTide.Planner

open Compiler Foundations List Population RealizedProject
open Replay (AdapterReplayBoundaryMode AdapterReplayColumns)

inductive DirectSelectionMode
  | allModels
  | explicit
  | changed
  deriving DecidableEq, Repr

inductive DirectResourceKind
  | table
  | materializedView
  | view
  deriving DecidableEq, Repr

inductive DirectRelationAction
  | drop
  | create
  deriving DecidableEq, Repr

/-- A relation that was observed in the warehouse. -/
structure ObservedRelation where
  name : String
  engine : String
  columnNames : List String := []
  sourceRelationNames : List String := []
  deriving DecidableEq, Repr

def catalogMaterializedViewEngine : String := "MaterializedView"

/-- The replay columns that the configuration of an adopted source names. -/
structure ExternalReplayColumns where
  partitionColumnName : Option String := none
  offsetColumnName : Option String := none
  timestampColumnName : Option String := none
  landedAtColumnName : Option String := none
  cursorColumnName : Option String := none
  deriving DecidableEq, Repr

inductive DirectPlanError
  | adoptedCollision (names : List String)
  | outOfScopeConsumers (names : List String)
  | missingPrerequisites (details : List String)
  | missingDrivingInput (modelName : String)
  | unresolvedReplayMode (modelName : String)
  | missingReplayColumns (modelName relationName upstreamName : String) (columns : List String)
  deriving DecidableEq, Repr

namespace DirectPlanError

def message : DirectPlanError → String
  | adoptedCollision names =>
    "Direct mode refuses adopted source relations that collide with managed targets: " ++
      ", ".intercalate names
  | outOfScopeConsumers names =>
    "Direct plan cannot rebuild missing upstream models while out-of-scope materialized views " ++
      "consume them: " ++ ", ".intercalate names ++
      "; include or remove those consumers before retrying"
  | missingPrerequisites details =>
    "Direct plan requires preserved upstream relations that do not exist: " ++
      ", ".intercalate details
  | missingDrivingInput modelName =>
    "Direct plan cannot find the driving input of model '" ++ modelName ++ "'"
  | unresolvedReplayMode modelName =>
    "Direct plan cannot resolve the replay mode of '" ++ modelName ++ "'"
  | missingReplayColumns modelName relationName upstreamName columns =>
    "Direct plan cannot replay '" ++ modelName ++ "' from preserved upstream relation '" ++
      relationName ++ "': required replay columns are missing: " ++ ", ".intercalate columns ++
      ". Rebuild the upstream scope in the same invocation (for example, --select " ++
      upstreamName ++ ") or select its pipeline."

end DirectPlanError

section

variable (P : RealizedProject)

def relationNameByLogicalKey (key : LogicalResourceKey) : String :=
  match P.sources.find? fun s => s.name = key.name with
  | some s => s.relationName
  | none =>
    match tableModelByName P key.name with
    | some m => m.relationName
    | none => ((P.viewModels.find? fun v => v.name = key.name).map (·.relationName)).getD ""

def isExternalTable (s : RealizedSource) : Bool :=
  match s.source with
  | .externalTable _ => true
  | _ => false

/-- The names that `validate_compiled_project_relation_names` claims; an adopted relation is
claimed once, also where several sources adopt it. -/
def claimedRelationNames : List String :=
  (P.sources.filter fun s => !isExternalTable s).flatMap (fun s =>
      [kafkaTableName s.name, rawTableName s.name, materializedViewName s.name]) ++
    (P.tableModels.flatMap (fun m => [m.relationName, materializedViewName m.name]) ++
      P.viewModels.map (·.relationName)) ++
    ((P.sources.filter isExternalTable).map (·.relationName)).eraseDups

end

/-- A project whose relation names were validated, so that no name has two owners, and whose order
lists a view behind what it reads as well. -/
structure ValidatedProject extends RealizedProject where
  relationNames_claimed : (claimedRelationNames toRealizedProject).Nodup
  view_upstream_first : ∀ v ∈ viewModels, ∀ r ∈ v.parsedRefs,
    orderedNames.idxOf r < orderedNames.idxOf v.name

/-- What a plan is built for, and the warehouse that was observed. -/
structure DirectPlanRequest (P : RealizedProject) where
  catalog : List ObservedRelation
  selectedModelKeys : Finset LogicalResourceKey
  selectionMode : DirectSelectionMode
  includeMissingUpstream : Bool
  effectiveStartTime : Option String := none
  /-- The replay columns of the adopted sources, by their relation. -/
  externalReplayColumns : String → ExternalReplayColumns := fun _ => {}
  /-- `effective_replay_lineage_mode` of a pipeline. -/
  replayLineageMode : String → Option AdapterReplayBoundaryMode := fun _ => some .offsets

def modelKeys (keys : List LogicalResourceKey) : List LogicalResourceKey :=
  keys.filter fun key => key.resourceType = .model

namespace DirectPlanRequest

variable {P : RealizedProject} (R : DirectPlanRequest P)

/-- `catalog.relation_names()`. -/
def existingNames : List String := R.catalog.map (·.name)

/-- `_resolve_normal_execution_scope`. -/
def normalExecutionScope : List LogicalResourceKey :=
  if R.selectionMode = .allModels then modelKeys P.lineageGraph.orderedKeys
  else if R.selectedModelKeys = ∅ then []
  else modelKeys
    (P.lineageGraph.collectReachableKeys R.selectedModelKeys .downstream allDependencyEdgeTypes)

/-- The models upstream of some keys that are not among them and do not exist. -/
def missingModelKeys (executionKeys : Finset LogicalResourceKey) : Finset LogicalResourceKey :=
  (executionKeys.biUnion fun key =>
    ((P.lineageGraph.upstreamEdgesByKey key).map (·.upstreamKey)).toFinset).filter fun upstream =>
      upstream ∉ executionKeys ∧ upstream ∈ P.compiledProject.models.map (·.key) ∧
        relationNameByLogicalKey P upstream ∉ R.existingNames

/-- The loop of `_resolve_prerequisite_execution_scope`, over `execution_keys` and
`added_keys`. -/
def expandScope : ℕ → Finset LogicalResourceKey × Finset LogicalResourceKey →
    Finset LogicalResourceKey × Finset LogicalResourceKey
  | 0, state => state
  | fuel + 1, state =>
    if R.missingModelKeys state.1 = ∅ then state
    else expandScope fuel
      (state.1 ∪ R.missingModelKeys state.1, state.2 ∪ R.missingModelKeys state.1)

def expandedScope : Finset LogicalResourceKey × Finset LogicalResourceKey :=
  R.expandScope (P.lineageGraph.orderedKeys.length + 1) (R.normalExecutionScope.toFinset, ∅)

/-- `_resolve_prerequisite_execution_scope`. -/
def prerequisiteExecutionScope : List LogicalResourceKey :=
  if R.includeMissingUpstream then
    modelKeys (P.lineageGraph.orderedKeys.filter (· ∈ R.expandedScope.2))
  else []

def executionScope : List LogicalResourceKey :=
  modelKeys (P.lineageGraph.orderedKeys.filter fun key =>
    key ∈ R.normalExecutionScope ++ R.prerequisiteExecutionScope)

/-- The names of the models that are rebuilt. -/
def directScope : DirectScope where
  executionKeys := (R.executionScope.map (·.name)).toFinset
  effectiveStartTime := R.effectiveStartTime

/-- `_resolve_driving_parents`. -/
def drivingParent (P : RealizedProject) (key : LogicalResourceKey) : Option LogicalResourceKey :=
  ((P.lineageGraph.upstreamEdgesByKey key).filter fun edge =>
    edge.edgeType = .drivingInput).getLast?.map (·.upstreamKey)

end DirectPlanRequest

def modelRelations (P : RealizedProject) (name : String) : List (String × DirectResourceKind) :=
  match tableModelByName P name with
  | some m => [(m.relationName, .table), (materializedViewName m.name, .materializedView)]
  | none =>
    match P.viewModels.find? fun v => v.name = name with
    | some v => [(v.relationName, .view)]
    | none => []

/-- A model that is torn down and rebuilt, with its relations and their kinds. -/
structure DirectPlanEntry where
  modelKey : LogicalResourceKey
  relations : List (String × DirectResourceKind)
  drivingInputKey : Option LogicalResourceKey
  isReplayRoot : Bool
  deriving DecidableEq, Repr

/-- An upstream resource that is read and not executed. -/
structure DirectPrerequisite where
  key : LogicalResourceKey
  relationName : String
  present : Bool
  frameworkManaged : Bool
  deriving DecidableEq, Repr

structure DirectReplayRoot where
  modelKey : LogicalResourceKey
  drivingInputKey : LogicalResourceKey
  drivingInputRelationName : String
  drivingInputReplayColumns : AdapterReplayColumns
  replayBoundaryMode : AdapterReplayBoundaryMode
  propagatedModelKeys : List LogicalResourceKey

structure DirectRelationOperation where
  relationName : String
  action : DirectRelationAction
  modelKey : LogicalResourceKey
  resourceKind : DirectResourceKind
  deriving DecidableEq, Repr

def relationOperations (entries : List DirectPlanEntry) (action : DirectRelationAction)
    (resourceKind : DirectResourceKind) : List DirectRelationOperation :=
  entries.flatMap fun entry =>
    (entry.relations.filter fun relation => relation.2 = resourceKind).map fun relation =>
      { relationName := relation.1
        action := action
        modelKey := entry.modelKey
        resourceKind := relation.2 }

def teardownOperations (entries : List DirectPlanEntry) : List DirectRelationOperation :=
  [DirectResourceKind.view, .materializedView, .table].flatMap
    (relationOperations entries.reverse .drop)

def creationOperations (entries : List DirectPlanEntry) : List DirectRelationOperation :=
  [DirectResourceKind.table, .materializedView, .view].flatMap (relationOperations entries .create)

structure DirectPlan where
  selectionMode : DirectSelectionMode
  effectiveStartTime : Option String
  userScope : List LogicalResourceKey
  executionScope : List LogicalResourceKey
  prerequisiteExecutionScope : List LogicalResourceKey
  prerequisiteScope : List DirectPrerequisite
  entries : List DirectPlanEntry
  replayRoots : List DirectReplayRoot
  teardownOperations : List DirectRelationOperation
  creationOperations : List DirectRelationOperation

namespace DirectPlanRequest

variable {P : RealizedProject} (R : DirectPlanRequest P)

def isTableModel (P : RealizedProject) (key : LogicalResourceKey) : Bool :=
  (tableModelByName P key.name).isSome

def requireDrivingParent (P : RealizedProject) (key : LogicalResourceKey) :
    Except DirectPlanError LogicalResourceKey :=
  match drivingParent P key with
  | some parent => .ok parent
  | none => .error (.missingDrivingInput key.name)

def buildEntry (key : LogicalResourceKey) : Except DirectPlanError DirectPlanEntry :=
  if isTableModel P key then
    (requireDrivingParent P key).map fun parent =>
      { modelKey := key
        relations := modelRelations P key.name
        drivingInputKey := some parent
        isReplayRoot := parent ∉ R.executionScope }
  else .ok
    { modelKey := key
      relations := modelRelations P key.name
      drivingInputKey := drivingParent P key
      isReplayRoot := false }

/-- `_is_framework_managed_source`: Postgres is refreshed by the warehouse itself, and only a
managed source has resources. -/
def isFrameworkManagedSource (P : RealizedProject) (key : LogicalResourceKey) : Bool :=
  key.resourceType = .source &&
    P.sources.any fun s => s.name = key.name && (isPostgresRefresh s || !s.adopted)

def prerequisiteKeys : List LogicalResourceKey :=
  let upstreamKeys := (R.executionScope.flatMap P.lineageGraph.upstreamEdgesByKey).map
    (·.upstreamKey)
  P.lineageGraph.orderedKeys.filter fun key => key ∈ upstreamKeys ∧ key ∉ R.executionScope

def buildPrerequisites : List DirectPrerequisite :=
  R.prerequisiteKeys.map fun key =>
    { key
      relationName := relationNameByLogicalKey P key
      present := relationNameByLogicalKey P key ∈ R.existingNames
      frameworkManaged := isFrameworkManagedSource P key }

def producingPipelineName (P : RealizedProject) (key : LogicalResourceKey) : Option String :=
  (P.compiledProject.models.find? fun m => m.key = key).map (·.pipelineName)

def missingPrerequisiteDetail (P : RealizedProject) (prerequisite : DirectPrerequisite) : String :=
  match producingPipelineName P prerequisite.key with
  | none => prerequisite.relationName
  | some pipelineName => prerequisite.relationName ++ " (built by pipeline " ++ pipelineName ++
    "; add it to the selection)"

def rejectMissingPrerequisites (P : RealizedProject) (prerequisites : List DirectPrerequisite) :
    Except DirectPlanError Unit :=
  let missing := prerequisites.filter fun prerequisite =>
    !prerequisite.present && !prerequisite.frameworkManaged
  if missing = [] then .ok ()
  else .error (.missingPrerequisites (missing.map (missingPrerequisiteDetail P)))

def rejectAdoptedSourceTargetCollisions : Except DirectPlanError Unit :=
  let targetNames := R.executionScope.flatMap fun key => (modelRelations P key.name).map (·.1)
  let collisions := targetNames.toFinset ∩
    (P.desiredState.externalSourceReplayConfigs.map (·.tableName)).toFinset
  if collisions = ∅ then .ok () else .error (.adoptedCollision (sortedNames collisions))

def inScopeMaterializedViews : List String :=
  R.executionScope.flatMap fun key =>
    ((modelRelations P key.name).filter fun relation => relation.2 = .materializedView).map (·.1)

/-- `find_direct_out_of_scope_consumers`. -/
def outOfScopeConsumers : List String :=
  let rebuiltRelationNames := R.prerequisiteExecutionScope.map (relationNameByLogicalKey P)
  if rebuiltRelationNames = [] then []
  else sortedBy (fun name => [name]) ((R.catalog.filter fun relation =>
    relation.engine = catalogMaterializedViewEngine ∧
      relation.name ∉ R.inScopeMaterializedViews ∧
        ∃ name ∈ rebuiltRelationNames, name ∈ relation.sourceRelationNames).map (·.name))

def rejectOutOfScopeDrivingConsumers : Except DirectPlanError Unit :=
  if R.outOfScopeConsumers = [] then .ok ()
  else .error (.outOfScopeConsumers R.outOfScopeConsumers)

/-- `name or default`. -/
def nameOr (name : Option String) (default : String) : String :=
  match name with
  | some name => if name = "" then default else name
  | none => default

def canonicalReplayColumns : AdapterReplayColumns where
  partition := "_replay_partition"
  offset := "_replay_offset"
  timestamp := "_replay_timestamp"
  landedAt := "_replay_landed_at"
  cursor := "_replay_cursor"

def drivingInputReplayColumns (key : LogicalResourceKey) : AdapterReplayColumns :=
  let relationName := relationNameByLogicalKey P key
  let config := R.externalReplayColumns relationName
  if key.resourceType ≠ .source then canonicalReplayColumns
  else if relationName ∉ P.desiredState.externalSourceReplayConfigs.map (·.tableName) then
    canonicalReplayColumns
  else
    { partition := nameOr config.partitionColumnName canonicalReplayColumns.partition
      offset := nameOr config.offsetColumnName canonicalReplayColumns.offset
      timestamp := nameOr config.timestampColumnName canonicalReplayColumns.timestamp
      landedAt := nameOr config.landedAtColumnName
        (nameOr config.timestampColumnName canonicalReplayColumns.landedAt)
      cursor := nameOr config.cursorColumnName canonicalReplayColumns.cursor }

/-- `_replay_lineage_modes_by_key`, for a model: the mode of its pipeline, where that has a
source. -/
def replayLineageModeOf (m : RealizedTableModel) : Option AdapterReplayBoundaryMode :=
  ((P.pipelines.filter fun pipeline => pipeline.name = m.pipelineName &&
    pipeline.source.isSome).filterMap fun pipeline => R.replayLineageMode pipeline.name).getLast?

def replayBoundaryMode (m : RealizedTableModel) :
    Except DirectPlanError AdapterReplayBoundaryMode :=
  match R.replayLineageModeOf m with
  | some mode => .ok mode
  | none => .error (.unresolvedReplayMode m.name)

def buildReplayRoot (root : RealizedTableModel) : Except DirectPlanError DirectReplayRoot := do
  let drivingInputKey ← requireDrivingParent P (P.logicalKey root.name)
  let mode ← R.replayBoundaryMode root
  return {
    modelKey := P.logicalKey root.name
    drivingInputKey
    drivingInputRelationName := relationNameByLogicalKey P drivingInputKey
    drivingInputReplayColumns := R.drivingInputReplayColumns drivingInputKey
    replayBoundaryMode := mode
    propagatedModelKeys :=
      (propagatedModels P R.directScope root).map fun m => P.logicalKey m.name }

def buildReplayRoots : Except DirectPlanError (List DirectReplayRoot) :=
  (directReplayRoots P R.directScope).mapM R.buildReplayRoot

def requiredReplayInputColumns (root : DirectReplayRoot) : List String :=
  let columns := root.drivingInputReplayColumns
  let required := match root.replayBoundaryMode with
    | .offsets => [columns.partition, columns.offset] ++
        if R.effectiveStartTime.isSome then
          [if columns.landedAt = "" then columns.timestamp else columns.landedAt]
        else []
    | .timestamp => [columns.timestamp]
    | .landedAt => [columns.landedAt]
    | .cursor => columns.cursor ::
        if R.effectiveStartTime.isSome then [columns.timestamp] else []
  (required.filter (· ≠ "")).eraseDups

/-- An iteration of `_reject_incompatible_replay_inputs`. -/
def rejectIncompatibleReplayInput (root : DirectReplayRoot) : Except DirectPlanError Unit :=
  match R.catalog.find? fun relation => relation.name = root.drivingInputRelationName with
  | none => .ok ()
  | some relation =>
    let missing := (R.requiredReplayInputColumns root).filter (· ∉ relation.columnNames)
    if missing = [] then .ok ()
    else .error (.missingReplayColumns root.modelKey.name root.drivingInputRelationName
      root.drivingInputKey.name missing)

/-- The plan that `build` returns. -/
def planOf (entries : List DirectPlanEntry) (replayRoots : List DirectReplayRoot) : DirectPlan where
  selectionMode := R.selectionMode
  effectiveStartTime := R.effectiveStartTime
  userScope := R.executionScope.filter (· ∈ R.selectedModelKeys)
  executionScope := R.executionScope
  prerequisiteExecutionScope := R.prerequisiteExecutionScope
  prerequisiteScope := R.buildPrerequisites
  entries := entries
  replayRoots := replayRoots
  teardownOperations := teardownOperations entries
  creationOperations := creationOperations entries

def build : Except DirectPlanError DirectPlan := do
  R.rejectAdoptedSourceTargetCollisions
  R.rejectOutOfScopeDrivingConsumers
  rejectMissingPrerequisites P R.buildPrerequisites
  let entries ← R.executionScope.mapM R.buildEntry
  let replayRoots ← R.buildReplayRoots
  replayRoots.forM R.rejectIncompatibleReplayInput
  return R.planOf entries replayRoots

end DirectPlanRequest

section

variable {P : RealizedProject}

theorem mem_modelRelations {name : String} {relation : String × DirectResourceKind} :
    relation ∈ modelRelations P name ↔
      (∃ m ∈ P.tableModels, m.name = name ∧ (relation = (m.relationName, .table) ∨
        relation = (materializedViewName m.name, .materializedView))) ∨
      ∃ v ∈ P.viewModels, v.name = name ∧ relation = (v.relationName, .view) := by
  unfold modelRelations
  cases htable : tableModelByName P name with
  | some m =>
    obtain ⟨hm, rfl⟩ := tableModelByName_eq_some.mp htable
    simp only [mem_cons, not_mem_nil, or_false]
    constructor
    · intro h
      exact .inl ⟨m, hm, rfl, h⟩
    · rintro (⟨m', hm', hname, h⟩ | ⟨v, hv, hname, -⟩)
      · obtain rfl := tableModel_unique hm' hm hname
        exact h
      · exact absurd hname.symm (tableModel_name_ne hm hv)
  | none =>
    have hnot : ∀ m ∈ P.tableModels, m.name ≠ name := by
      intro m hm hname
      rw [tableModelByName_eq_some.mpr ⟨hm, hname⟩] at htable
      cases htable
    cases hview : P.viewModels.find? fun v => v.name = name with
    | some v =>
      have hv := mem_of_find?_eq_some hview
      obtain rfl : v.name = name := by simpa using find?_some hview
      simp only [mem_singleton]
      constructor
      · intro h
        exact .inr ⟨v, hv, rfl, h⟩
      · rintro (⟨m, hm, hname, -⟩ | ⟨v', hv', hname, h⟩)
        · exact absurd hname (hnot m hm)
        · obtain rfl := viewModel_unique hv' hv hname
          exact h
    | none =>
      simp only [not_mem_nil, false_iff]
      rintro (⟨m, hm, hname, -⟩ | ⟨v, hv, hname, -⟩)
      · exact hnot m hm hname
      · exact absurd (find?_eq_none.mp hview v hv) (by simp [hname])

end

namespace ValidatedProject

variable (V : ValidatedProject)

theorem external_not_owned {s : RealizedSource} (hs : s ∈ V.sources) (hexternal : isExternalTable s)
    {name : String} {relation : String × DirectResourceKind}
    (h : relation ∈ modelRelations V.toRealizedProject name) : relation.1 ≠ s.relationName := by
  have hadopted : s.relationName ∈
      ((V.sources.filter isExternalTable).map (·.relationName)).eraseDups :=
    mem_eraseDups.mpr (mem_map_of_mem (mem_filter.mpr ⟨hs, hexternal⟩))
  refine (nodup_append.mp V.relationNames_claimed).2.2 _ (mem_append_right _ ?_) _ hadopted
  rcases mem_modelRelations.mp h with ⟨m, hm, -, rfl | rfl⟩ | ⟨v, hv, -, rfl⟩
  · exact mem_append_left _ (mem_flatMap.mpr ⟨m, hm, by simp⟩)
  · exact mem_append_left _ (mem_flatMap.mpr ⟨m, hm, by simp⟩)
  · exact mem_append_right _ (mem_map_of_mem hv)

variable {V}

theorem rejectAdoptedSourceTargetCollisions_ok (R : DirectPlanRequest V.toRealizedProject) :
    R.rejectAdoptedSourceTargetCollisions = .ok () := by
  refine if_pos (Finset.eq_empty_of_forall_notMem fun name hname => ?_)
  obtain ⟨htarget, hconfig⟩ := Finset.mem_inter.mp hname
  obtain ⟨key, -, htarget⟩ := mem_flatMap.mp (mem_toFinset.mp htarget)
  obtain ⟨relation, hrelation, rfl⟩ := mem_map.mp htarget
  obtain ⟨config, hconfig, hname⟩ := mem_map.mp (mem_toFinset.mp hconfig)
  have hconfig : config ∈ V.sources.filterMap (·.externalReplayConfig) := by
    simpa [desiredState] using hconfig
  obtain ⟨s, hs, hsome⟩ := mem_filterMap.mp hconfig
  unfold RealizedSource.externalReplayConfig at hsome
  split at hsome
  · next tableName hsource =>
    cases hsome
    refine V.external_not_owned hs (by simp [isExternalTable, hsource]) hrelation ?_
    rw [← hname, RealizedSource.relationName, hsource]
  · cases hsome

end ValidatedProject

end SqlTide.Planner
