import SqlTide.Foundations.Sorting

/-!
# Realized projects and their desired state

What realization makes of a compiled project: a managed source becomes a Kafka table, a raw
table and the materialized view that lands rows in it, a table model becomes a table and the
materialized view that fills it, a view model becomes a view. A table depends on its driving
input only, its materialized view on every relation its query reads and on the table itself.
What compilation has checked is carried by `RealizedProject`: logical names and relation names
are unique, every reference resolves, and the logical order puts what is read first.
-/

namespace SqlTide.Compiler

open Foundations List

inductive DesiredObjectType
  | kafkaTable
  | table
  | materializedView
  | view
  deriving DecidableEq, Repr

def DesiredObjectType.value : DesiredObjectType → String
  | .kafkaTable => "kafka_table"
  | .table => "table"
  | .materializedView => "materialized_view"
  | .view => "view"

/-- The identity of a desired object; realization leaves its database open. -/
structure ObjectKey where
  objectType : DesiredObjectType
  name : String
  deriving DecidableEq, Repr

structure Column where
  name : String
  type : String
  default : Option String := none
  deriving DecidableEq, Repr

structure KafkaSettings where
  brokerList : String
  topic : String
  consumerGroup : String
  format : String
  settings : Option (List (String × String)) := none
  deriving DecidableEq, Repr

structure KafkaTableSpec where
  columns : List Column
  kafka : KafkaSettings
  deriving DecidableEq, Repr

structure TableStorage where
  engine : String
  orderBy : List String
  partitionBy : Option String := none
  ttl : Option String := none
  settings : Option (List (String × String)) := none
  deriving DecidableEq, Repr

structure TableSpec where
  columns : List Column
  storage : TableStorage
  deriving DecidableEq, Repr

/-- The compared part of a materialized view; its database template is not compared. -/
structure MaterializedViewSpec where
  sourceTableName : String
  targetTableName : String
  query : String
  deriving DecidableEq, Repr

structure ViewSpec where
  query : String
  deriving DecidableEq, Repr

inductive ReplayOnChangeMode
  | full
  | bounded
  deriving DecidableEq, Repr

structure ReplayOnChangeRule where
  mode : ReplayOnChangeMode
  lookbackSeconds : Option Int := none
  deriving DecidableEq, Repr

structure ReplayOnChangePolicy where
  breaking : Option ReplayOnChangeRule := none
  nonBreaking : Option ReplayOnChangeRule := none
  deriving DecidableEq, Repr

structure DesiredKafkaTable where
  name : String
  spec : KafkaTableSpec
  deriving DecidableEq, Repr

structure DesiredTable where
  name : String
  deps : List ObjectKey
  spec : TableSpec
  logicalModelName : String
  replayOnChange : Option ReplayOnChangePolicy := none
  deriving DecidableEq, Repr

structure DesiredMaterializedView where
  name : String
  deps : List ObjectKey
  spec : MaterializedViewSpec
  logicalModelName : String
  deriving DecidableEq, Repr

structure DesiredView where
  name : String
  deps : List ObjectKey
  spec : ViewSpec
  logicalModelName : String
  deriving DecidableEq, Repr

inductive DesiredObject
  | kafkaTable (table : DesiredKafkaTable)
  | table (table : DesiredTable)
  | materializedView (view : DesiredMaterializedView)
  | view (view : DesiredView)
  deriving DecidableEq, Repr

namespace DesiredObject

def key : DesiredObject → ObjectKey
  | .kafkaTable t => ⟨.kafkaTable, t.name⟩
  | .table t => ⟨.table, t.name⟩
  | .materializedView v => ⟨.materializedView, v.name⟩
  | .view v => ⟨.view, v.name⟩

def deps : DesiredObject → List ObjectKey
  | .kafkaTable _ => []
  | .table t => t.deps
  | .materializedView v => v.deps
  | .view v => v.deps

def asTable : DesiredObject → Option DesiredTable
  | .table t => some t
  | _ => none

def asMaterializedView : DesiredObject → Option DesiredMaterializedView
  | .materializedView v => some v
  | _ => none

end DesiredObject

structure ExternalSourceReplayConfig where
  key : ObjectKey
  tableName : String
  deriving DecidableEq, Repr

structure DesiredState where
  objects : List DesiredObject
  replayAnchorKeys : Finset ObjectKey
  mutableRefWarningKeys : Finset ObjectKey
  externalSourceReplayConfigs : List ExternalSourceReplayConfig

namespace DesiredState

variable (D : DesiredState)

/-- `object_by_key.get(key)`. -/
def objectByKey (key : ObjectKey) : Option DesiredObject :=
  D.objects.find? fun object => object.key = key

def keys : List ObjectKey := D.objects.map (·.key)

def tables : List DesiredTable := D.objects.filterMap (·.asTable)

def materializedViews : List DesiredMaterializedView := D.objects.filterMap (·.asMaterializedView)

end DesiredState

def kafkaTableName (name : String) : String := "kafka__" ++ name

def rawTableNamePrefix : String := "raw__"

def rawTableName (name : String) : String := rawTableNamePrefix ++ name

/-- `landing_mv_name` and `transform_mv_name`. -/
def materializedViewName (name : String) : String := "mv__" ++ name

/-- `name.startswith(RAW_TABLE_NAME_PREFIX)`. -/
def isRawTableName (name : String) : Bool :=
  rawTableNamePrefix.toList.isPrefixOf name.toList

/-- What the adapter realizes for a managed source. -/
structure ManagedSource where
  kafkaSpec : KafkaTableSpec
  rawSpec : TableSpec
  landingQuery : String
  deriving DecidableEq, Repr

inductive AuthoredSource
  | kafkaLanding (managed : ManagedSource)
  | externalTable (tableName : String)
  | postgresRefresh (relationSql : String)
  deriving DecidableEq, Repr

structure RealizedSource where
  name : String
  source : AuthoredSource
  deriving DecidableEq, Repr

namespace RealizedSource

def relationName (s : RealizedSource) : String :=
  match s.source with
  | .kafkaLanding _ => rawTableName s.name
  | .externalTable tableName => tableName
  | .postgresRefresh relationSql => relationSql

def adopted (s : RealizedSource) : Bool :=
  match s.source with
  | .kafkaLanding _ => false
  | .externalTable _ => true
  | .postgresRefresh _ => true

def relationKey (s : RealizedSource) : ObjectKey := ⟨.table, s.relationName⟩

/-- `_source_desired_objects`. -/
def desiredObjects (s : RealizedSource) : List DesiredObject :=
  match s.source with
  | .kafkaLanding managed =>
    [.kafkaTable { name := kafkaTableName s.name, spec := managed.kafkaSpec },
      .table
        { name := rawTableName s.name
          deps := []
          spec := managed.rawSpec
          logicalModelName := s.name },
      .materializedView
        { name := materializedViewName s.name
          deps := [⟨.kafkaTable, kafkaTableName s.name⟩, ⟨.table, rawTableName s.name⟩]
          spec :=
            { sourceTableName := kafkaTableName s.name
              targetTableName := rawTableName s.name
              query := managed.landingQuery }
          logicalModelName := s.name }]
  | .externalTable _ => []
  | .postgresRefresh _ => []

def externalReplayConfig (s : RealizedSource) : Option ExternalSourceReplayConfig :=
  match s.source with
  | .externalTable tableName => some { key := s.relationKey, tableName := tableName }
  | _ => none

end RealizedSource

/-- A table model: the driving input of its transform, the references of its query in their
order, and what the adapter realizes. -/
structure RealizedTableModel where
  name : String
  relationName : String
  pipelineName : String
  source : String
  parsedRefs : List String
  /-- The references from the side that are declared mutable. -/
  mutableRefs : List String := []
  spec : TableSpec
  query : String
  replayAnchorEligible : Bool := false
  replayOnChange : Option ReplayOnChangePolicy := none
  deriving DecidableEq, Repr

structure RealizedViewModel where
  name : String
  relationName : String
  pipelineName : String
  parsedRefs : List String
  query : String
  deriving DecidableEq, Repr

def RealizedTableModel.hasMutableRefs (m : RealizedTableModel) : Bool :=
  m.mutableRefs.any (· ≠ m.source)

def RealizedTableModel.tableKey (m : RealizedTableModel) : ObjectKey := ⟨.table, m.relationName⟩

def RealizedTableModel.viewKey (m : RealizedTableModel) : ObjectKey :=
  ⟨.materializedView, materializedViewName m.name⟩

def RealizedViewModel.viewKey (v : RealizedViewModel) : ObjectKey := ⟨.view, v.relationName⟩

/-- A pipeline with the source its driving inputs lead to. -/
structure RealizedPipeline where
  name : String
  source : Option RealizedSource
  deriving DecidableEq, Repr

structure RealizedProject where
  sources : List RealizedSource
  tableModels : List RealizedTableModel
  viewModels : List RealizedViewModel
  pipelines : List RealizedPipeline
  /-- The logical names in dependency order, as the lineage graph lists them. -/
  orderedNames : List String
  names_nodup :
    (sources.map (·.name) ++ (tableModels.map (·.name) ++ viewModels.map (·.name))).Nodup
  relationNames_nodup :
    (tableModels.map (·.relationName) ++ viewModels.map (·.relationName)).Nodup
  relationName_free : ∀ m ∈ tableModels, isRawTableName m.relationName = false
  adopted_free : ∀ s ∈ sources, s.adopted = true →
    (∀ m ∈ tableModels, s.relationName ≠ m.relationName) ∧
      ∀ s' ∈ sources, s'.adopted = false → s.relationName ≠ s'.relationName
  driving_parsed : ∀ m ∈ tableModels, m.source ∈ m.parsedRefs
  refs_resolve : ∀ m ∈ tableModels, ∀ r ∈ m.parsedRefs,
    r ∈ sources.map (·.name) ++ tableModels.map (·.name)
  view_refs_resolve : ∀ v ∈ viewModels, ∀ r ∈ v.parsedRefs,
    r ∈ sources.map (·.name) ++ tableModels.map (·.name)
  names_ordered : orderedNames.Perm
    (sources.map (·.name) ++ (tableModels.map (·.name) ++ viewModels.map (·.name)))
  upstream_first : ∀ m ∈ tableModels, ∀ r ∈ m.parsedRefs,
    orderedNames.idxOf r < orderedNames.idxOf m.name
  pipeline_listed : ∀ n ∈ tableModels.map (·.pipelineName) ++ viewModels.map (·.pipelineName),
    n ∈ pipelines.map (·.name)
  pipeline_source : ∀ pipeline ∈ pipelines, ∀ s, pipeline.source = some s → s ∈ sources

namespace RealizedProject

variable (P : RealizedProject)

/-- `relation_key_by_name` of sources and table models; views are terminal, so that no query
refers to one. -/
def relationKeyByName (name : String) : Option ObjectKey :=
  match P.sources.find? fun s => s.name = name with
  | some s => some s.relationKey
  | none => (P.tableModels.find? fun m => m.name = name).map (·.tableKey)

/-- `dict.fromkeys(relation_key_by_name[ref.name] for ref in parsed_refs)`. -/
def refKeys (parsedRefs : List String) : List ObjectKey :=
  (parsedRefs.filterMap P.relationKeyByName).eraseDups

def sourceRelationName (m : RealizedTableModel) : String :=
  ((P.relationKeyByName m.source).map (·.name)).getD ""

/-- The two objects of `_model_desired_objects`. -/
def modelTable (m : RealizedTableModel) : DesiredTable :=
  { name := m.relationName
    deps := (P.relationKeyByName m.source).toList
    spec := m.spec
    logicalModelName := m.name
    replayOnChange := m.replayOnChange }

def modelView (m : RealizedTableModel) : DesiredMaterializedView :=
  { name := materializedViewName m.name
    deps := P.refKeys m.parsedRefs ++ [m.tableKey]
    spec :=
      { sourceTableName := P.sourceRelationName m
        targetTableName := m.relationName
        query := m.query }
    logicalModelName := m.name }

/-- `_view_model_desired_object`. -/
def viewModelView (v : RealizedViewModel) : DesiredView :=
  { name := v.relationName
    deps := P.refKeys v.parsedRefs
    spec := { query := v.query }
    logicalModelName := v.name }

def unsortedObjects : List DesiredObject :=
  P.sources.flatMap (·.desiredObjects) ++
    (P.tableModels.flatMap (fun m => [.table (P.modelTable m), .materializedView (P.modelView m)])
      ++ P.viewModels.map fun v => .view (P.viewModelView v))

/-- `_build_desired_state`. -/
def desiredState : DesiredState :=
  { objects := sortedBy (fun object => [object.key.objectType.value, object.key.name])
      P.unsortedObjects
    replayAnchorKeys := (P.sources.map (·.relationKey) ++
      (P.tableModels.filter (·.replayAnchorEligible)).map (·.tableKey)).toFinset
    mutableRefWarningKeys := ((P.tableModels.filter (·.hasMutableRefs)).map (·.tableKey)).toFinset
    externalSourceReplayConfigs := sortedBy (fun config => [config.tableName])
      (P.sources.filterMap (·.externalReplayConfig)) }

variable {P}

theorem append_injective (start : String) : Function.Injective (start ++ ·) := by
  intro a b h
  have hlist := congrArg String.toList h
  simpa [String.toList_inj] using hlist

theorem materializedViewName_injective : Function.Injective materializedViewName :=
  append_injective "mv__"

@[simp] theorem isRawTableName_rawTableName (name : String) :
    isRawTableName (rawTableName name) = true := by
  simp [isRawTableName, rawTableName, isPrefixOf_iff_prefix]

variable {s : RealizedSource} {m m' : RealizedTableModel} {name : String} {key : ObjectKey}
  {object : DesiredObject}

theorem source_unique {s' : RealizedSource} (hs : s ∈ P.sources) (hs' : s' ∈ P.sources)
    (h : s.name = s'.name) : s = s' :=
  inj_on_of_nodup_map (nodup_append.mp P.names_nodup).1 hs hs' h

theorem tableModel_unique (hm : m ∈ P.tableModels)
    (hm' : m' ∈ P.tableModels) (h : m.name = m'.name) : m = m' := by
  have hnodup := (nodup_append.mp (nodup_append.mp P.names_nodup).2.1).1
  exact inj_on_of_nodup_map hnodup hm hm' h

theorem viewModel_unique {v v' : RealizedViewModel} (hv : v ∈ P.viewModels)
    (hv' : v' ∈ P.viewModels) (h : v.name = v'.name) : v = v' := by
  have hnodup := (nodup_append.mp (nodup_append.mp P.names_nodup).2.1).2.1
  exact inj_on_of_nodup_map hnodup hv hv' h

theorem source_name_ne (hs : s ∈ P.sources) (hm : m ∈ P.tableModels) : s.name ≠ m.name :=
  (nodup_append.mp P.names_nodup).2.2 _ (mem_map_of_mem hs) _
    (mem_append_left _ (mem_map_of_mem hm))

theorem tableModel_name_ne {v : RealizedViewModel}
    (hm : m ∈ P.tableModels) (hv : v ∈ P.viewModels) : m.name ≠ v.name :=
  (nodup_append.mp (nodup_append.mp P.names_nodup).2.1).2.2 _
    (mem_map_of_mem hm) _ (mem_map_of_mem hv)

theorem tableKey_unique (hm : m ∈ P.tableModels)
    (hm' : m' ∈ P.tableModels) (h : m.tableKey = m'.tableKey) : m = m' :=
  inj_on_of_nodup_map (nodup_append.mp P.relationNames_nodup).1 hm hm'
    (congrArg ObjectKey.name h)

theorem viewKey_unique (hm : m ∈ P.tableModels)
    (hm' : m' ∈ P.tableModels) (h : m.viewKey = m'.viewKey) : m = m' :=
  tableModel_unique hm hm' (materializedViewName_injective (congrArg ObjectKey.name h))

theorem relationKey_ne_tableKey
    (hs : s ∈ P.sources) (hm : m ∈ P.tableModels) : s.relationKey ≠ m.tableKey := by
  intro h
  have hname : s.relationName = m.relationName := congrArg ObjectKey.name h
  cases hsource : s.source with
  | kafkaLanding managed =>
    have hfree := P.relationName_free m hm
    rw [← hname, RealizedSource.relationName, hsource] at hfree
    simp at hfree
  | externalTable tableName =>
    exact (P.adopted_free s hs (by simp [RealizedSource.adopted, hsource])).1 m hm hname
  | postgresRefresh relationSql =>
    exact (P.adopted_free s hs (by simp [RealizedSource.adopted, hsource])).1 m hm hname

theorem relationKeyByName_source (hs : s ∈ P.sources) :
    P.relationKeyByName s.name = some s.relationKey := by
  obtain ⟨s', hs'⟩ : ∃ s', P.sources.find? (fun s' => s'.name = s.name) = some s' :=
    Option.isSome_iff_exists.mp (find?_isSome.mpr ⟨s, hs, by simp⟩)
  have hname : s'.name = s.name := by simpa using find?_some hs'
  obtain rfl := source_unique (mem_of_find?_eq_some hs') hs hname
  simp [relationKeyByName, hs']

theorem relationKeyByName_tableModel (hm : m ∈ P.tableModels) :
    P.relationKeyByName m.name = some m.tableKey := by
  have hnone : P.sources.find? (fun s => s.name = m.name) = none := by
    rw [find?_eq_none]
    intro s hs
    simpa using source_name_ne hs hm
  obtain ⟨m', hm'⟩ : ∃ m', P.tableModels.find? (fun m' => m'.name = m.name) = some m' :=
    Option.isSome_iff_exists.mp (find?_isSome.mpr ⟨m, hm, by simp⟩)
  have hname : m'.name = m.name := by simpa using find?_some hm'
  obtain rfl := tableModel_unique (mem_of_find?_eq_some hm') hm hname
  simp [relationKeyByName, hnone, hm']

/-- A name that resolves is the name of a source or of a table model. -/
theorem relationKeyByName_cases (h : P.relationKeyByName name = some key) :
    (∃ s ∈ P.sources, s.name = name ∧ key = s.relationKey) ∨
      ∃ m ∈ P.tableModels, m.name = name ∧ key = m.tableKey := by
  unfold relationKeyByName at h
  split at h
  · next s hs =>
    refine .inl ⟨s, mem_of_find?_eq_some hs, by simpa using find?_some hs, ?_⟩
    exact (Option.some.inj h).symm
  · obtain ⟨m, hm, rfl⟩ := Option.map_eq_some_iff.mp h
    exact .inr ⟨m, mem_of_find?_eq_some hm, by simpa using find?_some hm, rfl⟩

theorem exists_relationKey (h : name ∈ P.sources.map (·.name) ++ P.tableModels.map (·.name)) :
    ∃ key, P.relationKeyByName name = some key := by
  rcases mem_append.mp h with h | h
  · obtain ⟨s, hs, rfl⟩ := mem_map.mp h
    exact ⟨_, relationKeyByName_source hs⟩
  · obtain ⟨m, hm, rfl⟩ := mem_map.mp h
    exact ⟨_, relationKeyByName_tableModel hm⟩

theorem relationKeyByName_objectType
    (h : P.relationKeyByName name = some key) : key.objectType = .table := by
  rcases relationKeyByName_cases h with ⟨s, -, -, rfl⟩ | ⟨m, -, -, rfl⟩
  · rfl
  · rfl

theorem mem_refKeys {parsedRefs : List String} :
    key ∈ P.refKeys parsedRefs ↔ ∃ r ∈ parsedRefs, P.relationKeyByName r = some key := by
  simp [refKeys, mem_eraseDups]

theorem mem_objects :
    object ∈ P.desiredState.objects ↔
      (∃ s ∈ P.sources, object ∈ s.desiredObjects) ∨
        (∃ m ∈ P.tableModels,
          object = .table (P.modelTable m) ∨ object = .materializedView (P.modelView m)) ∨
        ∃ v ∈ P.viewModels, object = .view (P.viewModelView v) := by
  simp [desiredState, unsortedObjects, eq_comm]

theorem mem_keys_desiredObjects (h : key ∈ s.desiredObjects.map (·.key)) :
    s.adopted = false ∧ (key = ⟨.kafkaTable, kafkaTableName s.name⟩ ∨
      key = ⟨.table, rawTableName s.name⟩ ∨
      key = ⟨.materializedView, materializedViewName s.name⟩) := by
  unfold RealizedSource.desiredObjects at h
  unfold RealizedSource.adopted
  cases hsource : s.source <;> simp_all [DesiredObject.key]

theorem nodup_keys_sources : (P.sources.flatMap fun s => s.desiredObjects.map (·.key)).Nodup := by
  refine nodup_flatMap.mpr ⟨?_, ?_⟩
  · intro s _
    unfold RealizedSource.desiredObjects
    cases s.source <;> simp [DesiredObject.key]
  · have hnodup := (nodup_append.mp P.names_nodup).1
    refine (pairwise_map.mp hnodup).imp ?_
    intro s s' hne key hkey hkey'
    have h := (mem_keys_desiredObjects hkey).2
    have h' := (mem_keys_desiredObjects hkey').2
    rcases h with rfl | rfl | rfl
    · have hname : kafkaTableName s.name = kafkaTableName s'.name := by simpa using h'
      exact hne (append_injective "kafka__" hname)
    · have hname : rawTableName s.name = rawTableName s'.name := by simpa using h'
      exact hne (append_injective rawTableNamePrefix hname)
    · have hname : materializedViewName s.name = materializedViewName s'.name := by
        simpa using h'
      exact hne (materializedViewName_injective hname)

theorem nodup_keys_tableModels :
    (P.tableModels.flatMap fun m => [m.tableKey, m.viewKey]).Nodup := by
  have hnames := (nodup_append.mp (nodup_append.mp P.names_nodup).2.1).1
  have hrelations := (nodup_append.mp P.relationNames_nodup).1
  refine nodup_flatMap.mpr ⟨?_, ?_⟩
  · intro m _
    simp [RealizedTableModel.tableKey, RealizedTableModel.viewKey]
  · refine ((pairwise_map.mp hnames).and (pairwise_map.mp hrelations)).imp ?_
    intro m m' hne key hkey hkey'
    simp only [RealizedTableModel.tableKey, RealizedTableModel.viewKey, mem_cons,
      not_mem_nil, or_false] at hkey hkey'
    rcases hkey with rfl | rfl
    · exact hne.2 (by simpa using hkey')
    · have hname : materializedViewName m.name = materializedViewName m'.name := by
        simpa using hkey'
      exact hne.1 (materializedViewName_injective hname)

theorem nodup_keys_viewModels : (P.viewModels.map (·.viewKey)).Nodup := by
  have hrelations := (nodup_append.mp P.relationNames_nodup).2.1
  refine (pairwise_map.mp hrelations).map _ ?_
  intro v v' hne h
  exact hne (congrArg ObjectKey.name h)

theorem keys_unsortedObjects : P.unsortedObjects.map (·.key) =
    P.sources.flatMap (fun s => s.desiredObjects.map (·.key)) ++
      (P.tableModels.flatMap (fun m => [m.tableKey, m.viewKey]) ++
        P.viewModels.map (·.viewKey)) := by
  simp only [unsortedObjects, map_append, map_flatMap, map_map]
  rfl

/-- The objects of a source are no relations of a model. -/
theorem sourceKey_ne (hs : s ∈ P.sources) (hkey : key ∈ s.desiredObjects.map (·.key))
    (hm : m ∈ P.tableModels) : key ≠ m.tableKey ∧ key ≠ m.viewKey := by
  obtain ⟨-, hkey⟩ := mem_keys_desiredObjects hkey
  constructor
  · rintro rfl
    have hraw : m.relationName = rawTableName s.name := by
      simpa [RealizedTableModel.tableKey] using hkey
    have hfree := P.relationName_free m hm
    simp [hraw] at hfree
  · rintro rfl
    have hname : materializedViewName m.name = materializedViewName s.name := by
      simpa [RealizedTableModel.viewKey] using hkey
    exact source_name_ne hs hm (materializedViewName_injective hname).symm

theorem sourceKey_ne_viewModel (hkey : key ∈ s.desiredObjects.map (·.key)) (v : RealizedViewModel) :
    key ≠ v.viewKey := by
  rintro rfl
  obtain ⟨-, hkey⟩ := mem_keys_desiredObjects hkey
  simp [RealizedViewModel.viewKey] at hkey

theorem nodup_keys : P.desiredState.keys.Nodup := by
  have hperm : P.desiredState.keys.Perm (P.unsortedObjects.map (·.key)) :=
    (perm_insertionSort _ _).map _
  rw [hperm.nodup_iff, keys_unsortedObjects]
  refine nodup_append.mpr ⟨nodup_keys_sources, nodup_append.mpr
    ⟨nodup_keys_tableModels, nodup_keys_viewModels, ?_⟩, ?_⟩
  · intro key hkey key' hkey'
    obtain ⟨v, -, rfl⟩ := mem_map.mp hkey'
    obtain ⟨m, -, hkey⟩ := mem_flatMap.mp hkey
    rintro rfl
    simp [RealizedTableModel.tableKey, RealizedTableModel.viewKey,
      RealizedViewModel.viewKey] at hkey
  · intro key hkey key' hkey'
    rintro rfl
    obtain ⟨s, hs, hkey⟩ := mem_flatMap.mp hkey
    rcases mem_append.mp hkey' with hkey' | hkey'
    · obtain ⟨m, hm, hkey'⟩ := mem_flatMap.mp hkey'
      simp only [mem_cons, not_mem_nil, or_false] at hkey'
      exact hkey'.elim (sourceKey_ne hs hkey hm).1 (sourceKey_ne hs hkey hm).2
    · obtain ⟨v, -, hkey'⟩ := mem_map.mp hkey'
      exact sourceKey_ne_viewModel hkey v hkey'.symm

theorem object_unique {object' : DesiredObject} (h : object ∈ P.desiredState.objects)
    (h' : object' ∈ P.desiredState.objects) (hkey : object.key = object'.key) : object = object' :=
  inj_on_of_nodup_map nodup_keys h h' hkey

theorem objectByKey_eq_some :
    P.desiredState.objectByKey key = some object ↔
      object ∈ P.desiredState.objects ∧ object.key = key := by
  unfold DesiredState.objectByKey
  constructor
  · intro h
    exact ⟨mem_of_find?_eq_some h, by simpa using find?_some h⟩
  · rintro ⟨hmem, rfl⟩
    obtain ⟨other, hother⟩ : ∃ other,
        P.desiredState.objects.find? (fun other => other.key = object.key) = some other :=
      Option.isSome_iff_exists.mp (find?_isSome.mpr ⟨object, hmem, by simp⟩)
    have hkey : other.key = object.key := by simpa using find?_some hother
    rw [hother, object_unique (mem_of_find?_eq_some hother) hmem hkey]

end RealizedProject

def plainSpec : TableSpec :=
  { columns := [{ name := "order_id", type := "String" }]
    storage := { engine := "MergeTree", orderBy := ["order_id"] } }

def plainModel (name source : String) (sideRefs : List String) : RealizedTableModel :=
  { name := name
    relationName := "tbl__" ++ name
    pipelineName := "orders"
    source := source
    parsedRefs := source :: sideRefs
    spec := plainSpec
    query := "SELECT order_id FROM " ++ source }

def adoptedOrders : RealizedSource :=
  { name := "orders", source := .externalTable "orders_input" }

/-- Two models read an adopted source. The third is driven by the second and refers to the
first from the side, the fourth is driven by the third. -/
def fanInProject : RealizedProject where
  sources := [adoptedOrders]
  tableModels := [plainModel "alpha" "orders" [], plainModel "beta" "orders" [],
    plainModel "gamma" "beta" ["alpha"], plainModel "delta" "gamma" []]
  viewModels := []
  pipelines := [{ name := "orders", source := some adoptedOrders }]
  orderedNames := ["orders", "alpha", "beta", "gamma", "delta"]
  names_nodup := by decide
  relationNames_nodup := by decide
  relationName_free := by decide
  adopted_free := by decide
  driving_parsed := by decide
  refs_resolve := by decide
  view_refs_resolve := by decide
  names_ordered := by decide
  upstream_first := by decide
  pipeline_listed := by decide
  pipeline_source := by simp

end SqlTide.Compiler
