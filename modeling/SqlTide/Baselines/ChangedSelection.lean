import SqlTide.Baselines.ModelRealization

/-!
# Selection of the changed models

A changed build takes the direct models whose fingerprint differs from their last record, and for
each managed source with drifted settings the models of one pipeline that owns it. An edit of a
source that is not managed is in neither: it changes what the models that read the source are
realized to, and nothing of what is recorded about them.
-/

namespace SqlTide.Baselines

open Foundations List SqlAnalysis SqlText
open Compiler (LogicalResourceKey)

namespace CompiledProject

variable {tables : PythonTables} (project : CompiledProject tables)

def keys : List LogicalResourceKey :=
  project.sources.map (·.key) ++ project.models.map (·.key)

def directModels : List CompiledModel :=
  (project.pipelines.filter (·.mode = .direct)).flatMap (·.models)

/-- What `build_direct_build_preview` loads of the persisted records. -/
def loadSnapshot (records : List FingerprintRecord) (database : String) : FingerprintSnapshot :=
  loadDirectFingerprints records
    (project.models.map fun model => logicalModelIdentity database model.key.name)

/-- The query of the one resource refers to the other. -/
def Refers (key key' : LogicalResourceKey) : Prop :=
  ∃ model ∈ project.models, model.key = key ∧ key' ∈ project.keys ∧
    key'.name ∈ model.references.map (·.name)

/-- The one resource is the other, or reads it directly or through others. -/
def Reads : LogicalResourceKey → LogicalResourceKey → Prop :=
  Relation.ReflTransGen project.Refers

def drivenBy (name : String) (model : CompiledModel) : Bool :=
  match model.definition with
  | .table transform => transform.source = name
  | .view => false

/-- `_source_owner_pipelines`, for one source. -/
def sourceOwnerPipelines (key : LogicalResourceKey) : List String :=
  let declaring := project.pipelines.filter (·.source = some key)
  let reading := declaring.filter fun pipeline => pipeline.models.any (drivenBy key.name)
  if reading = [] then declaring.map (·.name) else reading.map (·.name)

structure DriftedManagedSource where
  sourceKey : LogicalResourceKey
  ownerPipelineNames : List String
  driftedSettingNames : List String
  deriving DecidableEq, Repr

def driftedSettingNames (catalog : List Kafka.CatalogRelation) (source : CompiledSource) :
    List String :=
  match source.source with
  | .kafkaLanding managed =>
    match catalog.find? (·.name = managed.name) with
    | some relation => Kafka.managedSourceDrift managed relation
    | none => []
  | _ => []

def driftedManagedSources (catalog : List Kafka.CatalogRelation) : List DriftedManagedSource :=
  let sourceKeys := (project.pipelines.filterMap (·.source)).eraseDups
  (sortedBy (fun key => [key.name]) sourceKeys).filterMap fun key =>
    let names := (project.sources.filter (·.key = key)).flatMap (driftedSettingNames catalog)
    if names = [] then none
    else some ⟨key, sortedBy (fun name => [name]) (project.sourceOwnerPipelines key), names⟩

structure SourceDriftSelection where
  sourceKey : LogicalResourceKey
  pipelineName : String
  readerPipelineNames : List String
  driftedSettingNames : List String
  modelKeys : List LogicalResourceKey
  deriving DecidableEq, Repr

def directModelsByPipeline : List (String × List LogicalResourceKey) :=
  (project.pipelines.filter (·.mode = .direct)).map fun pipeline =>
    (pipeline.name, pipeline.models.map (·.key))

/-- `direct_models_by_pipeline[name]`, for a name that is a key. -/
def pipelineKeys (name : String) : List LogicalResourceKey :=
  (dictGet project.directModelsByPipeline name).getD []

def isProtected (modelKeys : List LogicalResourceKey) : Bool :=
  project.pipelines.any fun pipeline => pipeline.protection.isSome ∧
    pipeline.models.any (·.key ∈ modelKeys)

/-- The downstream neighbours of a resource in the lineage graph. -/
def readersOf (key : LogicalResourceKey) : List LogicalResourceKey :=
  (project.models.filter fun model => key.name ∈ model.references.map (·.name)).map (·.key)

def rebuildsAnyPipeline (selectedKeys : List LogicalResourceKey)
    (pipelineKeys : List (List LogicalResourceKey)) : Bool :=
  if selectedKeys = [] then false
  else
    let rebuiltKeys := explore project.readersOf (project.keys.length + selectedKeys.length)
      selectedKeys.toFinset selectedKeys
    pipelineKeys.any fun keys => keys.any (· ∈ rebuiltKeys)

/-- The direct owners of a drifted source, those that are not protected first. -/
def directOwners (drifted : DriftedManagedSource) : List String :=
  sortedBy (fun name =>
    [if project.isProtected (project.pipelineKeys name) then "1" else "0", name])
    (drifted.ownerPipelineNames.filter (· ∈ project.directModelsByPipeline.map (·.1)))

/-- An iteration of `_source_drift_selections`: the keys that are selected, and the selections. -/
def selectOwner (state : List LogicalResourceKey × List SourceDriftSelection)
    (drifted : DriftedManagedSource) : List LogicalResourceKey × List SourceDriftSelection :=
  match project.directOwners drifted with
  | [] => state
  | owner :: others =>
    if project.rebuildsAnyPipeline state.1 ((owner :: others).map project.pipelineKeys) then state
    else
      (state.1 ++ project.pipelineKeys owner,
        state.2 ++ [
          { sourceKey := drifted.sourceKey
            pipelineName := owner
            readerPipelineNames := drifted.ownerPipelineNames
            driftedSettingNames := drifted.driftedSettingNames
            modelKeys := (project.pipelineKeys owner).filter (· ∉ state.1) }])

def sourceDriftSelections (catalog : List Kafka.CatalogRelation)
    (sqlChangedModelKeys : List LogicalResourceKey) : List SourceDriftSelection :=
  ((project.driftedManagedSources catalog).foldl project.selectOwner (sqlChangedModelKeys, [])).2

/-- The models that `build_direct_build_preview` selects with `--changed`. -/
def changedSelection (hash : String → String) (snapshot : FingerprintSnapshot) (database : String)
    (catalog : List Kafka.CatalogRelation) : Except DirectPlanError (List LogicalResourceKey) := do
  let changed ← changedDirectModelKeys hash project.pipelines snapshot database
  .ok (changed ++ (project.sourceDriftSelections catalog changed).flatMap (·.modelKeys))

end CompiledProject

/-- A project that compiles: every model is realized. -/
structure CompiledVersion (tables : PythonTables) (analyzer : QueryAnalyzer) extends
    CompiledProject tables where
  realized : ∀ model ∈ toCompiledProject.models, ∃ resources,
    modelResources analyzer toCompiledProject model = .ok resources

/-- A full direct build of one version, and the state in which a later version is selected. -/
structure Edit (tables : PythonTables) (analyzer : QueryAnalyzer) where
  version : CompiledVersion tables analyzer
  later : CompiledVersion tables analyzer
  earlierRecords : List FingerprintRecord
  database : String
  workflowId : String
  toolVersion : String
  catalog : List Kafka.CatalogRelation

namespace Edit

variable {tables : PythonTables} {analyzer : QueryAnalyzer} (hash : String → String)
  (edit : Edit tables analyzer)

/-- The records after the build of the first version. -/
def records : List FingerprintRecord :=
  edit.earlierRecords ++ buildDirectFingerprintRecords hash edit.version.directModels edit.database
    edit.workflowId edit.toolVersion

def snapshot : FingerprintSnapshot := edit.later.loadSnapshot (edit.records hash) edit.database

/-- The last record of a model of the later version has the fingerprint that it has there. -/
def KeptBy (model : CompiledModel) : Prop := Kept hash (edit.records hash) edit.database model

/-- The keys that a drifted source adds to those of the changed models. -/
def DriftSelects (key : LogicalResourceKey) : Prop :=
  ∃ changed, changedDirectModelKeys hash edit.later.pipelines (edit.snapshot hash) edit.database =
    .ok changed ∧
      key ∈ (edit.later.sourceDriftSelections edit.catalog changed).flatMap (·.modelKeys)

/-- If the resources of a model of both versions differ, changed selection takes the model or one
that it reads. -/
def ChangeDetected (first model : CompiledModel) : Prop :=
  modelResources analyzer edit.version.toCompiledProject first ≠
      modelResources analyzer edit.later.toCompiledProject model →
    ∃ selection, edit.later.changedSelection hash (edit.snapshot hash) edit.database edit.catalog =
        .ok selection ∧
      ∃ key ∈ selection, edit.later.Reads model.key key

/-- The sources hand the model the same as before, or the fingerprint of the model or of one that it
reads is another one now, or a drifted source brings such a model in. -/
inductive Visible (model : CompiledModel) : Prop
  | reads (h : SameReads analyzer edit.version.toCompiledProject edit.later.toCompiledProject model)
  | fingerprint (upstream : CompiledModel) (hmem : upstream ∈ edit.later.directModels)
      (hreads : edit.later.Reads model.key upstream.key) (hchanged : ¬ edit.KeptBy hash upstream)
  | drift (key : LogicalResourceKey) (hreads : edit.later.Reads model.key key)
      (hdrift : edit.DriftSelects hash key)

end Edit

section
variable {tables : PythonTables} {project : CompiledProject tables}

theorem mem_models_of_direct {model : CompiledModel} (h : model ∈ project.directModels) :
    model ∈ project.models := by
  obtain ⟨pipeline, hpipeline, hmodel⟩ := mem_flatMap.mp h
  exact mem_flatMap.mpr ⟨pipeline, (mem_filter.mp hpipeline).1, hmodel⟩

theorem model_unique {first second : CompiledModel} (hfirst : first ∈ project.models)
    (hsecond : second ∈ project.models) (hname : first.key.name = second.key.name) :
    first = second :=
  inj_on_of_nodup_map (nodup_append.mp project.names_nodup).2.1 hfirst hsecond hname

theorem mem_directModelKeys {key : LogicalResourceKey} :
    key ∈ directModelKeys project.pipelines ↔ ∃ model ∈ project.directModels, model.key = key := by
  simp only [directModelKeys, CompiledProject.directModels, mem_flatMap, mem_map]
  constructor
  · rintro ⟨pipeline, hpipeline, model, hmodel, hkey⟩
    exact ⟨model, ⟨pipeline, hpipeline, hmodel⟩, hkey⟩
  · rintro ⟨model, ⟨pipeline, hpipeline, hmodel⟩, hkey⟩
    exact ⟨pipeline, hpipeline, model, hmodel, hkey⟩

theorem exists_changed (hash : String → String) (records : List FingerprintRecord)
    (database : String) (hdirect : project.directModels ≠ []) :
    ∃ changed, changedDirectModelKeys hash project.pipelines
        (project.loadSnapshot records database) database = .ok changed ∧
      ∀ key, key ∈ changed ↔
        ∃ model ∈ project.directModels, model.key = key ∧ ¬ Kept hash records database model := by
  obtain ⟨direct, hmem⟩ := exists_mem_of_ne_nil _ hdirect
  have hkeys : directModelKeys project.pipelines ≠ [] :=
    ne_nil_of_mem (mem_directModelKeys.mpr ⟨direct, hmem, rfl⟩)
  have hkept : ∀ model ∈ project.models,
      driftReasons hash model (baselineOf (project.loadSnapshot records database)
        (logicalModelIdentity database model.key.name)) = [] ↔
          Kept hash records database model := by
    intro model hmodel
    rw [driftReasons_eq_nil, CompiledProject.loadSnapshot, baselineOf_loadDirectFingerprints]
    · rfl
    · exact mem_map_of_mem hmodel
  obtain ⟨changed, hok, hmemChanged⟩ := @exists_changedDirectModelKeys hash _
    (project.loadSnapshot records database) database
    (by simp [CompiledProject.loadSnapshot, loadDirectFingerprints]) hkeys
  refine ⟨changed, hok, ?_⟩
  intro key
  rw [hmemChanged]
  constructor
  · rintro ⟨model, hmodel, rfl, hdirectKey, hdrift⟩
    obtain ⟨direct, hdirect, hkey⟩ := mem_directModelKeys.mp hdirectKey
    obtain rfl := model_unique (mem_models_of_direct hdirect) hmodel
      (congrArg LogicalResourceKey.name hkey)
    exact ⟨direct, hdirect, rfl, fun h => hdrift ((hkept direct hmodel).mpr h)⟩
  · rintro ⟨model, hmodel, rfl, hchanged⟩
    refine ⟨model, mem_models_of_direct hmodel, rfl, mem_directModelKeys.mpr ⟨model, hmodel,
      rfl⟩, ?_⟩
    exact fun h => hchanged ((hkept model (mem_models_of_direct hmodel)).mp h)

theorem logicalModelIdentity_injective (database : String) :
    Function.Injective (logicalModelIdentity database) := by
  intro name name' h
  exact String.append_right_inj _ |>.mp h

end

namespace Edit

variable {tables : PythonTables} {analyzer : QueryAnalyzer} {hash : String → String}
  {edit : Edit tables analyzer} {first model : CompiledModel}

/-- The last record of a model of the first version is the one of its full build. -/
theorem latestBaseline_records (hfirst : first ∈ edit.version.directModels) :
    latestBaseline (edit.records hash) (logicalModelIdentity edit.database first.key.name) =
      some (fingerprintRecord hash edit.database edit.workflowId edit.toolVersion first) := by
  apply latestBaseline_append_of_mem
  · exact mem_map_of_mem hfirst
  · rfl
  · intro other hother hidentity
    obtain ⟨model, hmodel, rfl⟩ := mem_map.mp hother
    have hname := logicalModelIdentity_injective edit.database hidentity
    rw [model_unique (mem_models_of_direct hmodel) (mem_models_of_direct hfirst) hname]

theorem kept_iff_sameFingerprint (hhash : Function.Injective hash)
    (hfirst : first ∈ edit.version.directModels) (hkey : first.key = model.key) :
    edit.KeptBy hash model ↔ SameFingerprint first model := by
  rw [KeptBy, Kept, ← hkey, latestBaseline_records hfirst]
  simp [matches_fingerprintRecord hhash]

/-- The resources of a model whose fingerprint is kept change just with what the sources hand it. -/
theorem modelResources_eq_iff_of_kept (hhash : Function.Injective hash)
    (hfirst : first ∈ edit.version.directModels) (hmodel : model ∈ edit.later.directModels)
    (hkey : first.key = model.key) (hkept : edit.KeptBy hash model) :
    modelResources analyzer edit.version.toCompiledProject first =
        modelResources analyzer edit.later.toCompiledProject model ↔
      SameReads analyzer edit.version.toCompiledProject edit.later.toCompiledProject model := by
  have hfirst' := mem_models_of_direct hfirst
  have hmodel' := mem_models_of_direct hmodel
  obtain ⟨resources, hresources⟩ := edit.version.realized first hfirst'
  obtain ⟨resources', hresources'⟩ := edit.later.realized model hmodel'
  rw [← modelResources_eq_iff hfirst' hmodel' ((kept_iff_sameFingerprint hhash hfirst hkey).mp
    hkept) hresources hresources', hresources, hresources', Except.ok.injEq]

/-- Changed selection detects the change of a model just where the change is not one of its sources
alone. -/
theorem changeDetected_iff (hhash : Function.Injective hash)
    (hfirst : first ∈ edit.version.directModels) (hmodel : model ∈ edit.later.directModels)
    (hkey : first.key = model.key) :
    edit.ChangeDetected hash first model ↔ edit.Visible hash model := by
  obtain ⟨changed, hchanged, hmem⟩ : ∃ changed,
      changedDirectModelKeys hash edit.later.pipelines (edit.snapshot hash) edit.database =
        .ok changed ∧
      ∀ key, key ∈ changed ↔
        ∃ model ∈ edit.later.directModels, model.key = key ∧ ¬ edit.KeptBy hash model :=
    exists_changed hash (edit.records hash) edit.database (ne_nil_of_mem hmodel)
  have hselection : edit.later.changedSelection hash (edit.snapshot hash) edit.database
      edit.catalog = .ok (changed ++
        (edit.later.sourceDriftSelections edit.catalog changed).flatMap (·.modelKeys)) := by
    rw [CompiledProject.changedSelection, hchanged]
    rfl
  constructor
  · intro hdetected
    by_contra hvisible
    have hkept : edit.KeptBy hash model := by
      by_contra hnot
      exact hvisible (.fingerprint model hmodel .refl hnot)
    have hdiffer : modelResources analyzer edit.version.toCompiledProject first ≠
        modelResources analyzer edit.later.toCompiledProject model := by
      rw [Ne, modelResources_eq_iff_of_kept hhash hfirst hmodel hkey hkept]
      exact fun hreads => hvisible (.reads hreads)
    obtain ⟨selection, hok, key, hselected, hreads⟩ := hdetected hdiffer
    rw [hselection] at hok
    cases hok
    rcases mem_append.mp hselected with hselected | hselected
    · obtain ⟨upstream, hupstream, rfl, hnot⟩ := (hmem key).mp hselected
      exact hvisible (.fingerprint upstream hupstream hreads hnot)
    · exact hvisible (.drift key hreads ⟨changed, hchanged, hselected⟩)
  · intro hvisible hdiffer
    refine ⟨_, hselection, ?_⟩
    cases hvisible with
    | reads hreads =>
      refine ⟨model.key, mem_append_left _ ((hmem model.key).mpr ⟨model, hmodel, rfl, ?_⟩),
        .refl⟩
      intro hkept
      exact hdiffer ((modelResources_eq_iff_of_kept hhash hfirst hmodel hkey hkept).mpr hreads)
    | fingerprint upstream hupstream hreads hnot =>
      exact ⟨upstream.key,
        mem_append_left _ ((hmem upstream.key).mpr ⟨upstream, hupstream, rfl, hnot⟩), hreads⟩
    | drift key hreads hdrift =>
      obtain ⟨changed', hchanged', hselected⟩ := hdrift
      rw [hchanged] at hchanged'
      cases hchanged'
      exact ⟨key, mem_append_right _ hselected, hreads⟩

end Edit

/-- A dialect that parses a relation as the name that it is. -/
def plainAnalyzer : QueryAnalyzer where
  checked _ _ _ := .ok ()
  relation target := .ok ⟨[], [(target.toList, [])]⟩

def dailyOrders (type : String) : CompiledModel where
  key := ⟨.model, "daily_orders"⟩
  relationName := "tbl__daily_orders"
  authoredSql := "SELECT id FROM __source(orders)"
  outputColumns := [⟨"id", type⟩]
  references := [⟨"orders", .source, none,
    sourceSpan "SELECT id FROM __source(orders)".toList 15 31⟩]
  definition := .table { source := "orders", engine := "MergeTree()", orderBy := ["id"] }

theorem extractReferences_dailyOrders :
    extractReferences asciiTables (dailyOrders "Int64").authoredSql.toList =
      .ok (dailyOrders "Int64").references := by decide +kernel

def ordersProject (tableName type : String) : CompiledProject asciiTables where
  sources := [⟨"orders", .externalTable { tableName := tableName, columns := {} }⟩]
  pipelines := [{ name := "orders", mode := .direct, models := [dailyOrders type] }]
  model_key := by
    intro model hmodel
    obtain rfl := mem_singleton.mp hmodel
    rfl
  names_nodup := by simp [projectModels, dailyOrders]
  extracted := by
    intro model hmodel
    obtain rfl := mem_singleton.mp hmodel
    exact extractReferences_dailyOrders
  driving := by
    intro model hmodel transform htable
    obtain rfl := mem_singleton.mp hmodel
    obtain rfl := ModelDefinition.table.inj htable
    exact ⟨rfl, mem_singleton_self _⟩

def ordersResources (tableName type : String) : List AdapterResource :=
  [.table "tbl__daily_orders" [⟨"id", type⟩] "MergeTree()" ["id"] none none [],
    .materializedView "mv__daily_orders" tableName "tbl__daily_orders"
      ("SELECT id FROM " ++ tableName).toList
      ("SELECT id FROM __sqltide_target_database__." ++ tableName).toList none true]

def ordersVersion (tableName type : String)
    (h : modelResources plainAnalyzer (ordersProject tableName type) (dailyOrders type) =
      .ok (ordersResources tableName type)) : CompiledVersion asciiTables plainAnalyzer where
  toCompiledProject := ordersProject tableName type
  realized := by
    intro model hmodel
    obtain rfl := mem_singleton.mp hmodel
    exact ⟨_, h⟩

theorem modelResources_orders :
    modelResources plainAnalyzer (ordersProject "raw_orders" "Int64") (dailyOrders "Int64") =
      .ok (ordersResources "raw_orders" "Int64") := by decide +kernel

theorem modelResources_adopted :
    modelResources plainAnalyzer (ordersProject "raw_orders_v2" "Int64") (dailyOrders "Int64") =
      .ok (ordersResources "raw_orders_v2" "Int64") := by decide +kernel

theorem modelResources_retyped :
    modelResources plainAnalyzer (ordersProject "raw_orders" "UInt64") (dailyOrders "UInt64") =
      .ok (ordersResources "raw_orders" "UInt64") := by decide +kernel

/-- The source `orders` is adopted from `raw_orders` and the model has a column of type `Int64`
first. -/
def ordersEdit {tableName type : String}
    (h : modelResources plainAnalyzer (ordersProject tableName type) (dailyOrders type) =
      .ok (ordersResources tableName type)) : Edit asciiTables plainAnalyzer where
  version := ordersVersion "raw_orders" "Int64" modelResources_orders
  later := ordersVersion tableName type h
  earlierRecords := []
  database := "analytics"
  workflowId := "build_1"
  toolVersion := "1.0.0"
  catalog := []

/-- A change of the column's type is selected, that of the source's table is not. -/
theorem changeDetected_iff_orders :
    (ordersEdit modelResources_retyped).ChangeDetected id (dailyOrders "Int64")
        (dailyOrders "UInt64") ∧
    ((ordersEdit modelResources_adopted).ChangeDetected id (dailyOrders "Int64")
        (dailyOrders "Int64") ↔
      (ordersEdit modelResources_adopted).Visible id (dailyOrders "Int64")) := by
  constructor
  · have hfirst : dailyOrders "Int64" ∈ (ordersEdit modelResources_retyped).version.directModels :=
      mem_singleton.mpr rfl
    have hlater : dailyOrders "UInt64" ∈ (ordersEdit modelResources_retyped).later.directModels :=
      mem_singleton.mpr rfl
    have hidentity : ((latestBaseline ((ordersEdit modelResources_retyped).records id)
        (logicalModelIdentity "analytics" "daily_orders")).bind fun baseline =>
          baseline.identityMetadata.map withoutStorage) ≠
        some (withoutStorage (buildDirectModelIdentity (dailyOrders "UInt64"))) := by
      decide +kernel
    refine (Edit.changeDetected_iff Function.injective_id hfirst hlater rfl).mpr
      (.fingerprint (dailyOrders "UInt64") hlater .refl ?_)
    rintro ⟨baseline, hbaseline, hmatches⟩
    rw [show latestBaseline ((ordersEdit modelResources_retyped).records id)
      (logicalModelIdentity "analytics" "daily_orders") = some baseline from hbaseline] at hidentity
    exact hidentity hmatches.identity
  · exact Edit.changeDetected_iff Function.injective_id (mem_singleton.mpr rfl)
      (mem_singleton.mpr rfl) rfl

/-- After the edit the view of `daily_orders` reads another table, and nothing is selected. -/
theorem not_changeDetected :
    ¬ ∀ (tables : PythonTables) (analyzer : QueryAnalyzer) (hash : String → String),
      Function.Injective hash → ∀ (edit : Edit tables analyzer) (first model : CompiledModel),
      first ∈ edit.version.directModels → model ∈ edit.later.directModels →
      first.key = model.key → edit.ChangeDetected hash first model := by
  intro h
  obtain ⟨selection, hselection, key, hkey, -⟩ := h asciiTables plainAnalyzer id
    Function.injective_id (ordersEdit modelResources_adopted) (dailyOrders "Int64")
    (dailyOrders "Int64") (mem_singleton.mpr rfl) (mem_singleton.mpr rfl) rfl (by
      intro heq
      have hresources := Except.ok.inj
        ((modelResources_orders.symm.trans heq).trans modelResources_adopted)
      revert hresources
      decide +kernel)
  have hempty : (ordersProject "raw_orders_v2" "Int64").changedSelection id
      ((ordersEdit modelResources_adopted).snapshot id) "analytics" [] =
        .ok [] := by
    decide +kernel
  obtain rfl := Except.ok.inj (hselection.symm.trans hempty)
  cases hkey

end SqlTide.Baselines
