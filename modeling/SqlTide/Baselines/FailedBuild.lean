import SqlTide.Baselines.ChangedSelection
import SqlTide.Population.DirectRebuild
import SqlTide.Direct.CompletedSteps
import SqlTide.Direct.RestoredSources

/-!
# Baselines after a failed build

A failed direct build records the models below its replayed roots, without those that have a replay
of their own left. The catch-up replay of a model delivers rows to the models below it as well, and
those are recorded without it. A model that is not recorded keeps the record of an earlier build.
-/

namespace SqlTide.Baselines

open Compiler Direct Foundations List Population SqlText

/-- The operations that tear the scope down: views first, then the materialized views, then the
tables, against the order of the scope. -/
def teardownOperations (P : RealizedProject) (scope : DirectScope) : List String :=
  [DesiredObjectType.view, .materializedView, .table].flatMap fun kind =>
    (executionScope P scope).reverse.flatMap fun name =>
      ((P.relationKeys name).filter (·.objectType = kind)).map (·.name)

/-- `_model_name_for_target`, for the roots of a plan. -/
def rootModelNames (P : RealizedProject) (population : PopulationPlan) : List String :=
  population.roots.filterMap fun root =>
    (P.tableModels.find? (·.tableKey = root.rootKey)).map (·.name)

/-- A direct build as it is planned: its replays are those of the expanded plan, and it executes the
models of the scope, which are direct models of the compiled project. -/
structure DirectBuild (tables : PythonTables) where
  compiled : CompiledProject tables
  project : RealizedProject
  scope : DirectScope
  population : PopulationPlan
  expanded : expandFanInRoots project.desiredState (directPopulationPlan project scope) =
    .ok population
  request : DirectBuildRequest
  executes : request.executes = decide (executionScope project scope ≠ [])
  teardown : request.teardownOperations = teardownOperations project scope
  realizations : request.realizations =
    (planPopulationObjects population.objects project).map (·.key.name)
  replays : request.runtimeReplays.map (·.modelName) = rootModelNames project population
  modelled : ∀ name ∈ executionScope project scope, ∃ model ∈ compiled.directModels,
    model.key = ⟨.model, name⟩

/-- An execution of a direct build that does not return, and the records before it. -/
structure FailedBuild (tables : PythonTables) extends DirectBuild tables where
  workflow : DirectBuildWorkflow
  assembled : assembleDirectBuildWorkflow request = .ok workflow
  env : Environment
  failed : ∀ statements,
    (executeDirectBuildWorkflow env workflow request.catalog).ending ≠ .returned statements
  /-- Whether the records could be written, which is a best effort. -/
  persisted : Bool
  earlierRecords : List FingerprintRecord
  database : String
  workflowId : String
  toolVersion : String

namespace FailedBuild

variable {tables : PythonTables} (build : FailedBuild tables)

def run : DirectRun := executeDirectBuildWorkflow build.env build.workflow build.request.catalog

def completedStepIds : List String := stepIds build.run.completed

def scopeNames : List String := executionScope build.project build.scope

def appliedModelNames : List String :=
  let replayedRootNames := (build.workflow.runtimeReplays.filter fun runtime =>
    replayStepId runtime ∈ build.completedStepIds).map (·.modelName)
  let incompleteRuntimeModels := (build.workflow.runtimeReplays.filter fun runtime =>
    replayStepId runtime ∉ build.completedStepIds).map (·.modelName)
  (((directReplayRoots build.project build.scope).filter (·.name ∈ replayedRootNames)).flatMap
    fun root => (propagatedModels build.project build.scope root).map (·.name)).filter
      (· ∉ incompleteRuntimeModels)

/-- The records are written: a `DirectWorkflowExecutionError` is handled, and writing succeeds. -/
def Recording : Prop :=
  build.persisted = true ∧ ∃ statements stepId cause,
    build.run.ending = .failed statements stepId cause

/-- The models whose fingerprints are recorded. -/
def recordedNames : List String :=
  match build.run.ending with
  | .failed _ _ _ =>
    if build.persisted then build.scopeNames.filter (· ∈ build.appliedModelNames) else []
  | _ => []

def modelByName (name : String) : Option CompiledModel :=
  build.compiled.models.find? (·.key.name = name)

/-- The records after the failure. -/
def records (hash : String → String) : List FingerprintRecord :=
  build.earlierRecords ++ buildDirectFingerprintRecords hash
    (build.recordedNames.filterMap build.modelByName) build.database build.workflowId
    build.toolVersion

/-- The replay of a root is completed. -/
def Replayed (runtime : Replay.DirectRuntimeReplay) : Prop :=
  replayStepId runtime ∈ build.completedStepIds

/-- The one model is the other, or reads it directly or through others of the build. -/
def ReadsInScope : String → String → Prop :=
  Relation.ReflTransGen fun name name' =>
    build.project.Refers name name' ∧ name' ∈ build.scopeNames

/-- Every statement that creates a relation of the model is completed. -/
def Created (name : String) : Prop :=
  ∀ statement ∈ build.workflow.statements, statement.phase = .realization →
    (∃ key ∈ build.project.relationKeys name, statement.sql = .create key.name) →
      statement.stepId ∈ build.completedStepIds

/-- The model is created, and every root that delivers rows to it, directly or through what it
reads, is replayed. -/
structure Populated (name : String) : Prop where
  created : build.Created name
  replayed : ∀ runtime ∈ build.workflow.runtimeReplays,
    build.ReadsInScope name runtime.modelName → build.Replayed runtime

/-- A statement that has taken effect drops or creates a relation of the model. -/
def Touched (name : String) : Prop :=
  ∃ statement ∈ build.run.attempted, (runOf build.env statement).executed = true ∧
    ∃ key ∈ build.project.relationKeys name,
      statement.sql = .dropIfExists key.name ∨ statement.sql = .create key.name

/-- A later changed build takes the model. -/
def Selects (hash : String → String) (key : LogicalResourceKey) : Prop :=
  ∃ changed, changedDirectModelKeys hash build.compiled.pipelines
      (build.compiled.loadSnapshot (build.records hash) build.database) build.database =
    .ok changed ∧ key ∈ changed

/-- Only populated models are recorded, and a later changed build takes the models that were touched
and are not populated. -/
structure BaselinesSound (hash : String → String) : Prop where
  recorded : ∀ name ∈ build.recordedNames, build.Populated name
  selected : ∀ name ∈ build.scopeNames, build.Touched name → ¬ build.Populated name →
    build.Selects hash ⟨.model, name⟩

/-- Where records are written, no model below a replayed root waits for a replay further up; and no
earlier record matches a model that is left half rebuilt. -/
structure Recoverable (hash : String → String) : Prop where
  caughtUp : build.Recording → ∀ root ∈ directReplayRoots build.project build.scope,
    (∃ runtime ∈ build.workflow.runtimeReplays,
      runtime.modelName = root.name ∧ build.Replayed runtime) →
    ∀ m ∈ propagatedModels build.project build.scope root,
    (∀ runtime ∈ build.workflow.runtimeReplays, runtime.modelName = m.name →
      build.Replayed runtime) →
    ∀ runtime ∈ build.workflow.runtimeReplays, build.ReadsInScope m.name runtime.modelName →
      build.Replayed runtime
  stale : ∀ model ∈ build.compiled.directModels, model.key.name ∈ build.scopeNames →
    build.Touched model.key.name → ¬ build.Populated model.key.name →
      ¬ Kept hash build.earlierRecords build.database model

section
variable {build} {hash : String → String}

variable {name : String} {model : CompiledModel}

theorem mem_appliedModelNames :
    name ∈ build.appliedModelNames ↔
      (∃ root ∈ directReplayRoots build.project build.scope,
        (∃ runtime ∈ build.workflow.runtimeReplays,
          runtime.modelName = root.name ∧ build.Replayed runtime) ∧
        ∃ m ∈ propagatedModels build.project build.scope root, m.name = name) ∧
      ∀ runtime ∈ build.workflow.runtimeReplays, runtime.modelName = name →
        build.Replayed runtime := by
  simp only [appliedModelNames, Replayed, mem_filter, mem_flatMap, mem_map,
    decide_eq_true_eq, not_exists, not_and]
  constructor
  · rintro ⟨⟨root, ⟨hroot, runtime, ⟨hruntime, hreplayed⟩, hname⟩, hpropagated⟩, hcomplete⟩
    refine ⟨⟨root, hroot, ⟨runtime, hruntime, hname, hreplayed⟩, hpropagated⟩, ?_⟩
    intro other hother hname
    by_contra hreplayed
    exact hcomplete other ⟨hother, hreplayed⟩ hname
  · rintro ⟨⟨root, hroot, ⟨runtime, hruntime, hname, hreplayed⟩, hpropagated⟩, hcomplete⟩
    refine ⟨⟨root, ⟨hroot, runtime, ⟨hruntime, hreplayed⟩, hname⟩, hpropagated⟩, ?_⟩
    rintro other ⟨hother, hreplayed⟩ hname
    exact hreplayed (hcomplete other hother hname)

theorem mem_recordedNames :
    name ∈ build.recordedNames ↔
      build.Recording ∧ name ∈ build.scopeNames ∧ name ∈ build.appliedModelNames := by
  unfold recordedNames Recording
  cases build.run.ending with
  | returned statements => simp
  | escaped error => simp
  | failed statements stepId cause =>
    cases build.persisted with
    | true => simp
    | false => simp

/-- A recorded model has been created, since a root above it has been replayed. -/
theorem created_of_recorded (h : name ∈ build.recordedNames) : build.Created name := by
  obtain ⟨-, -, happlied⟩ := mem_recordedNames.mp h
  obtain ⟨⟨root, -, ⟨runtime, -, -, hreplayed⟩, -⟩, -⟩ := mem_appliedModelNames.mp happlied
  intro statement hstatement hphase _
  exact realized_of_replayed (assembled_of_ok build.assembled).1 hreplayed hstatement hphase

theorem latestBaseline_records (h : model.key.name ∉ build.recordedNames) :
    latestBaseline (build.records hash) (logicalModelIdentity build.database model.key.name) =
      latestBaseline build.earlierRecords
        (logicalModelIdentity build.database model.key.name) := by
  apply latestBaseline_append_of_absent
  intro record hrecord hidentity
  obtain ⟨recorded, hrecorded, rfl⟩ := mem_map.mp hrecord
  obtain ⟨name, hname, hfound⟩ := mem_filterMap.mp hrecorded
  have hrecordedName : recorded.key.name = name := by simpa using find?_some hfound
  have hsame : recorded.key.name = model.key.name :=
    logicalModelIdentity_injective build.database hidentity
  rw [← hsame, hrecordedName] at h
  exact h hname

theorem selects_iff (hmodel : model ∈ build.compiled.directModels)
    (hunrecorded : model.key.name ∉ build.recordedNames) :
    build.Selects hash model.key ↔ ¬ Kept hash build.earlierRecords build.database model := by
  obtain ⟨changed, hchanged, hmem⟩ := exists_changed hash (build.records hash) build.database
    (ne_nil_of_mem hmodel)
  have hkept : Kept hash (build.records hash) build.database model ↔
      Kept hash build.earlierRecords build.database model := by
    rw [Kept, Kept, latestBaseline_records hunrecorded]
  rw [← hkept]
  constructor
  · rintro ⟨changed', hchanged', hselected⟩
    obtain rfl := Except.ok.inj (hchanged.symm.trans hchanged')
    obtain ⟨other, hother, hkey, hnot⟩ := (hmem model.key).mp hselected
    obtain rfl := model_unique (mem_models_of_direct hother) (mem_models_of_direct hmodel)
      (congrArg LogicalResourceKey.name hkey)
    exact hnot
  · intro hnot
    exact ⟨changed, hchanged, (hmem model.key).mpr ⟨model, hmodel, rfl, hnot⟩⟩

theorem exists_model (h : name ∈ build.scopeNames) :
    ∃ model ∈ build.compiled.directModels, model.key.name = name ∧
      model.key = ⟨.model, name⟩ := by
  obtain ⟨model, hmodel, hkey⟩ := build.modelled name h
  exact ⟨model, hmodel, by rw [hkey], hkey⟩

theorem name_mem_scopeNames {root m : RealizedTableModel}
    (h : m ∈ propagatedModels build.project build.scope root) : m.name ∈ build.scopeNames := by
  obtain ⟨hm, hkeys⟩ := mem_scopeModels.mp (mem_filter.mp h).1
  exact (mem_executionScope hm).mpr hkeys

end

/-- The baselines left by a failed build are sound just where it stops recoverably. -/
theorem baselinesSound_iff (hash : String → String) :
    build.BaselinesSound hash ↔ build.Recoverable hash := by
  constructor
  · intro hsound
    constructor
    · intro hrecording root hroot hreplayed m hm hown runtime hruntime hupstream
      have hrecorded : m.name ∈ build.recordedNames :=
        mem_recordedNames.mpr ⟨hrecording, name_mem_scopeNames hm,
          mem_appliedModelNames.mpr ⟨⟨root, hroot, hreplayed, m, hm, rfl⟩, hown⟩⟩
      exact (hsound.recorded m.name hrecorded).replayed runtime hruntime hupstream
    · intro model hmodel hscope htouched hunpopulated
      have hunrecorded : model.key.name ∉ build.recordedNames :=
        fun hrecorded => hunpopulated (hsound.recorded _ hrecorded)
      obtain ⟨other, hother, hname, hkey⟩ := exists_model hscope
      obtain rfl := model_unique (mem_models_of_direct hother) (mem_models_of_direct hmodel) hname
      have hselected := hsound.selected _ hscope htouched hunpopulated
      rw [← hkey] at hselected
      exact (selects_iff hmodel hunrecorded).mp hselected
  · intro hrecoverable
    have hrecorded : ∀ name ∈ build.recordedNames, build.Populated name := by
      intro name hname
      refine ⟨created_of_recorded hname, ?_⟩
      obtain ⟨hrecording, -, happlied⟩ := mem_recordedNames.mp hname
      obtain ⟨⟨root, hroot, hreplayed, m, hm, rfl⟩, hown⟩ := mem_appliedModelNames.mp happlied
      exact hrecoverable.caughtUp hrecording root hroot hreplayed m hm hown
    refine ⟨hrecorded, ?_⟩
    intro name hscope htouched hunpopulated
    have hunrecorded : name ∉ build.recordedNames := fun h => hunpopulated (hrecorded name h)
    obtain ⟨model, hmodel, hname, hkey⟩ := exists_model hscope
    subst hname
    rw [← hkey]
    exact (selects_iff hmodel hunrecorded).mpr
      (hrecoverable.stale model hmodel hscope htouched hunpopulated)

end FailedBuild

def fanInModel (name sql source : String) : CompiledModel where
  key := ⟨.model, name⟩
  relationName := "tbl__" ++ name
  authoredSql := sql
  outputColumns := [⟨"order_id", "UInt64"⟩]
  references := (extractReferences asciiTables sql.toList).toOption.getD []
  definition := .table { source := source, engine := "MergeTree()", orderBy := ["order_id"] }

def fanInModels : List CompiledModel :=
  [fanInModel "alpha" "SELECT order_id FROM __source(orders)" "orders",
    fanInModel "beta" "SELECT order_id FROM __source(orders)" "orders",
    fanInModel "gamma"
      "SELECT order_id FROM __ref(beta) JOIN __ref(alpha, ref_type='reference') USING order_id"
        "beta",
    fanInModel "delta" "SELECT order_id FROM __ref(gamma)" "gamma"]

theorem fanInModels_driving {model : CompiledModel} {transform : TransformStep}
    (hmodel : model ∈ fanInModels ++ []) (htable : model.definition = .table transform) :
    validateTransformRefs model.key.name transform.source model.references = .ok () ∧
      transform.source ∈ model.references.map (·.name) := by
  simp only [fanInModels, append_nil, mem_cons, not_mem_nil, or_false] at hmodel
  rcases hmodel with rfl | rfl | rfl | rfl <;>
  · obtain rfl := ModelDefinition.table.inj htable
    decide +kernel

def fanInCompiled : CompiledProject asciiTables where
  sources := [⟨"orders", .externalTable { tableName := "orders_input", columns := {} }⟩]
  pipelines := [{ name := "orders", mode := .direct, models := fanInModels }]
  model_key := by decide +kernel
  names_nodup := by decide +kernel
  extracted := by decide +kernel
  driving _ hmodel _ htable := fanInModels_driving hmodel htable

def fanInPopulation : PopulationPlan :=
  (expandFanInRoots fanInProject.desiredState
    (directPopulationPlan fanInProject fullScope)).toOption.get (by decide +kernel)

def fanInReplay (name source : String) (hsource : source ≠ "") : Replay.DirectRuntimeReplay where
  modelName := name
  replay :=
    { mode := .offsets
      database := "analytics"
      relations := { root := name, source := source, anchor := source, target := "tbl__" ++ name }
      replayQuery := { cteNames := [], visible := id, aggregateSemantics := false }
      columns :=
        { partition := "_kafka_partition", offset := "_kafka_offset", timestamp := "",
          landedAt := "", cursor := "" }
      window :=
        { lowerBoundMode := .none, lowerBoundInclusive := true, forcedStartTime := none,
          lookbackSeconds := none }
      seedMode := .none
      targetColumnNames := []
      filterBoundariesAtSource := true }
  inclusive := rfl
  anchor_named := hsource
  offset_named := by simp

def fanInRequest : DirectBuildRequest where
  sources := []
  sources_nodup := by decide
  catalog := {"orders_input"}
  executes := true
  stabilizes := true
  teardownOperations := teardownOperations fanInProject fullScope
  realizations := (planPopulationObjects fanInPopulation.objects fanInProject).map (·.key.name)
  runtimeReplays :=
    [fanInReplay "alpha" "orders_input" (by decide), fanInReplay "beta" "orders_input" (by decide),
      fanInReplay "gamma" "tbl__beta" (by decide)]
  audits := []

def fanInWorkflow : DirectBuildWorkflow :=
  (assembleDirectBuildWorkflow fanInRequest).toOption.get (by decide +kernel)

/-- The connection is lost at the capture of the catch-up replay. -/
def lostConnection : Environment where
  behaviour sequence :=
    if sequence = 23 then { execution := .failed (.adapterError "connection lost") false } else {}

def fanInBuild : FailedBuild asciiTables where
  compiled := fanInCompiled
  project := fanInProject
  scope := fullScope
  population := fanInPopulation
  expanded := eq_ok_get _
  request := fanInRequest
  executes := by decide +kernel
  teardown := rfl
  realizations := rfl
  replays := by decide +kernel
  modelled := by decide +kernel
  workflow := fanInWorkflow
  assembled := eq_ok_get _
  env := lostConnection
  failed := by
    have hending : (executeDirectBuildWorkflow lostConnection fanInWorkflow
        fanInRequest.catalog).ending.isReturned = false := by decide +kernel
    intro statements hreturned
    rw [hreturned] at hending
    cases hending
  persisted := true
  earlierRecords := []
  database := "analytics"
  workflowId := "build_1"
  toolVersion := "1.0.0"

theorem recordedNames_fanInBuild : fanInBuild.recordedNames = ["alpha", "beta", "delta"] := by
  decide +kernel

/-- The model `delta` is recorded before `gamma`, which it reads, is replayed. -/
theorem not_baselinesSound :
    ¬ ∀ (tables : PythonTables) (build : FailedBuild tables) (hash : String → String),
      build.BaselinesSound hash := by
  intro h
  have hrecorded : "delta" ∈ fanInBuild.recordedNames := by
    rw [recordedNames_fanInBuild]
    decide
  have hpopulated := (h asciiTables fanInBuild id).recorded "delta" hrecorded
  have hreads : fanInBuild.ReadsInScope "delta" "gamma" := by
    apply Relation.ReflTransGen.single
    exact ⟨.inl ⟨plainModel "delta" "gamma" [], by decide, rfl, by decide⟩, by decide +kernel⟩
  have hruntime : fanInReplay "gamma" "tbl__beta" (by decide) ∈
      fanInBuild.workflow.runtimeReplays := by
    rw [runtimeReplays_of_ok fanInBuild.assembled]
    simp [fanInBuild, fanInRequest]
  have hreplayed := hpopulated.replayed _ hruntime hreads
  revert hreplayed
  unfold FailedBuild.Replayed
  decide +kernel

end SqlTide.Baselines
