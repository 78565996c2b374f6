import SqlTide.Compiler.DesiredState
import SqlTide.Compiler.ProjectGraph
import SqlTide.Foundations.PythonDict
import SqlTide.SqlText.References

/-!
# Baselines of direct models

A direct build records, for each model that it has applied, a hash of the authored query and the
identity of the model. Changed selection takes the direct models whose last record differs from
what the project compiles to now, or that have no record.
-/

namespace SqlTide.Baselines

open Foundations List SqlText
open Compiler (LogicalResourceKey)

structure TransformStep where
  source : String
  engine : String
  orderBy : List String
  partitionBy : Option String := none
  ttl : Option String := none
  settings : Option (List (String × String)) := none
  deriving DecidableEq, Repr

/-- What tells a `CompiledTableModel` from a `CompiledViewModel`. -/
inductive ModelDefinition
  | table (transform : TransformStep)
  | view
  deriving DecidableEq, Repr

/-- `ModelKind`. -/
def ModelDefinition.kind : ModelDefinition → String
  | .table _ => "table"
  | .view => "view"

structure OutputColumn where
  name : String
  type : String
  deriving DecidableEq, Repr

/-- A compiled model, with the facts of its analysis that are used downstream. -/
structure CompiledModel where
  key : LogicalResourceKey
  relationName : String
  authoredSql : String
  outputColumns : List OutputColumn
  references : List SqlReference
  definition : ModelDefinition
  deriving DecidableEq, Repr

inductive PipelineMode
  | direct
  | virtual
  deriving DecidableEq, Repr

structure PipelineProtection where
  warning : String
  confirmation : String
  deriving DecidableEq, Repr

/-- A pipeline, with the source that its driving inputs lead to. -/
structure CompiledPipeline where
  name : String
  mode : PipelineMode
  protection : Option PipelineProtection := none
  source : Option LogicalResourceKey := none
  models : List CompiledModel
  deriving DecidableEq, Repr

structure ModelStorage where
  engine : String
  orderBy : List String
  partitionBy : Option String
  ttl : Option String
  settings : Option (List (String × String))
  deriving DecidableEq, Repr

/-- The dictionary of a model's identity. Apart from the storage it is compared field by field. -/
structure ModelIdentity where
  identityVersion : ℕ
  modelName : String
  kind : String
  relationName : String
  outputColumns : List OutputColumn
  storage : Option ModelStorage
  deriving DecidableEq, Repr

def buildModelStorageIdentity (model : CompiledModel) : Option ModelStorage :=
  match model.definition with
  | .view => none
  | .table transform =>
    some
      { engine := transform.engine
        orderBy := transform.orderBy
        partitionBy := transform.partitionBy
        ttl := transform.ttl
        settings := transform.settings }

def buildDirectModelIdentity (model : CompiledModel) : ModelIdentity where
  identityVersion := 1
  modelName := model.key.name
  kind := model.definition.kind
  relationName := model.relationName
  outputColumns := model.outputColumns
  storage := buildModelStorageIdentity model

/-- The settings of two identities are equal as dictionaries. -/
def sameSettings : Option (List (String × String)) → Option (List (String × String)) → Bool
  | none, none => true
  | some first, some second => dictEq first second
  | _, _ => false

def sameStorage : Option ModelStorage → Option ModelStorage → Bool
  | none, none => true
  | some first, some second =>
    { first with settings := none } = { second with settings := none } ∧
      sameSettings first.settings second.settings
  | _, _ => false

def withoutStorage (identity : ModelIdentity) : ModelIdentity := { identity with storage := none }

/-- `AdapterDirectFingerprintRecord`. Its metadata is what `json.loads` makes of the text, where
that is an object. -/
structure FingerprintRecord where
  fingerprintId : String
  logicalModelIdentity : String
  definitionSql : String
  definitionHash : String
  identityMetadata : Option ModelIdentity
  workflowId : String
  toolVersion : String
  deriving DecidableEq, Repr

def logicalModelIdentity (database modelName : String) : String := database ++ "." ++ modelName

section
variable (hash : String → String)

/-- `_direct_model_drift_reasons`. -/
def driftReasons (model : CompiledModel) (baseline : Option FingerprintRecord) : List String :=
  match baseline with
  | none => ["missing"]
  | some baseline =>
    let desiredIdentity := buildDirectModelIdentity model
    let storageReasons :=
      match model.definition with
      | .view => []
      | .table _ =>
        if sameStorage (baseline.identityMetadata.bind (·.storage)) desiredIdentity.storage then []
        else ["storage"]
    (if hash model.authoredSql = baseline.definitionHash then [] else ["query"]) ++
      storageReasons ++
      (if baseline.identityMetadata.map withoutStorage = some (withoutStorage desiredIdentity)
        then [] else ["identity"])

/-- `build_direct_fingerprint_records`, for one model. -/
def fingerprintRecord (database workflowId toolVersion : String) (model : CompiledModel) :
    FingerprintRecord :=
  let identity := logicalModelIdentity database model.key.name
  let definitionHash := hash model.authoredSql
  { fingerprintId := hash (identity ++ ":" ++ definitionHash ++ ":" ++ workflowId)
    logicalModelIdentity := identity
    definitionSql := model.authoredSql
    definitionHash := definitionHash
    identityMetadata := some (buildDirectModelIdentity model)
    workflowId := workflowId
    toolVersion := toolVersion }

def buildDirectFingerprintRecords (models : List CompiledModel)
    (database workflowId toolVersion : String) : List FingerprintRecord :=
  models.map (fingerprintRecord hash database workflowId toolVersion)

end

/-- The latest of the persisted records of an identity; later builds append theirs. -/
def latestBaseline (records : List FingerprintRecord) (identity : String) :
    Option FingerprintRecord :=
  records.reverse.find? (·.logicalModelIdentity = identity)

inductive OptionalStateStatus
  | available
  | absent
  | unavailable
  deriving DecidableEq, Repr

structure FingerprintSnapshot where
  status : OptionalStateStatus
  baselines : List FingerprintRecord
  warning : Option String := none
  deriving DecidableEq, Repr

/-- `load_clickhouse_direct_fingerprints`, from a table that can be read. -/
def loadDirectFingerprints (records : List FingerprintRecord) (identities : List String) :
    FingerprintSnapshot where
  status := .available
  baselines := identities.filterMap (latestBaseline records)

structure DirectPlanError where
  message : String
  deriving DecidableEq, Repr

def projectModels (pipelines : List CompiledPipeline) : List CompiledModel :=
  pipelines.flatMap (·.models)

def directModelKeys (pipelines : List CompiledPipeline) : List LogicalResourceKey :=
  (pipelines.filter (·.mode = .direct)).flatMap fun pipeline => pipeline.models.map (·.key)

/-- `dict((baseline.logical_model_identity, baseline) for baseline in baselines).get(identity)`. -/
def baselineOf (snapshot : FingerprintSnapshot) (identity : String) : Option FingerprintRecord :=
  dictGet (snapshot.baselines.map fun baseline => (baseline.logicalModelIdentity, baseline))
    identity

def changedDirectModelKeys (hash : String → String) (pipelines : List CompiledPipeline)
    (snapshot : FingerprintSnapshot) (database : String) :
    Except DirectPlanError (List LogicalResourceKey) :=
  if snapshot.status = .unavailable then
    .error ⟨"Cannot select changed models: " ++
      snapshot.warning.getD "direct fingerprints are unavailable"⟩
  else if directModelKeys pipelines = [] then
    .error ⟨"--changed is only supported for direct models"⟩
  else
    .ok (((projectModels pipelines).filter fun model =>
      model.key ∈ directModelKeys pipelines ∧
        driftReasons hash model
          (baselineOf snapshot (logicalModelIdentity database model.key.name)) ≠ []).map (·.key))

theorem exists_changedDirectModelKeys {hash : String → String} {pipelines : List CompiledPipeline}
    {snapshot : FingerprintSnapshot} {database : String} (hstatus : snapshot.status ≠ .unavailable)
    (hdirect : directModelKeys pipelines ≠ []) :
    ∃ changed, changedDirectModelKeys hash pipelines snapshot database = .ok changed ∧
      ∀ key, key ∈ changed ↔ ∃ model ∈ projectModels pipelines, model.key = key ∧
        key ∈ directModelKeys pipelines ∧ driftReasons hash model
          (baselineOf snapshot (logicalModelIdentity database model.key.name)) ≠ [] := by
  rw [changedDirectModelKeys, if_neg hstatus, if_neg hdirect]
  refine ⟨_, rfl, ?_⟩
  intro key
  simp only [mem_map, mem_filter, decide_eq_true_eq]
  constructor
  · rintro ⟨model, ⟨hmodel, hkey, hdrift⟩, rfl⟩
    exact ⟨model, hmodel, rfl, hkey, hdrift⟩
  · rintro ⟨model, hmodel, rfl, hkey, hdrift⟩
    exact ⟨model, ⟨hmodel, hkey, hdrift⟩, rfl⟩

/-- A record has the fingerprint that the model has now. -/
structure Matches (hash : String → String) (model : CompiledModel) (baseline : FingerprintRecord) :
    Prop where
  query : hash model.authoredSql = baseline.definitionHash
  storage : model.definition ≠ .view →
    sameStorage (baseline.identityMetadata.bind (·.storage)) (buildModelStorageIdentity model)
  identity : baseline.identityMetadata.map withoutStorage =
    some (withoutStorage (buildDirectModelIdentity model))

/-- The last record of a model has the fingerprint that it has now. -/
def Kept (hash : String → String) (records : List FingerprintRecord) (database : String)
    (model : CompiledModel) : Prop :=
  ∃ baseline, latestBaseline records (logicalModelIdentity database model.key.name) =
    some baseline ∧ Matches hash model baseline

section
variable {hash : String → String} {model : CompiledModel} {baseline : FingerprintRecord}

theorem driftReasons_some_eq_nil :
    driftReasons hash model (some baseline) = [] ↔ Matches hash model baseline := by
  rw [driftReasons]
  simp only [append_eq_nil_iff]
  constructor
  · rintro ⟨⟨hquery, hstorage⟩, hidentity⟩
    constructor
    · by_contra hne
      rw [if_neg hne] at hquery
      cases hquery
    · intro htable
      cases hdefinition : model.definition with
      | view => exact absurd hdefinition htable
      | table transform =>
        rw [hdefinition] at hstorage
        by_contra hne
        rw [if_neg (by exact hne)] at hstorage
        cases hstorage
    · by_contra hne
      rw [if_neg hne] at hidentity
      cases hidentity
  · rintro ⟨hquery, hstorage, hidentity⟩
    rw [if_pos hquery, if_pos hidentity]
    refine ⟨⟨rfl, ?_⟩, rfl⟩
    cases hdefinition : model.definition with
    | view => rfl
    | table transform =>
      rw [hdefinition] at hstorage
      exact if_pos (hstorage (by simp))

theorem driftReasons_eq_nil {found : Option FingerprintRecord} :
    driftReasons hash model found = [] ↔ ∃ baseline, found = some baseline ∧
      Matches hash model baseline := by
  cases found with
  | none => simp [driftReasons]
  | some baseline => simp [driftReasons_some_eq_nil]

end

/-- Two compilations of a model with one fingerprint. -/
structure SameFingerprint (first second : CompiledModel) : Prop where
  query : first.authoredSql = second.authoredSql
  storage : second.definition ≠ .view →
    sameStorage (buildModelStorageIdentity first) (buildModelStorageIdentity second)
  identity : withoutStorage (buildDirectModelIdentity first) =
    withoutStorage (buildDirectModelIdentity second)

section
variable {hash : String → String} {first second : CompiledModel}

/-- Where the hash tells queries apart, a record matches just the fingerprint that it is from. -/
theorem matches_fingerprintRecord (hhash : Function.Injective hash)
    {database workflowId toolVersion : String} :
    Matches hash second (fingerprintRecord hash database workflowId toolVersion first) ↔
      SameFingerprint first second := by
  constructor
  · rintro ⟨hquery, hstorage, hidentity⟩
    exact ⟨(hhash hquery).symm, hstorage, Option.some.inj hidentity⟩
  · rintro ⟨hquery, hstorage, hidentity⟩
    exact ⟨congrArg hash hquery.symm, hstorage, congrArg some hidentity⟩

namespace SameFingerprint

section

variable (h : SameFingerprint first second)

include h

theorem name : first.key.name = second.key.name :=
  congrArg ModelIdentity.modelName h.identity

theorem relationName : first.relationName = second.relationName :=
  congrArg ModelIdentity.relationName h.identity

theorem outputColumns : first.outputColumns = second.outputColumns :=
  congrArg ModelIdentity.outputColumns h.identity

theorem kind : first.definition.kind = second.definition.kind :=
  congrArg ModelIdentity.kind h.identity

theorem view (hview : second.definition = .view) : first.definition = .view := by
  have hkind := h.kind
  rw [hview] at hkind
  cases hdefinition : first.definition with
  | view => rfl
  | table transform =>
    rw [hdefinition] at hkind
    simp [ModelDefinition.kind] at hkind

/-- The two transforms of a table have one storage, up to the order of the settings. -/
theorem table {transform : TransformStep} (htable : second.definition = .table transform) :
    ∃ earlier, first.definition = .table earlier ∧ earlier.engine = transform.engine ∧
      earlier.orderBy = transform.orderBy ∧ earlier.partitionBy = transform.partitionBy ∧
      earlier.ttl = transform.ttl ∧ sameSettings earlier.settings transform.settings = true := by
  have hkind := h.kind
  have hstorage := h.storage (by simp [htable])
  rw [htable] at hkind
  cases hdefinition : first.definition with
  | view =>
    rw [hdefinition] at hkind
    simp [ModelDefinition.kind] at hkind
  | table earlier =>
    simp only [buildModelStorageIdentity, hdefinition, htable, sameStorage, Bool.decide_and,
      Bool.decide_eq_true, Bool.and_eq_true, decide_eq_true_eq, ModelStorage.mk.injEq, and_true]
      at hstorage
    obtain ⟨⟨hengine, horder, hpartition, httl⟩, hsettings⟩ := hstorage
    exact ⟨earlier, rfl, hengine, horder, hpartition, httl, hsettings⟩

end

end SameFingerprint

end

section
variable {records : List FingerprintRecord} {identity : String}

theorem latestBaseline_identity {baseline : FingerprintRecord}
    (h : latestBaseline records identity = some baseline) :
    baseline.logicalModelIdentity = identity := by
  simpa using find?_some h

theorem latestBaseline_append_of_absent {later : List FingerprintRecord}
    (h : ∀ record ∈ later, record.logicalModelIdentity ≠ identity) :
    latestBaseline (records ++ later) identity = latestBaseline records identity := by
  have hnone : later.reverse.find? (·.logicalModelIdentity = identity) = none := by
    rw [find?_eq_none]
    intro record hrecord
    simpa using h record (mem_reverse.mp hrecord)
  rw [latestBaseline, reverse_append, find?_append, hnone, Option.none_or, latestBaseline]

theorem latestBaseline_append_of_mem {later : List FingerprintRecord} {record : FingerprintRecord}
    (hrecord : record ∈ later) (hidentity : record.logicalModelIdentity = identity)
    (hunique : ∀ other ∈ later, other.logicalModelIdentity = identity → other = record) :
    latestBaseline (records ++ later) identity = some record := by
  have hfound : later.reverse.find? (·.logicalModelIdentity = identity) = some record := by
    apply find?_eq_some_of_unique (mem_reverse.mpr hrecord) (by simpa using hidentity)
    intro other hother hsame
    exact hunique other (mem_reverse.mp hother) (by simpa using hsame)
  rw [latestBaseline, reverse_append, find?_append, hfound, Option.some_or]

/-- The snapshot holds the latest record of every identity that it was loaded for. -/
theorem baselineOf_loadDirectFingerprints {identities : List String} (h : identity ∈ identities) :
    baselineOf (loadDirectFingerprints records identities) identity =
      latestBaseline records identity := by
  rw [baselineOf, loadDirectFingerprints]
  have hkeys : ∀ identities : List String, ∀ entry ∈ (identities.filterMap
      (latestBaseline records)).map (fun baseline => (baseline.logicalModelIdentity, baseline)),
      latestBaseline records entry.1 = some entry.2 := by
    intro identities entry hentry
    obtain ⟨baseline, hbaseline, rfl⟩ := mem_map.mp hentry
    obtain ⟨other, -, hother⟩ := mem_filterMap.mp hbaseline
    rw [latestBaseline_identity hother]
    exact hother
  cases hlatest : latestBaseline records identity with
  | none =>
    rw [dictGet_eq_none]
    intro hmem
    obtain ⟨entry, hentry, hentryKey⟩ := mem_map.mp hmem
    have hfound := hkeys identities entry hentry
    rw [hentryKey, hlatest] at hfound
    cases hfound
  | some baseline =>
    have hmem : (identity, baseline) ∈ (identities.filterMap (latestBaseline records)).map
        fun baseline => (baseline.logicalModelIdentity, baseline) := by
      apply mem_map.mpr
      refine ⟨baseline, mem_filterMap.mpr ⟨identity, h, hlatest⟩, ?_⟩
      rw [latestBaseline_identity hlatest]
    rw [dictGet, find?_eq_some_of_unique (a := (identity, baseline)) (mem_reverse.mpr hmem)
      (by simp)]
    · rfl
    · intro entry hentry hsame
      have hfound := hkeys identities entry (mem_reverse.mp hentry)
      have hentryKey : entry.1 = identity := by simpa using hsame
      rw [hentryKey, hlatest] at hfound
      exact Prod.ext hentryKey (Option.some.inj hfound).symm

end

end SqlTide.Baselines
