import SqlTide.Foundations.Json
import SqlTide.Destruction.Plan

/-!
# Plan payloads

The durable store keeps a plan as a versioned JSON envelope. The payload is the
JSON value; a timestamp in it is the integer of its instant. Reading is strict:
every field must be present with a value of its type, except that a field with a
default may be missing, and no other field is accepted.
-/

namespace SqlTide.Destruction

open Foundations

def destructionPlanPayloadVersion : Int := 1

def optionalJson {α : Type*} (encode : α → Json) : Option α → Json
  | none => .null
  | some a => encode a

def listJson {α : Type*} (encode : α → Json) (items : List α) : Json := .arr (items.map encode)

def relationFields (r : DestructionRelationEvidence) : List (String × Json) :=
  [("database", .str r.database), ("name", .str r.name), ("kind", .str r.kind.value),
    ("exists", .bool r.doesExist), ("total_bytes", optionalJson .int r.totalBytes),
    ("active_parts", optionalJson .int r.activeParts),
    ("catalog_fingerprint", optionalJson .str r.catalogFingerprint),
    ("logical_names", listJson .str r.logicalNames),
    ("pipeline_names", listJson .str r.pipelineNames),
    ("ownership", listJson (fun o => .str o.value) r.ownership),
    ("dependency_relation_names", listJson .str r.dependencyRelationNames)]

def serializedRelation (r : DestructionRelationEvidence) : Json := .obj (relationFields r)

def planFields (p : DestructionPlan) : List (String × Json) :=
  [("plan_id", .str p.planId), ("operation", .str p.operation.value),
    ("target", .str p.target), ("database", .str p.database),
    ("metadata_database", .str p.metadataDatabase),
    ("requested_pipeline_names", listJson .str p.requestedPipelineNames),
    ("included_dependent_pipeline_names", listJson .str p.includedDependentPipelineNames),
    ("affected_pipeline_names", listJson .str p.affectedPipelineNames),
    ("affected_model_names", listJson .str p.affectedModelNames),
    ("affected_source_names", listJson .str p.affectedSourceNames),
    ("relations", listJson serializedRelation p.relations),
    ("challenges", listJson .str p.challenges),
    ("preserves_sources", .bool p.preservesSources),
    ("preserves_replay_data", .bool p.preservesReplayData),
    ("manifest_fingerprint", .str p.manifestFingerprint),
    ("plan_fingerprint", .str p.planFingerprint),
    ("created_at", .int p.createdAt), ("expires_at", .int p.expiresAt),
    ("relation_drop_size_limit", optionalJson .int p.relationDropSizeLimit),
    ("relation_drop_size_server_limit", optionalJson .int p.relationDropSizeServerLimit),
    ("relation_drop_size_override", optionalJson .int p.relationDropSizeOverride),
    ("relation_drop_size_policy_observed", .bool p.relationDropSizePolicyObserved),
    ("include_orphans", .bool p.includeOrphans)]

def serializedPlan (p : DestructionPlan) : Json := .obj (planFields p)

def serializeDestructionPlan (p : DestructionPlan) : Json :=
  .obj [("version", .int destructionPlanPayloadVersion), ("plan", serializedPlan p)]

def readStr : Json → Option String
  | .str s => some s
  | _ => none

def readInt : Json → Option Int
  | .int n => some n
  | _ => none

def readBool : Json → Option Bool
  | .bool b => some b
  | _ => none

def readOptional {α : Type*} (read : Json → Option α) : Json → Option (Option α)
  | .null => some none
  | v => (read v).map some

def readList {α : Type*} (read : Json → Option α) : Json → Option (List α)
  | .arr items => items.mapM read
  | _ => none

def readValue {α : Type*} (values : List α) (value : α → String) (v : Json) : Option α :=
  (readStr v).bind fun s => values.find? fun a => value a = s

/-- The fields of an object that has no field but the allowed ones. -/
def readObject (allowed : List String) : Json → Option (List (String × Json))
  | .obj fields => if fields.all fun f => f.1 ∈ allowed then some fields else none
  | _ => none

def required {α : Type*} (fields : List (String × Json)) (name : String)
    (read : Json → Option α) : Option α :=
  (Json.field? fields name).bind read

def withDefault {α : Type*} (fields : List (String × Json)) (name : String)
    (read : Json → Option α) (default : α) : Option α :=
  match Json.field? fields name with
  | none => some default
  | some v => read v

def readOperation : Json → Option DestructionOperation :=
  readValue [.destroyPipelines, .resetTarget] DestructionOperation.value

def readKind : Json → Option DestructionRelationKind :=
  readValue [.view, .materializedView, .table, .managedSource] DestructionRelationKind.value

def readOwnership : Json → Option DestructionOwnership :=
  readValue [.currentManifest, .virtualPhysicalMapping, .publishedStableBinding,
    .ownershipLedger, .historicalManifest] DestructionOwnership.value

def relationFieldNames : List String :=
  ["database", "name", "kind", "exists", "total_bytes", "active_parts", "catalog_fingerprint",
    "logical_names", "pipeline_names", "ownership", "dependency_relation_names"]

def relationFromSerialized (v : Json) : Option DestructionRelationEvidence := do
  let fields ← readObject relationFieldNames v
  let database ← required fields "database" readStr
  let name ← required fields "name" readStr
  let kind ← required fields "kind" readKind
  let doesExist ← required fields "exists" readBool
  let totalBytes ← required fields "total_bytes" (readOptional readInt)
  let activeParts ← required fields "active_parts" (readOptional readInt)
  let catalogFingerprint ← required fields "catalog_fingerprint" (readOptional readStr)
  let logicalNames ← required fields "logical_names" (readList readStr)
  let pipelineNames ← required fields "pipeline_names" (readList readStr)
  let ownership ← required fields "ownership" (readList readOwnership)
  let dependencyRelationNames ← required fields "dependency_relation_names" (readList readStr)
  pure ⟨database, name, kind, doesExist, totalBytes, activeParts, catalogFingerprint,
    logicalNames, pipelineNames, ownership, dependencyRelationNames⟩

def planFieldNames : List String :=
  ["plan_id", "operation", "target", "database", "metadata_database",
    "requested_pipeline_names", "included_dependent_pipeline_names", "affected_pipeline_names",
    "affected_model_names", "affected_source_names", "relations", "challenges",
    "preserves_sources", "preserves_replay_data", "manifest_fingerprint", "plan_fingerprint",
    "created_at", "expires_at", "relation_drop_size_limit", "relation_drop_size_server_limit",
    "relation_drop_size_override", "relation_drop_size_policy_observed", "include_orphans"]

def planFromSerialized (v : Json) : Option DestructionPlan := do
  let fields ← readObject planFieldNames v
  let planId ← required fields "plan_id" readStr
  let operation ← required fields "operation" readOperation
  let target ← required fields "target" readStr
  let database ← required fields "database" readStr
  let metadataDatabase ← required fields "metadata_database" readStr
  let requestedPipelineNames ← required fields "requested_pipeline_names" (readList readStr)
  let includedDependentPipelineNames ←
    required fields "included_dependent_pipeline_names" (readList readStr)
  let affectedPipelineNames ← required fields "affected_pipeline_names" (readList readStr)
  let affectedModelNames ← required fields "affected_model_names" (readList readStr)
  let affectedSourceNames ← required fields "affected_source_names" (readList readStr)
  let relations ← required fields "relations" (readList relationFromSerialized)
  let challenges ← required fields "challenges" (readList readStr)
  let preservesSources ← required fields "preserves_sources" readBool
  let preservesReplayData ← required fields "preserves_replay_data" readBool
  let manifestFingerprint ← required fields "manifest_fingerprint" readStr
  let planFingerprint ← required fields "plan_fingerprint" readStr
  let createdAt ← required fields "created_at" readInt
  let expiresAt ← required fields "expires_at" readInt
  let relationDropSizeLimit ←
    withDefault fields "relation_drop_size_limit" (readOptional readInt) none
  let relationDropSizeServerLimit ←
    withDefault fields "relation_drop_size_server_limit" (readOptional readInt) none
  let relationDropSizeOverride ←
    withDefault fields "relation_drop_size_override" (readOptional readInt) none
  let relationDropSizePolicyObserved ←
    withDefault fields "relation_drop_size_policy_observed" readBool false
  let includeOrphans ← withDefault fields "include_orphans" readBool false
  pure ⟨planId, operation, target, database, metadataDatabase, requestedPipelineNames,
    includedDependentPipelineNames, affectedPipelineNames, affectedModelNames,
    affectedSourceNames, relations, challenges, preservesSources, preservesReplayData,
    manifestFingerprint, planFingerprint, createdAt, expiresAt, relationDropSizeLimit,
    relationDropSizeServerLimit, relationDropSizeOverride, relationDropSizePolicyObserved,
    includeOrphans⟩

/-- The envelope as the schema reads it: its version and its plan. -/
def readEnvelope (payload : Json) : Option (Int × DestructionPlan) := do
  let fields ← readObject ["version", "plan"] payload
  let version ← required fields "version" readInt
  let plan ← required fields "plan" planFromSerialized
  pure (version, plan)

section RoundTrip

variable {α : Type*} {read : Json → Option α} {encode : α → Json}

theorem readOptional_optionalJson (h : ∀ a, read (encode a) = some a)
    (hnull : ∀ a, encode a ≠ .null) (o : Option α) :
    readOptional read (optionalJson encode o) = some o := by
  cases o with
  | none => rfl
  | some a =>
    simp only [optionalJson, readOptional]
    split
    · next hn => exact absurd hn (hnull a)
    · simp [h]

theorem readList_listJson (h : ∀ a, read (encode a) = some a) (items : List α) :
    readList read (listJson encode items) = some items := by
  simp only [listJson, readList]
  induction items with
  | nil => rfl
  | cons a as ih => simp [List.mapM_cons, h, ih]

theorem readOptional_int (o : Option Int) :
    readOptional readInt (optionalJson .int o) = some o := by
  apply readOptional_optionalJson <;> simp [readInt]

theorem readOptional_str (o : Option String) :
    readOptional readStr (optionalJson .str o) = some o := by
  apply readOptional_optionalJson <;> simp [readStr]

theorem readList_str (names : List String) :
    readList readStr (listJson .str names) = some names := by
  apply readList_listJson
  simp [readStr]

theorem readOperation_value (o : DestructionOperation) : readOperation (.str o.value) = some o := by
  cases o <;> decide

theorem readKind_value (k : DestructionRelationKind) : readKind (.str k.value) = some k := by
  cases k <;> decide

theorem readList_ownership (os : List DestructionOwnership) :
    readList readOwnership (listJson (fun o => .str o.value) os) = some os := by
  apply readList_listJson
  intro o
  cases o <;> decide

theorem bind_of_some {α β : Type} {x : Option α} {next : α → Option β} {a : α} {b : β}
    (hx : x = some a) (hnext : next a = some b) : (x >>= next) = some b := by
  rw [hx]
  exact hnext

theorem readObject_of_names {fields : List (String × Json)} {names : List String}
    (h : fields.map Prod.fst = names) : readObject names (.obj fields) = some fields := by
  subst h
  simp only [readObject, List.all_eq_true, decide_eq_true_eq, ite_eq_left_iff, reduceCtorEq,
    imp_false, not_not]
  intro f hf
  exact List.mem_map_of_mem hf

theorem relationFromSerialized_serializedRelation (r : DestructionRelationEvidence) :
    relationFromSerialized (serializedRelation r) = some r := by
  have hobject : readObject relationFieldNames (serializedRelation r) = some (relationFields r) :=
    readObject_of_names rfl
  unfold relationFromSerialized
  exact bind_of_some hobject <| bind_of_some rfl <| bind_of_some rfl <|
    bind_of_some (readKind_value _) <| bind_of_some rfl <| bind_of_some (readOptional_int _) <|
    bind_of_some (readOptional_int _) <| bind_of_some (readOptional_str _) <|
    bind_of_some (readList_str _) <| bind_of_some (readList_str _) <|
    bind_of_some (readList_ownership _) <| bind_of_some (readList_str _) rfl

theorem readList_relations (rs : List DestructionRelationEvidence) :
    readList relationFromSerialized (listJson serializedRelation rs) = some rs :=
  readList_listJson relationFromSerialized_serializedRelation rs

theorem planFromSerialized_serializedPlan (p : DestructionPlan) :
    planFromSerialized (serializedPlan p) = some p := by
  have hobject : readObject planFieldNames (serializedPlan p) = some (planFields p) :=
    readObject_of_names rfl
  unfold planFromSerialized
  exact bind_of_some hobject <| bind_of_some rfl <| bind_of_some (readOperation_value _) <|
    bind_of_some rfl <| bind_of_some rfl <| bind_of_some rfl <| bind_of_some (readList_str _) <|
    bind_of_some (readList_str _) <| bind_of_some (readList_str _) <|
    bind_of_some (readList_str _) <| bind_of_some (readList_str _) <|
    bind_of_some (readList_relations _) <| bind_of_some (readList_str _) <| bind_of_some rfl <|
    bind_of_some rfl <| bind_of_some rfl <| bind_of_some rfl <| bind_of_some rfl <|
    bind_of_some rfl <| bind_of_some (readOptional_int _) <| bind_of_some (readOptional_int _) <|
    bind_of_some (readOptional_int _) <| bind_of_some rfl <| bind_of_some rfl rfl

theorem readEnvelope_serializeDestructionPlan (p : DestructionPlan) :
    readEnvelope (serializeDestructionPlan p) = some (destructionPlanPayloadVersion, p) := by
  simp [readEnvelope, serializeDestructionPlan, readObject, required, Json.field?, readInt,
    planFromSerialized_serializedPlan]

end RoundTrip

/-- The text of a schema failure is the one of the validation library. -/
def deserializeDestructionPlan (validationMessage : Json → String) (payload : Json) :
    Except DestructionError DestructionPlan :=
  match readEnvelope payload with
  | none => .error (.planCorrupt
      ("Stored destruction plan payload is incompatible or corrupt: " ++
        validationMessage payload))
  | some (version, plan) =>
    if version ≠ destructionPlanPayloadVersion then
      .error (.planCorrupt ("unsupported payload version " ++ toString version ++
        "; expected " ++ toString destructionPlanPayloadVersion))
    else if plan.expiresAt ≤ plan.createdAt then
      .error (.planCorrupt "expires_at must be later than created_at")
    else .ok plan

/-- A plan is read back from its payload as it was, provided it ends after it begins. -/
theorem deserialize_serialize (validationMessage : Json → String) (p : DestructionPlan) :
    deserializeDestructionPlan validationMessage (serializeDestructionPlan p) =
      if p.expiresAt ≤ p.createdAt then
        .error (.planCorrupt "expires_at must be later than created_at")
      else .ok p := by
  simp [deserializeDestructionPlan, readEnvelope_serializeDestructionPlan]

theorem serializeDestructionPlan_injective : Function.Injective serializeDestructionPlan := by
  intro p q h
  have := congrArg readEnvelope h
  simpa [readEnvelope_serializeDestructionPlan] using this

end SqlTide.Destruction
