import SqlTide.Destruction.Planning
import SqlTide.Destruction.Workflow

/-!
# Drift between review and execution

A plan is executed only if a fresh plan has the same fingerprints. The fingerprint is
the digest of a text, the text determines the payload, and the payload determines
everything that the workflow is assembled from.
-/

namespace SqlTide.Destruction

open Foundations List

theorem canonicalItems_eq_map (items : List PyValue) :
    canonicalItems items = items.map canonical := by
  induction items with
  | nil => rfl
  | cons v items ih => rw [canonicalItems, ih, map_cons]

theorem sortKeysItems_eq_map (items : List Json) : sortKeysItems items = items.map sortKeys := by
  induction items with
  | nil => rfl
  | cons v items ih => rw [sortKeysItems, ih, map_cons]

theorem canonicalFields_eq_map (fields : List (String × PyValue)) :
    canonicalFields fields = fields.map fun f => (f.1, canonical f.2) := by
  induction fields with
  | nil => rfl
  | cons f fields ih => rw [canonicalFields, ih, map_cons]

theorem sortKeysFields_eq_map (fields : List (String × Json)) :
    sortKeysFields fields = fields.map fun f => (f.1, sortKeys f.2) := by
  induction fields with
  | nil => rfl
  | cons f fields ih => rw [sortKeysFields, ih, map_cons]

/-- The value that is written for a payload. -/
def written (v : PyValue) : Json := sortKeys (canonical v)

theorem written_tuple (items : List PyValue) :
    written (.tuple items) = .arr (items.map written) := by
  simp [written, canonical, sortKeys, canonicalItems_eq_map, sortKeysItems_eq_map]

theorem written_str (s : String) : written (.str s) = .str s := rfl

theorem written_enum (s : String) : written (.enum s) = .str s := rfl

theorem dumps_canonical_injective {v w : PyValue}
    (h : dumps (canonical v) = dumps (canonical w)) : written v = written w := by
  have htext : (written v).render = (written w).render := String.ofList_injective h
  exact Json.render_injective htext

/-- What an object is written as: its fields in some order. -/
theorem written_dict (fields : List (String × PyValue)) :
    ∃ fields', written (.dict fields) = .obj fields' ∧
      fields'.Perm (fields.map fun f => (f.1, written f.2)) := by
  refine ⟨_, rfl, ?_⟩
  simp only [sortedBy, sortKeysFields_eq_map, canonicalFields_eq_map]
  refine (perm_insertionSort _ _).trans ?_
  refine ((perm_insertionSort _ _).map _).trans ?_
  rw [map_map]
  exact List.Perm.refl _

theorem eq_of_mem_of_nodup_keys {fields : List (String × Json)} {k : String} {v w : Json}
    (hnodup : (fields.map (·.1)).Nodup) (hv : (k, v) ∈ fields) (hw : (k, w) ∈ fields) : v = w := by
  have := inj_on_of_nodup_map hnodup hv hw rfl
  exact congrArg Prod.snd this

theorem written_field_eq {fields fields' : List (String × PyValue)}
    (hnodup : (fields.map (·.1)).Nodup) (h : written (.dict fields) = written (.dict fields'))
    (k : String) (v v' : PyValue) (hv : (k, v) ∈ fields) (hv' : (k, v') ∈ fields') :
    written v = written v' := by
  obtain ⟨sorted, hsorted, hperm⟩ := written_dict fields
  obtain ⟨sorted', hsorted', hperm'⟩ := written_dict fields'
  rw [hsorted, hsorted', Json.obj.injEq] at h
  subst h
  have hkeys : (sorted.map (·.1)).Nodup := by
    rw [(hperm.map (·.1)).nodup_iff]
    simpa [Function.comp_def] using hnodup
  apply eq_of_mem_of_nodup_keys hkeys
  · exact hperm.mem_iff.mpr (mem_map.mpr ⟨(k, v), hv, rfl⟩)
  · exact hperm'.mem_iff.mpr (mem_map.mpr ⟨(k, v'), hv', rfl⟩)

theorem written_strTuple_injective {names names' : List String}
    (h : written (strTuple names) = written (strTuple names')) : names = names' := by
  simp only [strTuple, written_tuple, map_map, Json.arr.injEq] at h
  refine map_injective_iff.mpr ?_ h
  intro a b hab
  simpa [written_str] using hab

theorem written_optionalInt_injective {a b : Option Int}
    (h : written (optionalInt a) = written (optionalInt b)) : a = b := by
  cases a <;> cases b <;> simp_all [optionalInt, written, canonical, sortKeys]

/-- A relation without its volatile footprint. -/
def DestructionRelationEvidence.structural (r : DestructionRelationEvidence) :
    DestructionRelationEvidence :=
  { r with totalBytes := none, activeParts := none }

/-- The text of a relation determines all but its footprint. -/
theorem structural_eq_of_written {r r' : DestructionRelationEvidence}
    (h : written (structuralRelationPayload r) = written (structuralRelationPayload r')) :
    r.structural = r'.structural := by
  have hfield := written_field_eq (by simp) h
  have hdatabase := hfield "database" (.str r.database) (.str r'.database) (by simp) (by simp)
  have hname := hfield "name" (.str r.name) (.str r'.name) (by simp) (by simp)
  have hkind := hfield "kind" (.enum r.kind.value) (.enum r'.kind.value) (by simp) (by simp)
  have hexists := hfield "exists" (.bool r.doesExist) (.bool r'.doesExist) (by simp) (by simp)
  have hcatalog := hfield "catalog_fingerprint" (optionalStr r.catalogFingerprint)
    (optionalStr r'.catalogFingerprint) (by simp) (by simp)
  have hlogical := hfield "logical_names" (strTuple r.logicalNames) (strTuple r'.logicalNames)
    (by simp) (by simp)
  have hpipelines := hfield "pipeline_names" (strTuple r.pipelineNames)
    (strTuple r'.pipelineNames) (by simp) (by simp)
  have hownership := hfield "ownership" (.tuple (r.ownership.map fun o => .enum o.value))
    (.tuple (r'.ownership.map fun o => .enum o.value)) (by simp) (by simp)
  have hdependencies := hfield "dependency_relation_names" (strTuple r.dependencyRelationNames)
    (strTuple r'.dependencyRelationNames) (by simp) (by simp)
  simp only [written_str, written_enum, Json.str.injEq] at hdatabase hname hkind
  simp only [DestructionRelationEvidence.structural, DestructionRelationEvidence.mk.injEq, true_and]
  refine ⟨hdatabase, hname, DestructionRelationKind.value_injective hkind, ?_, ?_,
    written_strTuple_injective hlogical, written_strTuple_injective hpipelines, ?_,
    written_strTuple_injective hdependencies⟩
  · simpa [written, canonical, sortKeys] using hexists
  · cases hr : r.catalogFingerprint <;> cases hr' : r'.catalogFingerprint <;>
      simp_all [optionalStr, written, canonical, sortKeys]
  · simp only [written_tuple, map_map, Json.arr.injEq] at hownership
    refine map_injective_iff.mpr ?_ hownership
    intro o o' ho
    apply DestructionOwnership.value_injective
    simpa [written_enum] using ho

section

variable (relations : List DestructionRelationEvidence)

include relations

theorem dependenciesOf_structural (r : DestructionRelationEvidence) :
    dependenciesOf (relations.map (·.structural)) r.structural = dependenciesOf relations r := by
  simp [dependenciesOf, DestructionRelationEvidence.structural, Function.comp_def]

theorem dependantCounts_structural :
    dependantCounts (relations.map (·.structural)) = dependantCounts relations := by
  funext name
  simp [dependantCounts, filter_map, Function.comp_def, dependenciesOf_structural]

theorem find?_structural (name : String) :
    (relations.map (·.structural)).find? (fun r => r.name = name) =
      (relations.find? fun r => r.name = name).map (·.structural) := by
  simp [find?_map, DestructionRelationEvidence.structural]

theorem duplicateRelation_structural (seen : List String) :
    duplicateRelation seen (relations.map (·.structural)) =
      (duplicateRelation seen relations).map (·.structural) := by
  induction relations generalizing seen with
  | nil => rfl
  | cons r relations ih =>
    simp only [map_cons, duplicateRelation, ih]
    rw [apply_ite (Option.map _)]
    rfl

theorem orderLoop_structural (fuel : ℕ)
    (counts : String → Int) (ready : List String) (ordered : List DestructionRelationEvidence) :
    orderLoop (relations.map (·.structural)) fuel counts ready (ordered.map (·.structural)) =
      Prod.map id (List.map (·.structural)) (orderLoop relations fuel counts ready ordered) := by
  induction fuel generalizing counts ready ordered with
  | zero => cases ready <;> rfl
  | succ fuel ih =>
    cases ready with
    | nil => rfl
    | cons name ready =>
      rw [orderLoop, orderLoop, find?_structural]
      cases relations.find? fun r => r.name = name with
      | none => rfl
      | some r =>
        simp only [Option.map_some, dependenciesOf_structural]
        rw [← ih, map_append, map_singleton]

theorem reverseTopologicallyOrderRelations_structural :
    reverseTopologicallyOrderRelations (relations.map (·.structural)) =
      (reverseTopologicallyOrderRelations relations).map (List.map (·.structural)) := by
  have hnames : (relations.map (·.structural)).map (·.name) = relations.map (·.name) := by
    simp [Function.comp_def, DestructionRelationEvidence.structural]
  rw [reverseTopologicallyOrderRelations, reverseTopologicallyOrderRelations,
    duplicateRelation_structural]
  cases duplicateRelation [] relations with
  | some r => rfl
  | none =>
    simp only [Option.map_none, hnames, dependantCounts_structural, length_map]
    rw [show ([] : List DestructionRelationEvidence) =
      ([] : List DestructionRelationEvidence).map (·.structural) from rfl, orderLoop_structural]
    simp only [Prod.map_fst, Prod.map_snd, id_eq, length_map, map_nil]
    split_ifs <;> rfl

end

/-- The footprint of the relations does not matter to the workflow. -/
theorem assembleDestructionWorkflow_congr {plan plan' : DestructionPlan}
    (hrelations : plan.relations.map (·.structural) = plan'.relations.map (·.structural))
    (hoverride : plan.relationDropSizeOverride = plan'.relationDropSizeOverride) :
    assembleDestructionWorkflow plan = assembleDestructionWorkflow plan' := by
  have hstructural : ∀ plan : DestructionPlan, assembleDestructionWorkflow plan =
      (reverseTopologicallyOrderRelations (plan.relations.map (·.structural))).map
        fun ordered => (ordered.filter (·.doesExist)).mapIdx fun i r =>
          dropStatement plan.relationDropSizeOverride (i + 1) r := by
    intro plan
    rw [reverseTopologicallyOrderRelations_structural, assembleDestructionWorkflow,
      orderedRelations]
    cases reverseTopologicallyOrderRelations plan.relations with
    | error e => rfl
    | ok ordered =>
      simp only [Except.map, Except.ok.injEq, filter_map, mapIdx_eq_iff,
        getElem?_mapIdx, getElem?_map, Option.map_map]
      intro i
      rfl
  rw [hstructural plan, hstructural plan', hrelations, hoverride]

def verifyDestructionDrift (frozen : DestructionPlan)
    (replan : Except DestructionError DestructionPlan) : Except DestructionError DestructionPlan :=
  match replan with
  | .error (.drift message) => .error (.drift message)
  | .error e => .error (.drift
      ("Current destruction impact can no longer be planned: " ++ e.message))
  | .ok current =>
    if current.manifestFingerprint ≠ frozen.manifestFingerprint then
      .error (.drift "Current manifest differs from the reviewed destruction plan")
    else if current.planFingerprint ≠ frozen.planFingerprint then
      .error (.drift "Current destruction impact differs from the reviewed plan")
    else .ok current

theorem verifyDestructionDrift_ok {frozen current : DestructionPlan}
    {replan : Except DestructionError DestructionPlan}
    (h : verifyDestructionDrift frozen replan = .ok current) :
    replan = .ok current ∧ current.planFingerprint = frozen.planFingerprint := by
  unfold verifyDestructionDrift at h
  split at h
  · cases h
  · cases h
  · split_ifs at h with hmanifest hplan
    cases h
    exact ⟨rfl, not_not.mp hplan⟩

/-- The text of a plan determines what its workflow is assembled from. -/
theorem planPayload_determines {request request' : DestructionRequest}
    {parts parts' : DestructionPlanParts}
    (h : written (planPayload request parts) = written (planPayload request' parts')) :
    parts.relations.map (·.structural) = parts'.relations.map (·.structural) ∧
      parts.relationDropSizeOverride = parts'.relationDropSizeOverride := by
  have hfield := written_field_eq (by cases parts.includeOrphans <;> simp) h
  have hrelations := hfield "relations" (.tuple (parts.relations.map structuralRelationPayload))
    (.tuple (parts'.relations.map structuralRelationPayload)) (by simp) (by simp)
  have hoverride := hfield "relation_drop_size_override"
    (optionalInt parts.relationDropSizeOverride) (optionalInt parts'.relationDropSizeOverride)
    (by simp) (by simp)
  refine ⟨?_, written_optionalInt_injective hoverride⟩
  simp only [written_tuple, map_map, Json.arr.injEq] at hrelations
  rw [← forall₂_eq_eq_eq, forall₂_map_left_iff, forall₂_map_right_iff] at hrelations ⊢
  exact hrelations.imp fun _ _ hr => structural_eq_of_written hr

/-- With an injective digest, an accepted replan has the statements of the frozen plan. -/
theorem verifyDestructionDrift_workflow {host host' : PlanningHost}
    {request request' : DestructionRequest} {parts parts' : DestructionPlanParts}
    {current : DestructionPlan} (hhash : Function.Injective host.sha256Hexdigest)
    (hsame : host'.sha256Hexdigest = host.sha256Hexdigest)
    (h : verifyDestructionDrift (buildPlan host request parts)
      (.ok (buildPlan host' request' parts')) = .ok current) :
    assembleDestructionWorkflow (buildPlan host request parts) =
      assembleDestructionWorkflow current := by
  obtain ⟨hcurrent, hfingerprint⟩ := verifyDestructionDrift_ok h
  cases hcurrent
  simp only [buildPlan, fingerprint, hsame] at hfingerprint
  obtain ⟨hrelations, hoverride⟩ :=
    planPayload_determines (dumps_canonical_injective (hhash hfingerprint))
  exact assembleDestructionWorkflow_congr hrelations.symm hoverride.symm

/-- A digest that keeps the text itself. -/
def transparentHost : PlanningHost where
  sha256Hexdigest := id
  utcNow := 0
  uuid4Hex := "0"

def footprintRequest : DestructionRequest where
  operation := .destroyPipelines
  target := "dev"
  database := "shop_dev"
  metadataDatabase := "shop_meta"
  pipelineNames := ["orders"]
  includedDependentPipelineNames := []
  includeOrphans := false
  orphans_destroy := fun _ => rfl
  disjoint := by simp

/-- A table and a view over it; the table has grown to the given number of bytes. -/
def footprintParts (bytes : Int) : DestructionPlanParts where
  planId := some "plan-1"
  createdAt := 0
  ttl := 1
  requestedPipelineNames := ["orders"]
  includedDependentPipelineNames := []
  affectedPipelineNames := ["orders"]
  affectedModelNames := ["orders", "orders_latest"]
  affectedSourceNames := []
  relations :=
    [⟨"shop_dev", "t_orders", .table, true, some bytes, some 1, none, ["orders"], ["orders"],
        [.currentManifest], []⟩,
      ⟨"shop_dev", "v_orders", .view, true, none, none, none, ["orders_latest"], ["orders"],
        [.currentManifest], ["t_orders"]⟩]
  challenges := ["orders"]
  manifestFingerprint := "m"
  relationDropSizeLimit := some 1000
  relationDropSizeServerLimit := none
  relationDropSizeOverride := some 1000
  relationDropSizePolicyObserved := true
  includeOrphans := false

theorem verifyDestructionDrift_workflow_footprint :
    verifyDestructionDrift (buildPlan transparentHost footprintRequest (footprintParts 10))
        (.ok (buildPlan transparentHost footprintRequest (footprintParts 20))) =
      .ok (buildPlan transparentHost footprintRequest (footprintParts 20)) ∧
    assembleDestructionWorkflow (buildPlan transparentHost footprintRequest (footprintParts 10)) =
      assembleDestructionWorkflow
        (buildPlan transparentHost footprintRequest (footprintParts 20)) := by
  have haccepted :
      verifyDestructionDrift (buildPlan transparentHost footprintRequest (footprintParts 10))
        (.ok (buildPlan transparentHost footprintRequest (footprintParts 20))) =
      .ok (buildPlan transparentHost footprintRequest (footprintParts 20)) := by
    have hpayload : planPayload footprintRequest (footprintParts 20) =
        planPayload footprintRequest (footprintParts 10) := rfl
    have hmanifest : (footprintParts 20).manifestFingerprint =
        (footprintParts 10).manifestFingerprint := rfl
    simp only [verifyDestructionDrift, buildPlan, hpayload, hmanifest, ne_eq, not_true, if_false]
  exact ⟨haccepted, verifyDestructionDrift_workflow Function.injective_id rfl haccepted⟩

end SqlTide.Destruction
