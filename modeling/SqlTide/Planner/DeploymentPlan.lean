import SqlTide.Planner.ObjectChanges
import SqlTide.Replay.DeploymentReplay

/-!
# The deployment plan

From the changed objects of a desired state the plan takes the subtrees to rebuild, largest
first, leaving out the roots that another subtree already contains, and names a shadow for
every object of a subtree. A materialized view changes on its own when only its query does;
nothing depends on it, so that its subtree is the view alone.
-/

namespace SqlTide.Planner

open Compiler Foundations List RealizedProject RealizedTableModel DesiredState

structure RebuildSubtree where
  rootKey : ObjectKey
  affectedKeys : List ObjectKey
  upstreamBoundaryKey : ObjectKey
  replayRequired : Bool
  executionMode : Replay.RebuildExecutionMode
  forcedFullRefresh : Bool := false
  forcedStartTime : Option String := none
  configuredBackfillMode : Option ReplayOnChangeMode := none
  executionLookbackSeconds : Option Int := none
  deriving DecidableEq, Repr

structure PreparedShadowObject where
  logicalKey : ObjectKey
  physicalName : String
  logicalModelName : String
  deriving DecidableEq, Repr

structure DeploymentPlan where
  deploymentId : Option String
  objectChanges : List PlannedObjectChange
  rebuildSubtrees : List RebuildSubtree
  preparedShadowObjects : List PreparedShadowObject
  deriving DecidableEq, Repr

/-- How a subtree is rebuilt. -/
structure ExecutionPolicy where
  executionMode : Replay.RebuildExecutionMode
  forcedFullRefresh : Bool := false
  forcedStartTime : Option String := none
  configuredBackfillMode : Option ReplayOnChangeMode := none
  executionLookbackSeconds : Option Int := none
  deriving DecidableEq, Repr

/-- `_default_execution_mode_for_change`. -/
def defaultExecutionMode (change : PlannedObjectChange) : Replay.RebuildExecutionMode :=
  if change.schemaChangeKind = some .nonBreaking ∧ change.seedCompatibility = some .seedable then
    .seededBoundedRebuild
  else .fullRebuild

def policyRule (change : PlannedObjectChange) (desiredTable : Option DesiredTable) :
    Option ReplayOnChangeRule :=
  (desiredTable.bind (·.replayOnChange)).bind fun policy =>
    if change.schemaChangeKind = some .nonBreaking then policy.nonBreaking else policy.breaking

def resolveExecutionPolicy (change : PlannedObjectChange) (desiredTable : Option DesiredTable) :
    ExecutionPolicy :=
  match policyRule change desiredTable with
  | none => { executionMode := defaultExecutionMode change }
  | some { mode := .full, .. } =>
    { executionMode := .fullRebuild, configuredBackfillMode := some .full }
  | some { mode := .bounded, lookbackSeconds } =>
    { executionMode :=
        if change.seedCompatibility = some .seedable then .seededBoundedRebuild
        else .unseededBoundedRebuild
      configuredBackfillMode := some .bounded
      executionLookbackSeconds := lookbackSeconds }

/-- The policy that `_build_rebuild_subtree_for_change` passes on. -/
def executionPolicyForChange (change : PlannedObjectChange) (desiredTable : Option DesiredTable) :
    ExecutionPolicy :=
  if change.forceFullRefresh then
    { executionMode := .fullRebuild
      forcedFullRefresh := true
      configuredBackfillMode := some .full }
  else if change.forcedStartTime.isSome then
    { executionMode := .seededBoundedRebuild, forcedStartTime := change.forcedStartTime }
  else resolveExecutionPolicy change desiredTable

section

variable (D : DesiredState)

def graphResult {α : Type} (result : Except GraphInputError α) : Except DeploymentPlanError α :=
  result.mapError .graph

def buildRebuildSubtree (rootKey : ObjectKey) (policy : ExecutionPolicy) :
    Except DeploymentPlanError RebuildSubtree := do
  let affectedKeys ← graphResult (D.collectDesiredDescendantKeys rootKey)
  let upstreamBoundaryKey ← graphResult (D.findNearestReplayAnchorKey rootKey false)
  return {
    rootKey := rootKey
    affectedKeys := affectedKeys
    upstreamBoundaryKey := upstreamBoundaryKey
    replayRequired := rootKey.objectType ≠ .view
    executionMode := policy.executionMode
    forcedFullRefresh := policy.forcedFullRefresh
    forcedStartTime := policy.forcedStartTime
    configuredBackfillMode := policy.configuredBackfillMode
    executionLookbackSeconds := policy.executionLookbackSeconds }

def isStableLandingObject (key : ObjectKey) : Bool :=
  match key.objectType with
  | .table => isRawTableName key.name
  | .materializedView =>
    match D.objectByKey key with
    | some (.materializedView view) => isRawTableName view.spec.targetTableName
    | _ => false
  | _ => false

/-- The changes that `emit_rebuild_subtrees_from_changes` takes up. -/
def isRebuildCandidate (change : PlannedObjectChange) : Bool :=
  (change.changeType = .create ∨ change.changeType = .rebuild) ∧
    change.key.objectType ≠ .kafkaTable ∧ isStableLandingObject D change.key = false

def desiredTable (key : ObjectKey) : Option DesiredTable :=
  (D.objectByKey key).bind (·.asTable)

def candidateSubtrees (changes : List PlannedObjectChange) :
    Except DeploymentPlanError (List RebuildSubtree) :=
  (changes.filter (isRebuildCandidate D)).mapM fun change =>
    buildRebuildSubtree D change.key (executionPolicyForChange change (desiredTable D change.key))

/-- The order of the candidates: larger subtrees first, then by the key of the root. -/
def comesFirst (a b : RebuildSubtree) : Prop :=
  b.affectedKeys.length < a.affectedKeys.length ∨
    (a.affectedKeys.length = b.affectedKeys.length ∧
      sortKey a.rootKey ≤ sortKey b.rootKey)

instance : DecidableRel comesFirst :=
  fun _ _ => inferInstanceAs (Decidable (_ ∨ _))

/-- A subtree whose root is in one that was retained before is dropped. -/
def retain (retained : List RebuildSubtree) (subtree : RebuildSubtree) : List RebuildSubtree :=
  if retained.any fun other => subtree.rootKey ∈ other.affectedKeys then retained
  else retained ++ [subtree]

/-- `emit_rebuild_subtrees_from_changes`. -/
def emitRebuildSubtrees (changes : List PlannedObjectChange) :
    Except DeploymentPlanError (List RebuildSubtree) := do
  let candidates ← candidateSubtrees D changes
  return (candidates.insertionSort comesFirst).foldl retain []

def buildDeploymentPhysicalName (logicalName deploymentId : String) : String :=
  logicalName ++ "__" ++ deploymentId

def logicalModelName (key : ObjectKey) : String :=
  match D.objectByKey key with
  | some (.table table) => table.logicalModelName
  | some (.materializedView view) => view.logicalModelName
  | some (.view view) => view.logicalModelName
  | _ => ""

def buildPreparedShadowObjects (subtrees : List RebuildSubtree) (deploymentId : Option String) :
    List PreparedShadowObject :=
  match deploymentId with
  | none => []
  | some deploymentId =>
    (subtrees.flatMap (·.affectedKeys)).eraseDups.map fun key =>
      { logicalKey := key
        physicalName := buildDeploymentPhysicalName key.name deploymentId
        logicalModelName := logicalModelName D key }

end

/-- `build_deployment_plan`, up to its steps, warnings and rendered differences. -/
def buildDeploymentPlan (A : SqlAnalyzer) (D : DesiredState) (S : ActualState)
    (deploymentId : Option String) (options : PlanningOptions) :
    Except DeploymentPlanError DeploymentPlan := do
  let objectChanges ← classifyObjectChanges A options S D
  let rebuildSubtrees ← emitRebuildSubtrees D objectChanges
  return {
    deploymentId := deploymentId
    objectChanges := objectChanges
    rebuildSubtrees := rebuildSubtrees
    preparedShadowObjects := buildPreparedShadowObjects D rebuildSubtrees deploymentId }

section

variable {subtrees retained : List RebuildSubtree}

/-- What collapsing keeps: a sublist in which no root lies in an earlier subtree, and in one of
whose subtrees every root lies. -/
structure Collapsed (subtrees retained : List RebuildSubtree) : Prop where
  sublist : retained.Sublist subtrees
  apart : retained.Pairwise fun a b => b.rootKey ∉ a.affectedKeys
  covered : ∀ subtree ∈ subtrees, ∃ other ∈ retained,
    other = subtree ∨ subtree.rootKey ∈ other.affectedKeys

theorem Collapsed.retain (h : Collapsed subtrees retained) (subtree : RebuildSubtree) :
    Collapsed (subtrees ++ [subtree]) (retain retained subtree) := by
  unfold Planner.retain
  split_ifs with hcovered
  · simp only [any_eq_true, decide_eq_true_eq] at hcovered
    refine ⟨h.sublist.trans (sublist_append_left _ _), h.apart, ?_⟩
    intro other hother
    rcases mem_append.mp hother with hother | hother
    · exact h.covered other hother
    · obtain rfl := mem_singleton.mp hother
      exact hcovered.imp fun _ hmem => ⟨hmem.1, .inr hmem.2⟩
  · simp only [any_eq_true, decide_eq_true_eq, not_exists, not_and] at hcovered
    refine ⟨h.sublist.append (List.Sublist.refl _), ?_, ?_⟩
    · refine pairwise_append.mpr ⟨h.apart, by simp, ?_⟩
      intro other hother last hlast
      obtain rfl := mem_singleton.mp hlast
      exact hcovered other hother
    · intro other hother
      rcases mem_append.mp hother with hother | hother
      · obtain ⟨cover, hcover, hmem⟩ := h.covered other hother
        exact ⟨cover, mem_append_left _ hcover, hmem⟩
      · exact ⟨other, mem_append_right _ hother, .inl rfl⟩

theorem collapsed_foldl (subtrees : List RebuildSubtree) :
    Collapsed subtrees (subtrees.foldl retain []) := by
  induction subtrees using reverseRecOn with
  | nil => exact ⟨List.Sublist.refl _, List.Pairwise.nil, by simp⟩
  | append_singleton subtrees subtree ih =>
    rw [foldl_append]
    exact ih.retain subtree

instance : Std.Total comesFirst where
  total a b := by
    unfold comesFirst
    rcases lt_trichotomy a.affectedKeys.length b.affectedKeys.length with h | h | h
    · exact .inr (.inl h)
    · rcases le_total (sortKey a.rootKey) (sortKey b.rootKey) with h' | h'
      · exact .inl (.inr ⟨h, h'⟩)
      · exact .inr (.inr ⟨h.symm, h'⟩)
    · exact .inl (.inl h)

instance : IsTrans RebuildSubtree comesFirst where
  trans a b c := by
    unfold comesFirst
    rintro (hab | ⟨hab, hab'⟩) (hbc | ⟨hbc, hbc'⟩)
    · exact .inl (by omega)
    · exact .inl (by omega)
    · exact .inl (by omega)
    · exact .inr ⟨by omega, hab'.trans hbc'⟩

/-- The root of the smaller subtree is not in the larger one. -/
def ApartBySize (a b : RebuildSubtree) : Prop :=
  (b.affectedKeys.length < a.affectedKeys.length → b.rootKey ∉ a.affectedKeys) ∧
    (a.affectedKeys.length < b.affectedKeys.length → a.rootKey ∉ b.affectedKeys)

instance : Std.Symm ApartBySize where
  symm _ _ h := ⟨h.2, h.1⟩

theorem apartBySize_retained {candidates : List RebuildSubtree} :
    ((candidates.insertionSort comesFirst).foldl retain []).Pairwise ApartBySize := by
  have hcollapsed := collapsed_foldl (candidates.insertionSort comesFirst)
  have hsorted := (pairwise_insertionSort comesFirst candidates).sublist hcollapsed.sublist
  refine (hcollapsed.apart.and hsorted).imp ?_
  rintro a b ⟨hapart, hfirst⟩
  refine ⟨fun _ => hapart, fun hlt => ?_⟩
  rcases hfirst with hfirst | ⟨hfirst, -⟩
  · omega
  · omega

/-- The root of a retained subtree lies in no larger retained subtree. -/
theorem notMem_larger {candidates : List RebuildSubtree} {a b : RebuildSubtree}
    (ha : a ∈ (candidates.insertionSort comesFirst).foldl retain [])
    (hb : b ∈ (candidates.insertionSort comesFirst).foldl retain [])
    (hlt : b.affectedKeys.length < a.affectedKeys.length) : b.rootKey ∉ a.affectedKeys := by
  have hne : a ≠ b := by
    rintro rfl
    omega
  exact (apartBySize_retained.forall ha hb hne).1 hlt

end

section

variable {P : RealizedProject} {changes : List PlannedObjectChange}

variable {key k : ObjectKey} {m : RealizedTableModel}

theorem isStableLandingObject_of_modelRelation (h : P.ModelRelation key) :
    isStableLandingObject P.desiredState key = false := by
  rcases h with ⟨m, hm, rfl | rfl⟩ | ⟨v, -, rfl⟩
  · exact P.relationName_free m hm
  · have hobject : P.desiredState.objectByKey m.viewKey =
        some (.materializedView (P.modelView m)) :=
      objectByKey_eq_some.mpr
        ⟨mem_objects.mpr (.inr (.inl ⟨m, hm, .inr rfl⟩)), rfl⟩
    unfold isStableLandingObject
    rw [hobject]
    exact P.relationName_free m hm
  · rfl

theorem modelRelation_of_candidate (hmem : key ∈ P.desiredState.keys)
    (hkafka : key.objectType ≠ .kafkaTable)
    (hlanding : isStableLandingObject P.desiredState key = false) : P.ModelRelation key := by
  obtain ⟨object, hobject, rfl⟩ := mem_map.mp hmem
  rcases mem_objects.mp hobject with ⟨s, hs, hsource⟩ | ⟨m, hm, rfl | rfl⟩ | ⟨v, hv, rfl⟩
  · have hbykey := objectByKey_eq_some.mpr ⟨hobject, rfl⟩
    unfold RealizedSource.desiredObjects at hsource
    split at hsource
    · simp only [mem_cons, not_mem_nil, or_false] at hsource
      rcases hsource with rfl | rfl | rfl
      · exact absurd rfl hkafka
      · simp [isStableLandingObject, DesiredObject.key] at hlanding
      · unfold isStableLandingObject at hlanding
        rw [hbykey] at hlanding
        simp [DesiredObject.key] at hlanding
    · simp at hsource
    · simp at hsource
  · exact .inl ⟨m, hm, .inl rfl⟩
  · exact .inl ⟨m, hm, .inr rfl⟩
  · exact .inr ⟨v, hv, rfl⟩

/-- A subtree of the plan: its root is the changed relation of a model, and it holds what
descends from it. -/
structure SubtreeOf (P : RealizedProject) (changes : List PlannedObjectChange)
    (subtree : RebuildSubtree) : Prop where
  changed : Changed changes subtree.rootKey
  model : P.ModelRelation subtree.rootKey
  nodup : subtree.affectedKeys.Nodup
  affected : ∀ k, k ∈ subtree.affectedKeys ↔ P.desiredState.Descends subtree.rootKey k
  required : subtree.replayRequired = true ↔ subtree.rootKey.objectType ≠ .view

theorem exists_subtree {root : ObjectKey} (policy : ExecutionPolicy)
    (hmodel : P.ModelRelation root) (hchanged : Changed changes root) :
    ∃ subtree, buildRebuildSubtree P.desiredState root policy = .ok subtree ∧
      subtree.rootKey = root ∧ SubtreeOf P changes subtree := by
  obtain ⟨keys, hkeys, hnodup, hmem, -⟩ :=
    exists_descendantKeys root hmodel.mem_keys
  obtain ⟨anchor, hanchor⟩ := exists_nearestAnchor (P := P) root false
  refine ⟨_, by rw [buildRebuildSubtree, hkeys, hanchor]; rfl, rfl, ?_⟩
  exact ⟨hchanged, hmodel, hnodup, hmem, by simp⟩

theorem exists_candidates (hknown : ∀ change ∈ changes, change.key ∈ P.desiredState.keys) :
    ∃ candidates, candidateSubtrees P.desiredState changes = .ok candidates ∧
      (∀ subtree ∈ candidates, SubtreeOf P changes subtree) ∧
      ∀ root, Changed changes root → P.ModelRelation root →
        ∃ subtree ∈ candidates, subtree.rootKey = root := by
  have hcandidate : ∀ change ∈ changes.filter (isRebuildCandidate P.desiredState),
      Changed changes change.key ∧ P.ModelRelation change.key := by
    intro change hchange
    obtain ⟨hmem, hcandidate⟩ := mem_filter.mp hchange
    simp only [isRebuildCandidate, decide_eq_true_eq] at hcandidate
    exact ⟨⟨change, hmem, rfl, hcandidate.1⟩,
      modelRelation_of_candidate (hknown change hmem) hcandidate.2.1 hcandidate.2.2⟩
  obtain ⟨candidates, hok⟩ := exists_mapM_eq_ok (f := fun change =>
    buildRebuildSubtree P.desiredState change.key
      (executionPolicyForChange change (desiredTable P.desiredState change.key))) (by
    intro change hchange
    obtain ⟨hchanged, hmodel⟩ := hcandidate change hchange
    obtain ⟨subtree, hsubtree, -⟩ := exists_subtree
      (executionPolicyForChange change (desiredTable P.desiredState change.key)) hmodel hchanged
    exact ⟨subtree, hsubtree⟩)
  have hbuilt : ∀ change ∈ changes.filter (isRebuildCandidate P.desiredState), ∀ subtree,
      buildRebuildSubtree P.desiredState change.key
        (executionPolicyForChange change (desiredTable P.desiredState change.key)) = .ok subtree →
      subtree.rootKey = change.key ∧ SubtreeOf P changes subtree := by
    intro change hchange subtree hsubtree
    obtain ⟨hchanged, hmodel⟩ := hcandidate change hchange
    obtain ⟨other, hother, hroot, hof⟩ := exists_subtree
      (executionPolicyForChange change (desiredTable P.desiredState change.key)) hmodel hchanged
    obtain rfl : other = subtree := Except.ok.inj (hother.symm.trans hsubtree)
    exact ⟨hroot, hof⟩
  refine ⟨candidates, hok, ?_, ?_⟩
  · intro subtree hsubtree
    obtain ⟨change, hchange, heq⟩ := (mem_of_mapM_eq_ok hok subtree).mp hsubtree
    exact (hbuilt change hchange subtree heq).2
  · intro root hchanged hmodel
    obtain ⟨change, hchange, rfl, htype⟩ := id hchanged
    have hkafka : change.key.objectType ≠ .kafkaTable := by
      rcases hmodel with ⟨m, -, h | h⟩ | ⟨v, -, h⟩
      · simp [h, tableKey]
      · simp [h, viewKey]
      · simp [h, RealizedViewModel.viewKey]
    have hmem : change ∈ changes.filter (isRebuildCandidate P.desiredState) := by
      refine mem_filter.mpr ⟨hchange, ?_⟩
      simp only [isRebuildCandidate, decide_eq_true_eq]
      exact ⟨htype, hkafka, isStableLandingObject_of_modelRelation hmodel⟩
    obtain ⟨subtree, hsubtree, hroot, -⟩ := exists_subtree
      (executionPolicyForChange change (desiredTable P.desiredState change.key)) hmodel hchanged
    exact ⟨subtree, (mem_of_mapM_eq_ok hok subtree).mpr ⟨change, hmem, hsubtree⟩, hroot⟩

/-- The subtrees that a plan of a realized project retains. -/
structure RetainedSubtrees (P : RealizedProject) (changes : List PlannedObjectChange)
    (retained : List RebuildSubtree) : Prop where
  subtree : ∀ subtree ∈ retained, SubtreeOf P changes subtree
  covered : ∀ root, Changed changes root → P.ModelRelation root →
    ∃ subtree ∈ retained, root ∈ subtree.affectedKeys
  apart : ∀ a ∈ retained, ∀ b ∈ retained, b.affectedKeys.length < a.affectedKeys.length →
    b.rootKey ∉ a.affectedKeys

theorem exists_retainedSubtrees (hknown : ∀ change ∈ changes, change.key ∈ P.desiredState.keys) :
    ∃ retained, emitRebuildSubtrees P.desiredState changes = .ok retained ∧
      RetainedSubtrees P changes retained := by
  obtain ⟨candidates, hok, hof, hroots⟩ := exists_candidates hknown
  have hcollapsed := collapsed_foldl (candidates.insertionSort comesFirst)
  refine ⟨(candidates.insertionSort comesFirst).foldl retain [], ?_, ?_, ?_, ?_⟩
  · rw [emitRebuildSubtrees, hok]
    rfl
  · intro subtree hsubtree
    exact hof subtree ((mem_insertionSort _).mp (hcollapsed.sublist.subset hsubtree))
  · intro root hchanged hmodel
    obtain ⟨subtree, hsubtree, rfl⟩ := hroots root hchanged hmodel
    obtain ⟨other, hother, heq⟩ := hcollapsed.covered subtree ((mem_insertionSort _).mpr hsubtree)
    refine ⟨other, hother, ?_⟩
    rcases heq with rfl | hmem
    · exact ((hof other hsubtree).affected _).mpr .refl
    · exact hmem
  · intro a ha b hb hlt
    exact notMem_larger ha hb hlt

/-- A changed table of a model is on the driving chain to the key. -/
def Touched (P : RealizedProject) (changes : List PlannedObjectChange) (key : ObjectKey) : Prop :=
  ∃ m ∈ P.tableModels, Changed changes m.tableKey ∧ P.DrivenFrom m.tableKey key

/-- The object changed, or depends on a table that a changed table drives. -/
def TouchedView (P : RealizedProject) (changes : List PlannedObjectChange) (key : ObjectKey) :
    Prop :=
  Changed changes key ∨ ∃ d, P.desiredState.DependsOn key d ∧ Touched P changes d

variable {retained : List RebuildSubtree}

section

variable (h : RetainedSubtrees P changes retained)

include h

theorem RetainedSubtrees.exists_affected :
    (∃ subtree ∈ retained, k ∈ subtree.affectedKeys) ↔
      ∃ root, Changed changes root ∧ P.ModelRelation root ∧ P.desiredState.Descends root k := by
  constructor
  · rintro ⟨subtree, hsubtree, hk⟩
    have hof := h.subtree subtree hsubtree
    exact ⟨subtree.rootKey, hof.changed, hof.model, (hof.affected k).mp hk⟩
  · rintro ⟨root, hchanged, hmodel, hdescends⟩
    obtain ⟨subtree, hsubtree, hroot⟩ := h.covered root hchanged hmodel
    have hof := h.subtree subtree hsubtree
    refine ⟨subtree, hsubtree, (hof.affected k).mpr ?_⟩
    exact ((hof.affected root).mp hroot).trans hdescends

/-- A table is prepared just if a changed table drives it. -/
theorem RetainedSubtrees.exists_affected_table :
    (∃ subtree ∈ retained, m.tableKey ∈ subtree.affectedKeys) ↔
      Touched P changes m.tableKey := by
  rw [h.exists_affected]
  constructor
  · rintro ⟨root, hchanged, hmodel, hdescends⟩
    have hdriven := (descends_table rfl).mp hdescends
    rcases eq_or_tableKey_of_descends hmodel hdescends with heq | ⟨m', hm', rfl⟩
    · subst heq
      rcases hmodel with ⟨m', hm', heq | heq⟩ | ⟨v, -, heq⟩
      · exact ⟨m', hm', heq ▸ hchanged, heq ▸ .refl⟩
      · cases heq
      · cases heq
    · exact ⟨m', hm', hchanged, hdriven⟩
  · rintro ⟨m', hm', hchanged, hdriven⟩
    exact ⟨m'.tableKey, hchanged, .inl ⟨m', hm', .inl rfl⟩, hdriven.descends⟩

/-- A view is prepared just if it changed or reads what a changed table drives. -/
theorem RetainedSubtrees.exists_affected_view
    (hmodel : P.ModelRelation k) (hview : k.objectType ≠ .table) :
    (∃ subtree ∈ retained, k ∈ subtree.affectedKeys) ↔ TouchedView P changes k := by
  rw [h.exists_affected]
  constructor
  · rintro ⟨root, hchanged, hroot, hdescends⟩
    rcases descends_iff.mp hdescends with rfl | ⟨d, hdriven, hdep⟩
    · exact .inl hchanged
    · refine .inr ⟨d, hdep, ?_⟩
      rcases eq_or_tableKey_of_descends hroot hdescends with rfl | ⟨m, hm, rfl⟩
      · rcases eq_or_tableKey_of_descends hmodel hdriven.descends with rfl | ⟨m, hm, rfl⟩
        · exact absurd (keyRank_lt hdep) (lt_irrefl _)
        · exact absurd rfl hview
      · exact ⟨m, hm, hchanged, hdriven⟩
  · rintro (hchanged | ⟨d, hdep, m, hm, hchanged, hdriven⟩)
    · exact ⟨k, hchanged, hmodel, .refl⟩
    · exact ⟨m.tableKey, hchanged, .inl ⟨m, hm, .inl rfl⟩, hdriven.descends.tail hdep⟩

/-- The view of a model is the root of a subtree just if it changed and reads nothing that a
changed table drives. -/
theorem RetainedSubtrees.exists_viewRoot (hm : m ∈ P.tableModels) :
    (∃ subtree ∈ retained, subtree.rootKey = m.viewKey) ↔
      Changed changes m.viewKey ∧
        ¬ ∃ d, P.desiredState.DependsOn m.viewKey d ∧ Touched P changes d := by
  have hmodel : P.ModelRelation m.viewKey := .inl ⟨m, hm, .inr rfl⟩
  constructor
  · rintro ⟨subtree, hsubtree, hroot⟩
    have hof := h.subtree subtree hsubtree
    refine ⟨hroot ▸ hof.changed, ?_⟩
    rintro ⟨d, hdep, m', hm', hchanged, hdriven⟩
    obtain ⟨other, hother, htable⟩ := h.covered m'.tableKey hchanged (.inl ⟨m', hm', .inl rfl⟩)
    have hother' := h.subtree other hother
    have hview : m.viewKey ∈ other.affectedKeys := by
      refine (hother'.affected _).mpr (((hother'.affected _).mp htable).trans ?_)
      exact hdriven.descends.tail hdep
    -- the subtree of the view holds the view alone, the other one holds a table as well
    have hsingle : subtree.affectedKeys.Subperm [m.viewKey] := by
      refine subperm_of_subset hof.nodup ?_
      intro k hk
      have hdescends := (hof.affected k).mp hk
      rw [hroot] at hdescends
      rcases eq_or_tableKey_of_descends hmodel hdescends with rfl | ⟨_, _, heq⟩
      · exact mem_singleton.mpr rfl
      · cases heq
    have hpair : [m'.tableKey, m.viewKey].Subperm other.affectedKeys := by
      refine subperm_of_subset (by simp [tableKey, viewKey]) ?_
      intro k hk
      rcases mem_cons.mp hk with rfl | hk
      · exact htable
      · exact mem_singleton.mp hk ▸ hview
    have hlt : subtree.affectedKeys.length < other.affectedKeys.length := by
      have hsmall := hsingle.length_le
      have hlarge := hpair.length_le
      simp only [length_cons, length_nil] at hsmall hlarge
      omega
    exact h.apart other hother subtree hsubtree hlt (hroot ▸ hview)
  · rintro ⟨hchanged, hnone⟩
    obtain ⟨subtree, hsubtree, hmem⟩ := h.covered m.viewKey hchanged hmodel
    have hof := h.subtree subtree hsubtree
    have hdescends := (hof.affected _).mp hmem
    refine ⟨subtree, hsubtree, ?_⟩
    rcases eq_or_tableKey_of_descends hof.model hdescends with heq | ⟨m', hm', heq⟩
    · exact heq.symm
    · rcases descends_iff.mp hdescends with heq' | ⟨d, hdriven, hdep⟩
      · rw [heq] at heq'
        cases heq'
      · exact absurd ⟨d, hdep, m', hm', heq ▸ hof.changed, heq ▸ hdriven⟩ hnone

end

end

end SqlTide.Planner
