import SqlTide.Planner.DirectPlanBuilder

/-!
# The scope of a direct build

The normal scope is closed under readers, and the expansion finds the least scope around it that
leaves no missing model upstream. A plan is returned only where everything that the scope reads is
rebuilt, there already, or managed.
-/

namespace SqlTide.Planner

open Compiler Foundations List

section

variable {P : RealizedProject} {R : DirectPlanRequest P} {key key' : LogicalResourceKey}

theorem mem_modelKeys {keys : List LogicalResourceKey} :
    key ∈ modelKeys keys ↔ key ∈ keys ∧ key.resourceType = .model := by
  simp [modelKeys]

theorem model_of_directlyReads (h : P.lineageGraph.DirectlyReads key key') :
    key.resourceType = .model := by
  obtain ⟨e, he, -⟩ := h
  rcases P.mem_lineageUpstreamEdges.mp he with ⟨m, hm, rfl, -⟩ | ⟨v, hv, rfl, -⟩
  · rw [RealizedProject.logicalKey_model (mem_append_left _ (mem_map_of_mem hm))]
  · rw [RealizedProject.logicalKey_model (mem_append_right _ (mem_map_of_mem hv))]

theorem mem_orderedKeys_of_directlyReads (h : P.lineageGraph.DirectlyReads key key') :
    key ∈ P.lineageGraph.orderedKeys ∧ key' ∈ P.lineageGraph.orderedKeys :=
  h.mem_keys.imp (P.lineageGraph.ordered _).mpr (P.lineageGraph.ordered _).mpr

namespace DirectPlanRequest

theorem mem_ordered_of_mem_normal (h : key ∈ R.normalExecutionScope) :
    key ∈ P.lineageGraph.orderedKeys ∧ key.resourceType = .model := by
  unfold normalExecutionScope at h
  split_ifs at h with hall hnone
  · exact mem_modelKeys.mp h
  · cases h
  · obtain ⟨hkey, hmodel⟩ := mem_modelKeys.mp h
    exact ⟨(mem_filter.mp hkey).1, hmodel⟩

theorem mem_normal_of_reads (h : key ∈ R.normalExecutionScope)
    (hreads : P.lineageGraph.Reads key' key) : key' ∈ R.normalExecutionScope := by
  obtain ⟨hordered, hmodel⟩ := mem_ordered_of_mem_normal h
  have hreader : key' ∈ P.lineageGraph.orderedKeys ∧ key'.resourceType = .model := by
    rcases hreads.cases_head with rfl | ⟨next, hstep, -⟩
    · exact ⟨hordered, hmodel⟩
    · exact ⟨(mem_orderedKeys_of_directlyReads hstep).1, model_of_directlyReads hstep⟩
  unfold normalExecutionScope at h ⊢
  split_ifs at h ⊢ with hall hnone
  · exact mem_modelKeys.mpr hreader
  · cases h
  · obtain ⟨root, hroot, hknown, hpath⟩ :=
      ProjectGraph.mem_collect_downstream_known.mp (mem_modelKeys.mp h).1
    refine mem_modelKeys.mpr ⟨?_, hreader.2⟩
    exact ProjectGraph.mem_collect_downstream_known.mpr
      ⟨root, hroot, hknown, Relation.ReflTransGen.trans hreads hpath⟩

variable {keys : Finset LogicalResourceKey}

theorem mem_missingModelKeys :
    key' ∈ R.missingModelKeys keys ↔
      (∃ key ∈ keys, P.lineageGraph.DirectlyReads key key') ∧ key' ∉ keys ∧
        key' ∈ P.compiledProject.models.map (·.key) ∧
          relationNameByLogicalKey P key' ∉ R.existingNames := by
  simp only [missingModelKeys, Finset.mem_filter, Finset.mem_biUnion, mem_toFinset,
    mem_map, ProjectGraph.DirectlyReads]

theorem disjoint_missingModelKeys (keys : Finset LogicalResourceKey) :
    Disjoint (R.missingModelKeys keys) keys := by
  rw [Finset.disjoint_left]
  intro key hkey
  exact (mem_missingModelKeys.mp hkey).2.1

/-- An iteration of the loop, on the keys to execute. -/
def addMissing (R : DirectPlanRequest P) (keys : Finset LogicalResourceKey) :
    Finset LogicalResourceKey :=
  keys ∪ R.missingModelKeys keys

theorem addMissing_eq_self_iff : R.addMissing keys = keys ↔ R.missingModelKeys keys = ∅ := by
  constructor
  · intro h
    have hsub : R.missingModelKeys keys ⊆ keys := Finset.union_eq_left.mp h
    exact Finset.disjoint_self_iff_empty _ |>.mp
      (Finset.disjoint_of_subset_right hsub (disjoint_missingModelKeys keys))
  · intro h
    rw [addMissing, h, Finset.union_empty]

theorem mem_addMissing :
    key' ∈ R.addMissing keys ↔ key' ∈ keys ∨
      (∃ key ∈ keys, P.lineageGraph.DirectlyReads key key') ∧
        key' ∈ P.compiledProject.models.map (·.key) ∧
          relationNameByLogicalKey P key' ∉ R.existingNames := by
  rw [addMissing, Finset.mem_union, mem_missingModelKeys]
  tauto

theorem monotone_addMissing : Monotone R.addMissing := by
  intro keys keys' hsub key hkey
  rcases mem_addMissing.mp hkey with hkey | ⟨⟨reader, hreader, hreads⟩, hmissing⟩
  · exact mem_addMissing.mpr (.inl (hsub hkey))
  · exact mem_addMissing.mpr (.inr ⟨⟨reader, hsub hreader, hreads⟩, hmissing⟩)

/-- The loop saturates the keys to execute, and collects what it adds. -/
theorem expandScope_eq (fuel : ℕ) (keys added : Finset LogicalResourceKey) :
    (R.expandScope fuel (keys, added)).1 = saturate R.addMissing fuel keys ∧
      (R.expandScope fuel (keys, added)).2 = added ∪ (saturate R.addMissing fuel keys \ keys) := by
  induction fuel generalizing keys added with
  | zero => simp [expandScope, saturate]
  | succ fuel ih =>
    rw [expandScope, saturate]
    by_cases hnone : R.missingModelKeys keys = ∅
    · rw [if_pos hnone, if_pos (addMissing_eq_self_iff.mpr hnone)]
      simp
    · rw [if_neg hnone, if_neg (mt addMissing_eq_self_iff.mp hnone)]
      obtain ⟨hkeys, hadded⟩ := ih (keys ∪ R.missingModelKeys keys)
        (added ∪ R.missingModelKeys keys)
      refine ⟨hkeys, ?_⟩
      rw [hadded, ← addMissing]
      have hsub : R.addMissing keys ⊆ saturate R.addMissing fuel (R.addMissing keys) :=
        subset_saturate (fun _ => Finset.subset_union_left) fuel _
      ext key
      have hin : key ∈ R.addMissing keys →
          key ∈ saturate R.addMissing fuel (R.addMissing keys) := fun h => hsub h
      have hout : key ∈ R.missingModelKeys keys → key ∉ keys :=
        fun h => Finset.disjoint_left.mp (disjoint_missingModelKeys keys) h
      simp only [addMissing, Finset.mem_union, Finset.mem_sdiff] at hin hout ⊢
      tauto

theorem toFinset_normal_subset :
    R.normalExecutionScope.toFinset ⊆ P.lineageGraph.orderedKeys.toFinset := by
  intro key hkey
  exact mem_toFinset.mpr (mem_ordered_of_mem_normal (mem_toFinset.mp hkey)).1

theorem addMissing_subset (h : keys ⊆ P.lineageGraph.orderedKeys.toFinset) :
    R.addMissing keys ⊆ P.lineageGraph.orderedKeys.toFinset := by
  intro key hkey
  rcases mem_addMissing.mp hkey with hkey | ⟨⟨reader, -, hreads⟩, -⟩
  · exact h hkey
  · exact mem_toFinset.mpr (mem_orderedKeys_of_directlyReads hreads).2

theorem toFinset_orderedKeys_card_lt :
    P.lineageGraph.orderedKeys.toFinset.card <
      P.lineageGraph.orderedKeys.length + 1 + R.normalExecutionScope.toFinset.card := by
  have := toFinset_card_le P.lineageGraph.orderedKeys
  omega

theorem missingModelKeys_expandedScope : R.missingModelKeys R.expandedScope.1 = ∅ := by
  rw [← addMissing_eq_self_iff, expandedScope, (expandScope_eq _ _ _).1]
  exact step_saturate (fun _ => Finset.subset_union_left) _ (fun _ => addMissing_subset)
    toFinset_normal_subset toFinset_orderedKeys_card_lt

theorem expandScope_stable {fuel : ℕ}
    {state : Finset LogicalResourceKey × Finset LogicalResourceKey}
    (h : R.missingModelKeys (R.expandScope fuel state).1 = ∅) (more : ℕ) :
    R.expandScope (fuel + more) state = R.expandScope fuel state := by
  induction fuel generalizing state with
  | zero =>
    rw [expandScope] at h ⊢
    cases more with
    | zero => rfl
    | succ more => rw [Nat.zero_add, expandScope, if_pos h]
  | succ fuel ih =>
    rw [Nat.add_right_comm]
    rw [expandScope] at h ⊢
    rw [expandScope]
    split_ifs at h ⊢ with hnone
    · rfl
    · exact ih h

/-- From some bound on the loop has ended by itself. -/
theorem expandScope_eq_expandedScope {fuel : ℕ}
    (hfuel : P.lineageGraph.orderedKeys.length + 1 ≤ fuel) :
    R.expandScope fuel (R.normalExecutionScope.toFinset, ∅) = R.expandedScope := by
  obtain ⟨more, rfl⟩ := Nat.exists_eq_add_of_le hfuel
  exact expandScope_stable missingModelKeys_expandedScope more

theorem mem_expandedScope_added : key ∈ R.expandedScope.2 ↔
    key ∈ R.expandedScope.1 ∧ key ∉ R.normalExecutionScope := by
  obtain ⟨hkeys, hadded⟩ := expandScope_eq (R := R) (P.lineageGraph.orderedKeys.length + 1)
    R.normalExecutionScope.toFinset ∅
  rw [expandedScope, hadded, hkeys]
  simp

/-- The sets of keys with the normal scope in which no model upstream is missing. -/
def Sufficient (R : DirectPlanRequest P) (keys : Set LogicalResourceKey) : Prop :=
  (∀ key ∈ R.normalExecutionScope, key ∈ keys) ∧
    ∀ key ∈ keys, ∀ key', P.lineageGraph.DirectlyReads key key' →
      key' ∈ P.compiledProject.models.map (·.key) →
        relationNameByLogicalKey P key' ∉ R.existingNames → key' ∈ keys

theorem isLeast_expandedScope :
    IsLeast {keys | R.Sufficient keys} {key | key ∈ R.expandedScope.1} := by
  have hkeys : R.expandedScope.1 =
      saturate R.addMissing (P.lineageGraph.orderedKeys.length + 1)
        R.normalExecutionScope.toFinset := (expandScope_eq _ _ _).1
  constructor
  · constructor
    · intro key hkey
      change key ∈ R.expandedScope.1
      rw [hkeys]
      exact subset_saturate (fun _ => Finset.subset_union_left) _ _ (mem_toFinset.mpr hkey)
    · intro key hkey key' hreads hmodel habsent
      by_contra hout
      have hmissing : key' ∈ R.missingModelKeys R.expandedScope.1 :=
        mem_missingModelKeys.mpr ⟨⟨key, hkey, hreads⟩, hout, hmodel, habsent⟩
      rw [missingModelKeys_expandedScope] at hmissing
      cases hmissing
  · rintro keys ⟨hnormal, hclosed⟩ key hkey
    classical
    let bound := P.lineageGraph.orderedKeys.toFinset.filter (· ∈ keys)
    have hstart : R.normalExecutionScope.toFinset ⊆ bound := by
      intro start hstart
      exact Finset.mem_filter.mpr ⟨toFinset_normal_subset hstart,
        hnormal start (mem_toFinset.mp hstart)⟩
    have hstep : R.addMissing bound ⊆ bound := by
      intro next hnext
      rcases mem_addMissing.mp hnext with hnext | ⟨⟨reader, hreader, hreads⟩, hmodel, habsent⟩
      · exact hnext
      · have hreader := (Finset.mem_filter.mp hreader).2
        exact Finset.mem_filter.mpr
          ⟨mem_toFinset.mpr (mem_orderedKeys_of_directlyReads hreads).2,
            hclosed reader hreader next hreads hmodel habsent⟩
    have hkey : key ∈ saturate R.addMissing _ R.normalExecutionScope.toFinset := hkeys ▸ hkey
    exact (Finset.mem_filter.mp (saturate_subset monotone_addMissing hstart hstep _ hkey)).2

theorem mem_expandedScope_ordered (h : key ∈ R.expandedScope.1) :
    key ∈ P.lineageGraph.orderedKeys ∧ key.resourceType = .model := by
  have hsufficient : R.Sufficient {key | key ∈ P.lineageGraph.orderedKeys ∧
      key.resourceType = .model} := by
    constructor
    · exact fun _ => mem_ordered_of_mem_normal
    · intro key _ key' hreads hmodel _
      obtain ⟨m, hm, rfl⟩ := mem_map.mp hmodel
      exact ⟨(mem_orderedKeys_of_directlyReads hreads).2, P.compiledProject.model_key m hm⟩
  exact isLeast_expandedScope.2 hsufficient h

theorem mem_prerequisiteExecutionScope (h : R.includeMissingUpstream = true) :
    key ∈ R.prerequisiteExecutionScope ↔
      key ∈ R.expandedScope.1 ∧ key ∉ R.normalExecutionScope := by
  rw [prerequisiteExecutionScope, if_pos h, mem_modelKeys, mem_filter, decide_eq_true_eq,
    mem_expandedScope_added]
  constructor
  · rintro ⟨⟨-, hkey⟩, -⟩
    exact hkey
  · rintro hkey
    obtain ⟨hordered, hmodel⟩ := mem_expandedScope_ordered hkey.1
    exact ⟨⟨hordered, hkey⟩, hmodel⟩

theorem prerequisiteExecutionScope_eq_nil (h : R.includeMissingUpstream = false) :
    R.prerequisiteExecutionScope = [] := by
  rw [prerequisiteExecutionScope, if_neg (by simp [h])]

theorem mem_executionScope : key ∈ R.executionScope ↔
    key ∈ R.normalExecutionScope ∨ key ∈ R.prerequisiteExecutionScope := by
  rw [executionScope, mem_modelKeys, mem_filter, decide_eq_true_eq, mem_append]
  constructor
  · rintro ⟨⟨-, hkey⟩, -⟩
    exact hkey
  · intro hkey
    have hordered : key ∈ P.lineageGraph.orderedKeys ∧ key.resourceType = .model := by
      rcases hkey with hnormal | hprerequisite
      · exact mem_ordered_of_mem_normal hnormal
      · cases hinclude : R.includeMissingUpstream with
        | true =>
          exact mem_expandedScope_ordered
            ((mem_prerequisiteExecutionScope hinclude).mp hprerequisite).1
        | false =>
          rw [prerequisiteExecutionScope_eq_nil hinclude] at hprerequisite
          cases hprerequisite
    exact ⟨⟨hordered.1, hkey⟩, hordered.2⟩

/-- With the expansion, the execution scope is the least sufficient set. -/
theorem isLeast_executionScope (h : R.includeMissingUpstream = true) :
    IsLeast {keys | R.Sufficient keys} {key | key ∈ R.executionScope} := by
  have hscope : ∀ key, key ∈ R.executionScope ↔ key ∈ R.expandedScope.1 := by
    intro key
    rw [mem_executionScope, mem_prerequisiteExecutionScope h]
    have hnormal : key ∈ R.normalExecutionScope → key ∈ R.expandedScope.1 :=
      isLeast_expandedScope.1.1 key
    tauto
  simpa only [hscope] using isLeast_expandedScope

theorem mem_executionScope_of_not_include (h : R.includeMissingUpstream = false) :
    key ∈ R.executionScope ↔ key ∈ R.normalExecutionScope := by
  rw [mem_executionScope, prerequisiteExecutionScope_eq_nil h]
  simp

/-- The relation of a resource is not there, and nothing but a build would create it. -/
def Unavailable (R : DirectPlanRequest P) (key : LogicalResourceKey) : Prop :=
  relationNameByLogicalKey P key ∉ R.existingNames ∧ isFrameworkManagedSource P key = false

theorem mem_prerequisiteKeys : key' ∈ R.prerequisiteKeys ↔
    (∃ key ∈ R.executionScope, P.lineageGraph.DirectlyReads key key') ∧
      key' ∉ R.executionScope := by
  simp only [prerequisiteKeys, mem_filter, mem_map, mem_flatMap, decide_eq_true_eq]
  constructor
  · rintro ⟨-, ⟨e, ⟨key, hkey, he⟩, rfl⟩, hout⟩
    exact ⟨⟨key, hkey, e, he, rfl⟩, hout⟩
  · rintro ⟨⟨key, hkey, hreads⟩, hout⟩
    have hordered := (mem_orderedKeys_of_directlyReads hreads).2
    obtain ⟨e, he, rfl⟩ := hreads
    exact ⟨hordered, ⟨e, ⟨key, hkey, he⟩, rfl⟩, hout⟩

/-- Something upstream of a scope is unavailable. -/
def LeavesUnavailable (R : DirectPlanRequest P) (scope : List LogicalResourceKey) : Prop :=
  ∃ key ∈ scope, ∃ key', P.lineageGraph.DirectlyReads key key' ∧ key' ∉ scope ∧
    R.Unavailable key'

theorem missing_eq_nil_iff :
    (R.buildPrerequisites.filter fun prerequisite =>
      !prerequisite.present && !prerequisite.frameworkManaged) = [] ↔
        ¬ R.LeavesUnavailable R.executionScope := by
  rw [filter_eq_nil_iff, LeavesUnavailable]
  constructor
  · rintro hnone ⟨key, hkey, key', hreads, hout, habsent, hmanaged⟩
    refine hnone _ (mem_map_of_mem (mem_prerequisiteKeys.mpr ⟨⟨key, hkey, hreads⟩, hout⟩)) ?_
    simp [habsent, hmanaged]
  · intro hnone prerequisite hprerequisite hmissing
    obtain ⟨key', hkey', rfl⟩ := mem_map.mp hprerequisite
    obtain ⟨⟨key, hkey, hreads⟩, hout⟩ := mem_prerequisiteKeys.mp hkey'
    simp only [Bool.and_eq_true, Bool.not_eq_true', decide_eq_false_iff_not] at hmissing
    exact hnone ⟨key, hkey, key', hreads, hout, hmissing⟩

theorem rejectMissingPrerequisites_ok (h : ¬ R.LeavesUnavailable R.executionScope) :
    rejectMissingPrerequisites P R.buildPrerequisites = .ok () := by
  simp only [rejectMissingPrerequisites, missing_eq_nil_iff.mpr h, if_true]

theorem rejectMissingPrerequisites_error (h : R.LeavesUnavailable R.executionScope) :
    ∃ details, rejectMissingPrerequisites P R.buildPrerequisites =
      .error (.missingPrerequisites details) := by
  have hsome := mt missing_eq_nil_iff.mp (not_not.mpr h)
  simp only [rejectMissingPrerequisites, if_neg hsome]
  exact ⟨_, rfl⟩

/-- What is built after the checks does not fail for a missing prerequisite. -/
theorem build_tail_ne_missing {details : List String} :
    (do
      let entries ← R.executionScope.mapM R.buildEntry
      let replayRoots ← R.buildReplayRoots
      replayRoots.forM R.rejectIncompatibleReplayInput
      return R.planOf entries replayRoots) ≠
        Except.error (.missingPrerequisites details) := by
  intro h
  rcases bind_eq_error.mp h with h | ⟨entries, -, h⟩
  · obtain ⟨key, -, h⟩ := mapM_error h
    unfold buildEntry requireDrivingParent at h
    split_ifs at h
    rw [map_eq_error] at h
    split at h <;> cases h
  · rcases bind_eq_error.mp h with h | ⟨replayRoots, -, h⟩
    · obtain ⟨root, -, h⟩ := mapM_error h
      rcases bind_eq_error.mp h with h | ⟨key, -, h⟩
      · unfold requireDrivingParent at h
        split at h <;> cases h
      · rcases bind_eq_error.mp h with h | ⟨mode, -, h⟩
        · unfold replayBoundaryMode at h
          split at h <;> cases h
        · cases h
    · rcases bind_eq_error.mp h with h | ⟨-, -, h⟩
      · obtain ⟨root, -, h⟩ := forM_error h
        unfold rejectIncompatibleReplayInput at h
        split at h
        · cases h
        · dsimp only at h
          split_ifs at h
          cases h
      · cases h

theorem mem_inScopeMaterializedViews {name : String} : name ∈ R.inScopeMaterializedViews ↔
    ∃ key ∈ R.executionScope, (name, .materializedView) ∈ modelRelations P key.name := by
  simp [inScopeMaterializedViews]

theorem outOfScopeConsumers_eq_nil_iff : R.outOfScopeConsumers = [] ↔
    ∀ relation ∈ R.catalog, relation.engine = catalogMaterializedViewEngine →
      (∃ key ∈ R.prerequisiteExecutionScope,
        relationNameByLogicalKey P key ∈ relation.sourceRelationNames) →
      ∃ key ∈ R.executionScope, (relation.name, .materializedView) ∈ modelRelations P key.name := by
  have hsorted : ∀ names : List String, sortedBy (fun name => [name]) names = [] ↔ names = [] := by
    intro names
    rw [eq_nil_iff_forall_not_mem, eq_nil_iff_forall_not_mem]
    simp only [mem_sortedBy]
  unfold outOfScopeConsumers
  dsimp only
  split_ifs with hnone
  · simp only [true_iff]
    rintro relation - - ⟨key, hkey, -⟩
    rw [map_eq_nil_iff] at hnone
    rw [hnone] at hkey
    cases hkey
  · rw [hsorted, map_eq_nil_iff, filter_eq_nil_iff]
    apply forall₂_congr
    intro relation _
    simp only [decide_eq_true_eq, mem_inScopeMaterializedViews, mem_map, exists_exists_and_eq_and]
    constructor
    · intro hnone hengine hreads
      by_contra hout
      exact hnone ⟨hengine, hout, hreads⟩
    · rintro h ⟨hengine, hout, hreads⟩
      exact hout (h hengine hreads)

/-- What a plan promises about its scope. -/
structure ScopeClosed (R : DirectPlanRequest P) (plan : DirectPlan) : Prop where
  /-- What reads a selected model is rebuilt with it. -/
  downstream : ∀ key ∈ R.normalExecutionScope, ∀ key', P.lineageGraph.Reads key' key →
    key' ∈ plan.executionScope
  /-- A materialized view over a relation that is rebuilt as a prerequisite is rebuilt too. -/
  consumers : ∀ relation ∈ R.catalog, relation.engine = catalogMaterializedViewEngine →
    (∃ key ∈ plan.prerequisiteExecutionScope,
      relationNameByLogicalKey P key ∈ relation.sourceRelationNames) →
    ∃ key ∈ plan.executionScope, (relation.name, .materializedView) ∈ modelRelations P key.name
  upstream : ∀ key ∈ plan.executionScope, ∀ key', P.lineageGraph.DirectlyReads key key' →
    key' ∈ plan.executionScope ∨ relationNameByLogicalKey P key' ∈ R.existingNames ∨
      isFrameworkManagedSource P key' = true

theorem scopeClosed_of_build {plan : DirectPlan} (h : R.build = .ok plan) : R.ScopeClosed plan := by
  obtain ⟨-, -, h⟩ := bind_eq_ok.mp h
  obtain ⟨_, hconsumers, h⟩ := bind_eq_ok.mp h
  obtain ⟨_, hmissing, h⟩ := bind_eq_ok.mp h
  obtain ⟨entries, -, h⟩ := bind_eq_ok.mp h
  obtain ⟨replayRoots, -, h⟩ := bind_eq_ok.mp h
  obtain ⟨-, -, h⟩ := bind_eq_ok.mp h
  obtain rfl : R.planOf entries replayRoots = plan := Except.ok.inj h
  constructor
  · intro key hkey key' hreads
    exact mem_executionScope.mpr (.inl (mem_normal_of_reads hkey hreads))
  · refine outOfScopeConsumers_eq_nil_iff.mp ?_
    by_contra hsome
    rw [rejectOutOfScopeDrivingConsumers, if_neg hsome] at hconsumers
    cases hconsumers
  · intro key hkey key' hreads
    by_contra hout
    rw [not_or, not_or] at hout
    obtain ⟨hscope, habsent, hmanaged⟩ := hout
    obtain ⟨details, herror⟩ := rejectMissingPrerequisites_error
      ⟨key, hkey, key', hreads, hscope, habsent, Bool.eq_false_of_not_eq_true hmanaged⟩
    rw [herror] at hmissing
    cases hmissing

end DirectPlanRequest

end

open DirectPlanRequest in
/-- The scope of a direct build: closed where a plan is returned, least where missing models are
taken in, and refused for a missing prerequisite just if it leaves one. -/
theorem directBuild_scope (V : ValidatedProject) (R : DirectPlanRequest V.toRealizedProject) :
    (∀ plan, R.build = .ok plan → R.ScopeClosed plan) ∧
      (R.includeMissingUpstream = true →
        IsLeast {keys | R.Sufficient keys} {key | key ∈ R.executionScope}) ∧
      (∀ fuel, V.lineageGraph.orderedKeys.length + 1 ≤ fuel →
        R.expandScope fuel (R.normalExecutionScope.toFinset, ∅) = R.expandedScope) ∧
      (R.includeMissingUpstream = false →
        ((∃ details, R.build = .error (.missingPrerequisites details)) ↔
          R.LeavesUnavailable R.normalExecutionScope)) := by
  refine ⟨fun _ => scopeClosed_of_build, isLeast_executionScope,
    fun _ => expandScope_eq_expandedScope, fun hnot => ?_⟩
  have hscope : R.LeavesUnavailable R.normalExecutionScope ↔
      R.LeavesUnavailable R.executionScope := by
    simp only [LeavesUnavailable, mem_executionScope_of_not_include hnot]
  have hconsumers : R.rejectOutOfScopeDrivingConsumers = .ok () := by
    refine if_pos (outOfScopeConsumers_eq_nil_iff.mpr ?_)
    rintro relation - - ⟨key, hkey, -⟩
    rw [prerequisiteExecutionScope_eq_nil hnot] at hkey
    cases hkey
  rw [hscope, build, ValidatedProject.rejectAdoptedSourceTargetCollisions_ok, hconsumers]
  constructor
  · rintro ⟨details, herror⟩
    by_contra hnone
    rw [rejectMissingPrerequisites_ok hnone] at herror
    exact build_tail_ne_missing herror
  · intro hleaves
    obtain ⟨details, herror⟩ := rejectMissingPrerequisites_error hleaves
    rw [herror]
    exact ⟨details, rfl⟩

end SqlTide.Planner
