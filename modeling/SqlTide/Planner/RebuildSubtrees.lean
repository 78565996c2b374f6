import SqlTide.Planner.DeploymentPlan

/-!
# The roots of the rebuild

Of the changed objects the plan rebuilds those below no other changed object, and everything that
descends from them, in the way that is resolved for the change of the root. A change below another
one is rebuilt with it, whatever is resolved for the change itself.
-/

namespace SqlTide.Planner

open Compiler Foundations List DesiredState

/-- A desired state with one object for each key, none of which depends on itself. -/
structure AcyclicState extends DesiredState where
  keys_nodup : toDesiredState.keys.Nodup
  acyclic : ∀ key, ¬ Relation.TransGen toDesiredState.DependsOn key key

/-- The root of a subtree that a change asks for. -/
def CandidateRoot (D : DesiredState) (changes : List PlannedObjectChange) (root : ObjectKey) :
    Prop :=
  ∃ change ∈ changes, isRebuildCandidate D change = true ∧ change.key = root

/-- No other candidate root is above this one. -/
def Topmost (D : DesiredState) (changes : List PlannedObjectChange) (root : ObjectKey) : Prop :=
  CandidateRoot D changes root ∧
    ∀ other, CandidateRoot D changes other → D.Descends other root → other = root

/-- What is retained of the candidates. -/
structure RootCollapse (D : DesiredState) (changes : List PlannedObjectChange)
    (retained : List RebuildSubtree) : Prop where
  affected : ∀ subtree ∈ retained, ∀ key,
    key ∈ subtree.affectedKeys ↔ D.Descends subtree.rootKey key
  incomparable : retained.Pairwise fun a b =>
    ¬ D.Descends a.rootKey b.rootKey ∧ ¬ D.Descends b.rootKey a.rootKey
  covered : ∀ root, CandidateRoot D changes root → ∃ subtree ∈ retained,
    ∀ key, D.Descends root key → key ∈ subtree.affectedKeys
  roots : ∀ root, (∃ subtree ∈ retained, subtree.rootKey = root) ↔ Topmost D changes root
  order : ∀ changes' : List PlannedObjectChange, changes'.Perm changes →
    ∃ retained', emitRebuildSubtrees D changes' = .ok retained' ∧
      retained'.map (·.rootKey) = retained.map (·.rootKey)

section

variable (S : AcyclicState)

theorem AcyclicState.exists_rank :
    ∃ rank : ObjectKey → ℕ, ∀ k k', S.DependsOn k k' → rank k' < rank k := by
  classical
  let included := S.keys ++ S.objects.flatMap (·.deps)
  have hmem : ∀ k k', S.DependsOn k k' → k ∈ included ∧ k' ∈ included := by
    rintro k k' ⟨object, hobject, rfl, hdep⟩
    exact ⟨mem_append_left _ (mem_map_of_mem hobject),
      mem_append_right _ (mem_flatMap.mpr ⟨object, hobject, hdep⟩)⟩
  have hacyclic : ¬ TopologicalOrder.Cyclic included S.depsOf := by
    rintro ⟨key, hcycle⟩
    refine S.acyclic key (Relation.TransGen.mono ?_ key key hcycle)
    rintro a b ⟨-, -, hdep⟩
    exact (mem_depsOf S.keys_nodup).mp hdep
  obtain ⟨rank, hrank⟩ := TopologicalOrder.exists_rank_of_not_cyclic hacyclic
  refine ⟨rank, fun k k' hdep => ?_⟩
  exact hrank k (hmem k k' hdep).1 k' ((mem_depsOf S.keys_nodup).mpr hdep) (hmem k k' hdep).2

variable {S}

theorem AcyclicState.descends_antisymm {a b : ObjectKey} (hab : S.Descends a b)
    (hba : S.Descends b a) : a = b := by
  by_contra hne
  have hab' : Relation.TransGen (fun a b => S.DependsOn b a) a b :=
    (Relation.reflTransGen_iff_eq_or_transGen.mp hab).resolve_left (Ne.symm hne)
  have hcycle := hab'.trans_left hba
  exact S.acyclic a (Relation.transGen_swap.mp hcycle)

theorem AcyclicState.exists_descendantKeys {root : ObjectKey} (hroot : root ∈ S.keys) :
    ∃ keys, S.collectDesiredDescendantKeys root = .ok keys ∧ keys.Nodup ∧
      ∀ k, k ∈ keys ↔ S.Descends root k := by
  obtain ⟨rank, hrank⟩ := S.exists_rank
  obtain ⟨keys, hok, hnodup, hmem, -⟩ := orderDesiredKeys_eq_ok S.keys_nodup
    hrank (S.descendantKeySet root)
  refine ⟨keys, hok, hnodup, ?_⟩
  intro k
  rw [hmem, mem_descendantKeySet S.keys_nodup hroot, and_iff_right_iff_imp]
  intro hdescends
  cases hdescends with
  | refl => exact hroot
  | tail _ hdep =>
    obtain ⟨object, hobject, rfl, -⟩ := hdep
    exact mem_map_of_mem hobject

/-- From a materialized view the search goes on at its source table, and from there along
dependencies only. -/
theorem AcyclicState.exists_nearestAnchor (root : ObjectKey) (allowRootKey : Bool) :
    ∃ key, S.findNearestReplayAnchorKey root allowRootKey = .ok key := by
  obtain ⟨rank, hrank⟩ := S.exists_rank
  let top := S.keys.toFinset.sup rank
  have htop : ∀ key ∈ S.keys, rank key ≤ top :=
    fun key hkey => Finset.le_sup (mem_toFinset.mpr hkey)
  let anchorRank : ObjectKey → ℕ := fun key =>
    if key.objectType = .materializedView then top + 2
    else if key ∈ S.keys then rank key + 1 else 0
  have htable : ∀ name : String, anchorRank ⟨.table, name⟩ < top + 2 := by
    intro name
    have hrank : anchorRank ⟨.table, name⟩ =
        if (⟨.table, name⟩ : ObjectKey) ∈ S.keys then rank ⟨.table, name⟩ + 1 else 0 :=
      if_neg (by simp)
    rw [hrank]
    split_ifs with hmem
    · have := htop _ hmem
      omega
    · omega
  suffices hdown : ∀ current next, S.nextAnchorKey root allowRootKey current = some next →
      anchorRank next < anchorRank current from
    nearestAnchor_eq_ok hdown nodup_nil (by simp) (by simp) (by simp)
  intro current next hnext
  rcases nextAnchorKey_cases hnext with ⟨view, -, rfl, rfl⟩ | ⟨hview, hdep, htype⟩
  · exact htable view.spec.sourceTableName
  · have hlt := hrank current next hdep
    have hcurrent : anchorRank current = rank current + 1 := by
      simp only [anchorRank, if_neg hview, if_pos hdep.mem_keys]
    have hbelow : anchorRank next = if next ∈ S.keys then rank next + 1 else 0 :=
      if_neg (by simp [htype])
    rw [hcurrent, hbelow]
    split_ifs <;> omega

end

/-- How the subtree of a change is rebuilt on its own. -/
def changePolicy (D : DesiredState) (change : PlannedObjectChange) : ExecutionPolicy :=
  executionPolicyForChange change (desiredTable D change.key)

/-- The subtree is the one that a change asks for. -/
structure SubtreeFor (D : DesiredState) (change : PlannedObjectChange)
    (subtree : RebuildSubtree) : Prop where
  root : subtree.rootKey = change.key
  collected : D.collectDesiredDescendantKeys change.key = .ok subtree.affectedKeys
  nodup : subtree.affectedKeys.Nodup
  affected : ∀ key, key ∈ subtree.affectedKeys ↔ D.Descends subtree.rootKey key
  mode : subtree.executionMode = (changePolicy D change).executionMode

section

variable {S : AcyclicState} {changes : List PlannedObjectChange}

theorem AcyclicState.exists_subtree (change : PlannedObjectChange) (hkey : change.key ∈ S.keys) :
    ∃ subtree, buildRebuildSubtree S.toDesiredState change.key
        (changePolicy S.toDesiredState change) = .ok subtree ∧
      SubtreeFor S.toDesiredState change subtree := by
  obtain ⟨keys, hkeys, hnodup, hmem⟩ := AcyclicState.exists_descendantKeys hkey
  obtain ⟨anchor, hanchor⟩ := AcyclicState.exists_nearestAnchor (S := S) change.key false
  refine ⟨_, by rw [buildRebuildSubtree, hkeys, hanchor]; rfl, ?_⟩
  exact ⟨rfl, hkeys, hnodup, hmem, rfl⟩

theorem AcyclicState.exists_build :
    ∃ build : PlannedObjectChange → RebuildSubtree, ∀ change, change.key ∈ S.keys →
      buildRebuildSubtree S.toDesiredState change.key (changePolicy S.toDesiredState change) =
          .ok (build change) ∧
        SubtreeFor S.toDesiredState change (build change) := by
  have hexists : ∀ change : PlannedObjectChange, ∃ subtree, change.key ∈ S.keys →
      buildRebuildSubtree S.toDesiredState change.key (changePolicy S.toDesiredState change) =
          .ok subtree ∧
        SubtreeFor S.toDesiredState change subtree := by
    intro change
    by_cases hkey : change.key ∈ S.keys
    · obtain ⟨subtree, hsubtree⟩ := AcyclicState.exists_subtree change hkey
      exact ⟨subtree, fun _ => hsubtree⟩
    · exact ⟨⟨change.key, [], change.key, false, .fullRebuild, false, none, none, none⟩,
        fun h => absurd h hkey⟩
  choose build hbuild using hexists
  exact ⟨build, hbuild⟩

/-- The first of the subtrees with its root is the one that is retained. -/
theorem find_of_mem_retained {subtrees : List RebuildSubtree}
    (hself : ∀ subtree ∈ subtrees, subtree.rootKey ∈ subtree.affectedKeys) :
    ∀ subtree ∈ subtrees.foldl retain [],
      subtrees.find? (·.rootKey = subtree.rootKey) = some subtree := by
  induction subtrees using reverseRecOn with
  | nil => simp
  | append_singleton subtrees last ih =>
    have hbefore := ih fun subtree hsubtree => hself subtree (mem_append_left _ hsubtree)
    have hcollapsed := collapsed_foldl subtrees
    intro subtree hsubtree
    rw [foldl_append, foldl_cons, foldl_nil] at hsubtree
    rw [retain] at hsubtree
    rw [find?_append]
    split_ifs at hsubtree with hcovered
    · rw [hbefore subtree hsubtree, Option.some_or]
    · rcases mem_append.mp hsubtree with hsubtree | hsubtree
      · rw [hbefore subtree hsubtree, Option.some_or]
      · obtain rfl := mem_singleton.mp hsubtree
        have hnone : subtrees.find? (·.rootKey = subtree.rootKey) = none := by
          rw [find?_eq_none]
          intro other hother hroot
          simp only [decide_eq_true_eq] at hroot
          simp only [any_eq_true, decide_eq_true_eq, not_exists, not_and] at hcovered
          obtain ⟨cover, hcover, hmem⟩ := hcollapsed.covered other hother
          refine hcovered cover hcover ?_
          rw [← hroot]
          rcases hmem with rfl | hmem
          · exact hself cover (mem_append_left _ hother)
          · exact hmem
        simp [hnone]

variable {root : ObjectKey} {changes' : List PlannedObjectChange} {retained : List RebuildSubtree}

theorem find_insertionSort {candidates : List RebuildSubtree}
    (hsame : ∀ a ∈ candidates, ∀ b ∈ candidates, a.rootKey = root → b.rootKey = root →
      comesFirst a b) :
    (candidates.insertionSort comesFirst).find? (·.rootKey = root) =
      candidates.find? (·.rootKey = root) := by
  have hpairwise : (candidates.filter (·.rootKey = root)).Pairwise comesFirst := by
    refine pairwise_of_forall_mem_list ?_
    intro a ha b hb
    obtain ⟨ha, hroot⟩ := mem_filter.mp ha
    obtain ⟨hb, hroot'⟩ := mem_filter.mp hb
    exact hsame a ha b hb (by simpa using hroot) (by simpa using hroot')
  have hsub := (sublist_insertionSort hpairwise filter_sublist).filter
    (fun subtree => decide (subtree.rootKey = root))
  rw [filter_filter] at hsub
  simp only [Bool.and_self] at hsub
  have heq := hsub.eq_of_length ((perm_insertionSort comesFirst candidates).filter _).length_eq.symm
  rw [← head?_filter, ← head?_filter, heq]

/-- The candidates of some changes of an acyclic state, and what is retained of them. -/
theorem exists_emitted (hknown : ∀ change ∈ changes, change.key ∈ S.keys)
    {build : PlannedObjectChange → RebuildSubtree} (hbuild : ∀ change, change.key ∈ S.keys →
      buildRebuildSubtree S.toDesiredState change.key (changePolicy S.toDesiredState change) =
          .ok (build change) ∧
        SubtreeFor S.toDesiredState change (build change)) :
    emitRebuildSubtrees S.toDesiredState changes =
      .ok ((((changes.filter (isRebuildCandidate S.toDesiredState)).map build).insertionSort
        comesFirst).foldl retain []) := by
  have hcandidates : candidateSubtrees S.toDesiredState changes =
      .ok ((changes.filter (isRebuildCandidate S.toDesiredState)).map build) := by
    refine mapM_eq_ok_map ?_
    intro change hchange
    exact (hbuild change (hknown change (mem_filter.mp hchange).1)).1
  rw [emitRebuildSubtrees, hcandidates]
  rfl

theorem SubtreeFor.length_lt {a b : PlannedObjectChange} {subtree above : RebuildSubtree}
    (h : SubtreeFor S.toDesiredState a subtree) (h' : SubtreeFor S.toDesiredState b above)
    (hdescends : S.Descends above.rootKey subtree.rootKey) (hne : above.rootKey ≠ subtree.rootKey) :
    subtree.affectedKeys.length < above.affectedKeys.length := by
  have hnot : above.rootKey ∉ subtree.affectedKeys := by
    intro hmem
    exact hne (AcyclicState.descends_antisymm hdescends ((h.affected _).mp hmem))
  have hnodup : (above.rootKey :: subtree.affectedKeys).Nodup := nodup_cons.mpr ⟨hnot, h.nodup⟩
  have hsubset : above.rootKey :: subtree.affectedKeys ⊆ above.affectedKeys := by
    intro key hkey
    refine (h'.affected key).mpr ?_
    rcases mem_cons.mp hkey with rfl | hkey
    · exact .refl
    · exact hdescends.trans ((h.affected key).mp hkey)
  exact (subperm_of_subset hnodup hsubset).length_le

theorem sortKey_injective : Function.Injective sortKey := by
  rintro ⟨type, name⟩ ⟨type', name'⟩ h
  obtain ⟨htype, hname⟩ : type.value = type'.value ∧ name = name' := by
    simpa [sortKey] using h
  cases type <;> cases type' <;> simp_all [DesiredObjectType.value]

/-- What is retained of changes to known objects. -/
structure RetainedOf (S : AcyclicState) (changes : List PlannedObjectChange)
    (retained : List RebuildSubtree) : Prop where
  built : ∀ subtree ∈ retained, ∃ change,
    changes.find? (fun change => isRebuildCandidate S.toDesiredState change &&
      change.key = subtree.rootKey) = some change ∧ SubtreeFor S.toDesiredState change subtree
  sorted : retained.Pairwise comesFirst
  apart : retained.Pairwise fun a b => b.rootKey ∉ a.affectedKeys
  covered : ∀ root, CandidateRoot S.toDesiredState changes root →
    ∃ subtree ∈ retained, root ∈ subtree.affectedKeys

theorem exists_retained (hknown : ∀ change ∈ changes, change.key ∈ S.keys) :
    ∃ retained, emitRebuildSubtrees S.toDesiredState changes = .ok retained ∧
      RetainedOf S changes retained := by
  obtain ⟨build, hbuild⟩ := S.exists_build
  let chosen := changes.filter (isRebuildCandidate S.toDesiredState)
  have hchosen : ∀ change ∈ chosen, SubtreeFor S.toDesiredState change (build change) :=
    fun change hchange => (hbuild change (hknown change (mem_filter.mp hchange).1)).2
  have hcollapsed := collapsed_foldl ((chosen.map build).insertionSort comesFirst)
  have hself : ∀ subtree ∈ (chosen.map build).insertionSort comesFirst,
      subtree.rootKey ∈ subtree.affectedKeys := by
    intro subtree hsubtree
    obtain ⟨change, hchange, rfl⟩ := mem_map.mp ((mem_insertionSort _).mp hsubtree)
    exact ((hchosen change hchange).affected _).mpr .refl
  refine ⟨_, exists_emitted hknown hbuild, ?_, ?_, hcollapsed.apart, ?_⟩
  · intro subtree hsubtree
    have hfirst := find_of_mem_retained hself subtree hsubtree
    have hsame : ∀ a ∈ chosen.map build, ∀ b ∈ chosen.map build, a.rootKey = subtree.rootKey →
        b.rootKey = subtree.rootKey → comesFirst a b := by
      intro a ha b hb hroot hroot'
      obtain ⟨change, hchange, rfl⟩ := mem_map.mp ha
      obtain ⟨change', hchange', rfl⟩ := mem_map.mp hb
      have hkeys : (build change).affectedKeys = (build change').affectedKeys := by
        have hok := (hchosen change hchange).collected
        rw [← (hchosen change hchange).root, hroot, ← hroot',
          (hchosen change' hchange').root, (hchosen change' hchange').collected] at hok
        exact (Except.ok.inj hok).symm
      exact .inr ⟨by rw [hkeys], by rw [hroot, hroot']⟩
    rw [find_insertionSort hsame, find?_map] at hfirst
    obtain ⟨change, hfind, rfl⟩ := Option.map_eq_some_iff.mp hfirst
    refine ⟨change, ?_, hchosen change (mem_of_find?_eq_some hfind)⟩
    rw [find?_filter] at hfind
    rw [← hfind]
    refine find?_congr ?_
    intro other hother
    by_cases hcandidate : isRebuildCandidate S.toDesiredState other = true
    · have hmem : other ∈ chosen := mem_filter.mpr ⟨hother, hcandidate⟩
      simp [hcandidate, (hchosen other hmem).root]
    · simp [hcandidate]
  · exact (pairwise_insertionSort comesFirst _).sublist hcollapsed.sublist
  · rintro root ⟨change, hchange, hcandidate, rfl⟩
    have hmem : change ∈ chosen := mem_filter.mpr ⟨hchange, hcandidate⟩
    obtain ⟨other, hother, heq⟩ := hcollapsed.covered (build change)
      ((mem_insertionSort _).mpr (mem_map_of_mem hmem))
    refine ⟨other, hother, ?_⟩
    rw [← (hchosen change hmem).root]
    rcases heq with rfl | hmem'
    · exact hself _ (hcollapsed.sublist.subset hother)
    · exact hmem'

namespace RetainedOf

variable {retained : List RebuildSubtree} (h : RetainedOf S changes retained)

include h

theorem affected {subtree : RebuildSubtree} (hsubtree : subtree ∈ retained) (key : ObjectKey) :
    key ∈ subtree.affectedKeys ↔ S.Descends subtree.rootKey key := by
  obtain ⟨change, -, hfor⟩ := h.built subtree hsubtree
  exact hfor.affected key

theorem candidate {subtree : RebuildSubtree} (hsubtree : subtree ∈ retained) :
    CandidateRoot S.toDesiredState changes subtree.rootKey := by
  obtain ⟨change, hfind, -⟩ := h.built subtree hsubtree
  have hmem := mem_of_find?_eq_some hfind
  have hfound := find?_some hfind
  simp only [Bool.and_eq_true, decide_eq_true_eq] at hfound
  exact ⟨change, hmem, hfound.1, hfound.2⟩

/-- No root is below another one: the larger subtree comes first, and does not hold the root of
one that comes later. -/
theorem incomparable : retained.Pairwise fun a b =>
    ¬ S.Descends a.rootKey b.rootKey ∧ ¬ S.Descends b.rootKey a.rootKey := by
  refine (h.apart.and h.sorted).imp_of_mem ?_
  rintro a b ha hb ⟨hapart, hfirst⟩
  have hdown : ¬ S.Descends a.rootKey b.rootKey := fun hdescends =>
    hapart ((h.affected ha _).mpr hdescends)
  refine ⟨hdown, fun hup => ?_⟩
  obtain ⟨change, -, hfor⟩ := h.built a ha
  obtain ⟨change', -, hfor'⟩ := h.built b hb
  have hne : b.rootKey ≠ a.rootKey := by
    intro heq
    exact hdown (heq ▸ .refl)
  have hlt := hfor.length_lt hfor' hup hne
  rcases hfirst with hfirst | ⟨hfirst, -⟩
  · omega
  · omega

theorem eq_of_descends {a b : RebuildSubtree} (ha : a ∈ retained) (hb : b ∈ retained)
    (hdescends : S.Descends a.rootKey b.rootKey) : a = b := by
  by_contra hne
  have hsymm : Std.Symm fun a b : RebuildSubtree =>
      ¬ S.Descends a.rootKey b.rootKey ∧ ¬ S.Descends b.rootKey a.rootKey :=
    ⟨fun _ _ hpair => ⟨hpair.2, hpair.1⟩⟩
  exact (h.incomparable.forall ha hb hne).1 hdescends

theorem exists_root_iff (root : ObjectKey) :
    (∃ subtree ∈ retained, subtree.rootKey = root) ↔ Topmost S.toDesiredState changes root := by
  constructor
  · rintro ⟨subtree, hsubtree, rfl⟩
    refine ⟨h.candidate hsubtree, fun other hother hdescends => ?_⟩
    obtain ⟨cover, hcover, hmem⟩ := h.covered other hother
    have hbelow := (h.affected hcover other).mp hmem
    obtain rfl := h.eq_of_descends hcover hsubtree (hbelow.trans hdescends)
    exact AcyclicState.descends_antisymm hdescends hbelow
  · rintro ⟨hroot, htop⟩
    obtain ⟨cover, hcover, hmem⟩ := h.covered root hroot
    exact ⟨cover, hcover, htop _ (h.candidate hcover) ((h.affected hcover root).mp hmem)⟩

theorem nodup_roots : (retained.map (·.rootKey)).Nodup := by
  refine pairwise_map.mpr (h.incomparable.imp ?_)
  rintro a b ⟨hdown, -⟩ heq
  exact hdown (heq ▸ .refl)

end RetainedOf

theorem candidateRoot_of_perm
    (hperm : changes'.Perm changes) : CandidateRoot S.toDesiredState changes' root ↔
      CandidateRoot S.toDesiredState changes root := by
  simp only [CandidateRoot, hperm.mem_iff]

theorem roots_eq_of_perm {retained' : List RebuildSubtree} (hperm : changes'.Perm changes)
    (h : RetainedOf S changes retained) (h' : RetainedOf S changes' retained') :
    retained'.map (·.rootKey) = retained.map (·.rootKey) := by
  let below : ObjectKey → ℕ := fun key =>
    ((S.collectDesiredDescendantKeys key).toOption.getD []).length
  have hlength : ∀ {changes : List PlannedObjectChange} {retained : List RebuildSubtree},
      RetainedOf S changes retained → ∀ subtree ∈ retained,
        below subtree.rootKey = subtree.affectedKeys.length := by
    intro changes retained h subtree hsubtree
    obtain ⟨change, -, hfor⟩ := h.built subtree hsubtree
    simp only [below, hfor.root, hfor.collected, Except.toOption, Option.getD_some]
  have hsorted : ∀ {changes : List PlannedObjectChange} {retained : List RebuildSubtree},
      RetainedOf S changes retained → (retained.map (·.rootKey)).Pairwise fun key key' =>
        below key' < below key ∨
          (below key = below key' ∧ sortKey key ≤ sortKey key') := by
    intro changes retained h
    refine pairwise_map.mpr (h.sorted.imp_of_mem ?_)
    intro a b ha hb hfirst
    rw [hlength h a ha, hlength h b hb]
    exact hfirst
  refine @List.Perm.eq_of_pairwise _ (fun key key' => below key' < below key ∨
    (below key = below key' ∧ sortKey key ≤ sortKey key')) _ _ ?_
    (hsorted h') (hsorted h) ?_
  · rintro key key' - - (hlt | ⟨heq, hle⟩) (hlt' | ⟨heq', hle'⟩)
    · omega
    · omega
    · omega
    · exact sortKey_injective (le_antisymm hle hle')
  · refine (perm_ext_iff_of_nodup h'.nodup_roots h.nodup_roots).mpr ?_
    intro root
    simp only [mem_map, h.exists_root_iff, h'.exists_root_iff, Topmost, candidateRoot_of_perm hperm]

/-- Of changes to an acyclic state the plan retains the subtrees of the topmost roots, in an order
that does not depend on that of the changes. -/
theorem exists_rootCollapse (hknown : ∀ change ∈ changes, change.key ∈ S.keys) :
    ∃ retained, emitRebuildSubtrees S.toDesiredState changes = .ok retained ∧
      RootCollapse S.toDesiredState changes retained := by
  obtain ⟨retained, hok, h⟩ := exists_retained hknown
  refine ⟨retained, hok, fun _ => h.affected, h.incomparable, ?_, h.exists_root_iff, ?_⟩
  · intro root hroot
    obtain ⟨subtree, hsubtree, hmem⟩ := h.covered root hroot
    refine ⟨subtree, hsubtree, fun key hkey => (h.affected hsubtree key).mpr ?_⟩
    exact ((h.affected hsubtree root).mp hmem).trans hkey
  · intro changes' hperm
    have hknown' : ∀ change ∈ changes', change.key ∈ S.keys :=
      fun change hchange => hknown change (hperm.mem_iff.mp hchange)
    obtain ⟨retained', hok', h'⟩ := exists_retained hknown'
    exact ⟨retained', hok', roots_eq_of_perm hperm h h'⟩

/-- Every subtree that holds the object of a change which calls for a full rebuild is rebuilt in
full. -/
def NeverWeakened (D : DesiredState) (changes : List PlannedObjectChange)
    (retained : List RebuildSubtree) : Prop :=
  ∀ change ∈ changes, isRebuildCandidate D change = true →
    (changePolicy D change).executionMode = .fullRebuild →
    ∀ subtree ∈ retained, change.key ∈ subtree.affectedKeys →
      subtree.executionMode = .fullRebuild

/-- Above a change that calls for a full rebuild, the first change of a topmost root calls for one
as well. -/
def FullOnTop (D : DesiredState) (changes : List PlannedObjectChange) : Prop :=
  ∀ change ∈ changes, isRebuildCandidate D change = true →
    (changePolicy D change).executionMode = .fullRebuild →
    ∀ root, Topmost D changes root → D.Descends root change.key →
      ∀ top ∈ changes.find? (fun top => isRebuildCandidate D top && top.key = root),
        (changePolicy D top).executionMode = .fullRebuild

theorem RetainedOf.fullOnTop_iff (h : RetainedOf S changes retained) :
    NeverWeakened S.toDesiredState changes retained ↔ FullOnTop S.toDesiredState changes := by
  constructor
  · intro hfull change hchange hcandidate hmode root htop hdescends top hfind
    obtain ⟨subtree, hsubtree, rfl⟩ := (h.exists_root_iff root).mpr htop
    obtain ⟨first, hfirst, hfor⟩ := h.built subtree hsubtree
    obtain rfl : first = top := Option.some.inj (hfirst.symm.trans hfind)
    rw [← hfor.mode]
    exact hfull change hchange hcandidate hmode subtree hsubtree
      ((h.affected hsubtree _).mpr hdescends)
  · intro hfull change hchange hcandidate hmode subtree hsubtree hmem
    obtain ⟨first, hfirst, hfor⟩ := h.built subtree hsubtree
    rw [hfor.mode]
    exact hfull change hchange hcandidate hmode subtree.rootKey
      ((h.exists_root_iff _).mp ⟨subtree, hsubtree, rfl⟩) ((h.affected hsubtree _).mp hmem)
      first hfirst

/-- Collapsing weakens no full rebuild just where the topmost changes above one are full. -/
theorem neverWeakened_iff (hknown : ∀ change ∈ changes, change.key ∈ S.keys) :
    ∃ retained, emitRebuildSubtrees S.toDesiredState changes = .ok retained ∧
      (NeverWeakened S.toDesiredState changes retained ↔
        FullOnTop S.toDesiredState changes) := by
  obtain ⟨retained, hok, h⟩ := exists_retained hknown
  exact ⟨retained, hok, h.fullOnTop_iff⟩

end

def ordersTable (name : String) (deps : List ObjectKey) : DesiredObject :=
  .table
    { name
      deps
      spec := { columns := [], storage := { engine := "MergeTree", orderBy := ["id"] } }
      logicalModelName := name }

/-- The daily totals are computed from the orders. -/
def ordersState : AcyclicState where
  objects := [ordersTable "orders" [], ordersTable "daily" [⟨.table, "orders"⟩]]
  replayAnchorKeys := ∅
  mutableRefWarningKeys := ∅
  externalSourceReplayConfigs := []
  keys_nodup := by decide
  acyclic := by
    have hstep : ∀ a b : ObjectKey, (∃ object ∈ [ordersTable "orders" [],
        ordersTable "daily" [⟨.table, "orders"⟩]], object.key = a ∧ b ∈ object.deps) →
        a = ⟨.table, "daily"⟩ ∧ b = ⟨.table, "orders"⟩ := by
      rintro a b ⟨object, hobject, rfl, hdep⟩
      rcases mem_cons.mp hobject with rfl | hobject
      · cases hdep
      · obtain rfl := mem_singleton.mp hobject
        exact ⟨rfl, mem_singleton.mp hdep⟩
    intro key hcycle
    obtain ⟨next, hfirst, -⟩ := Relation.TransGen.head'_iff.mp hcycle
    obtain ⟨last, -, hlast⟩ := Relation.TransGen.tail'_iff.mp hcycle
    have hdaily := (hstep _ _ hfirst).1
    have horders := (hstep _ _ hlast).2
    rw [hdaily] at horders
    exact absurd horders (by decide)

/-- A column was added to the orders, and a full refresh of the daily totals was asked for. -/
def ordersChanges : List PlannedObjectChange :=
  [{ key := ⟨.table, "orders"⟩
     changeType := .rebuild
     schemaChangeKind := some .nonBreaking
     seedCompatibility := some .seedable },
    { key := ⟨.table, "daily"⟩
      changeType := .rebuild
      forceFullRefresh := true }]

theorem exists_rootCollapse_orders :
    ∃ retained, emitRebuildSubtrees ordersState.toDesiredState ordersChanges = .ok retained ∧
      RootCollapse ordersState.toDesiredState ordersChanges retained :=
  exists_rootCollapse (by decide)

theorem neverWeakened_iff_orders :
    ∃ retained, emitRebuildSubtrees ordersState.toDesiredState ordersChanges = .ok retained ∧
      (NeverWeakened ordersState.toDesiredState ordersChanges retained ↔
        FullOnTop ordersState.toDesiredState ordersChanges) :=
  neverWeakened_iff (by decide)

/-- The daily totals are rebuilt from the seed of the orders, without their full refresh. -/
theorem not_neverWeakened :
    ¬ ∀ (S : AcyclicState) (changes : List PlannedObjectChange),
      (∀ change ∈ changes, change.key ∈ S.keys) → ∃ retained,
        emitRebuildSubtrees S.toDesiredState changes = .ok retained ∧
          NeverWeakened S.toDesiredState changes retained := by
  intro h
  obtain ⟨retained, hok, hfull⟩ := h ordersState ordersChanges (by decide)
  have hemitted : (emitRebuildSubtrees ordersState.toDesiredState ordersChanges).toOption =
      some [⟨⟨.table, "orders"⟩, [⟨.table, "orders"⟩, ⟨.table, "daily"⟩], ⟨.table, "orders"⟩, true,
        .seededBoundedRebuild, false, none, none, none⟩] := by decide +kernel
  rw [hok] at hemitted
  cases hemitted
  have hdaily := hfull ⟨⟨.table, "daily"⟩, .rebuild, true, none, none, none⟩ (by decide)
    (by decide) (by decide) _ mem_cons_self (by decide)
  exact absurd hdaily (by decide)

end SqlTide.Planner
