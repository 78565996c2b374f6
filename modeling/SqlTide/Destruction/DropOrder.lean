import SqlTide.Destruction.Ordering
import SqlTide.Foundations.TopologicalOrder

/-!
# What the order of drops guarantees

The loop takes out a relation once every planned relation that depends on it has been taken out.
It is the dependency order of the names, in which the dependants of a relation come first, so
that it lists every relation exactly where no relation depends on itself through others.
-/

namespace SqlTide.Destruction

open Foundations List TopologicalOrder

variable {relations relations' : List DestructionRelationEvidence}

/-- A planned relation of the first name declares a dependency on a planned relation of the
second one. -/
def DependsOn (relations : List DestructionRelationEvidence) (name dependency : String) : Prop :=
  ∃ r ∈ relations, r.name = name ∧ dependency ∈ r.dependencyRelationNames ∧
    ∃ r' ∈ relations, r'.name = dependency

def DependencyCycle (relations : List DestructionRelationEvidence) : Prop :=
  ∃ name, Relation.TransGen (DependsOn relations) name name

variable {r : DestructionRelationEvidence} {name : String} {ready : List String}

theorem mem_dependenciesOf :
    name ∈ dependenciesOf relations r ↔
      name ∈ r.dependencyRelationNames ∧ name ∈ relations.map (·.name) := by
  simp [dependenciesOf]

theorem duplicateRelation_eq_none {seen : List String} :
    duplicateRelation seen relations = none ↔
      (relations.map (·.name)).Nodup ∧ ∀ r ∈ relations, r.name ∉ seen := by
  induction relations generalizing seen with
  | nil => simp [duplicateRelation]
  | cons r relations ih =>
    rw [duplicateRelation]
    split_ifs with hseen
    · simp [hseen]
    · rw [ih]
      simp only [map_cons, nodup_cons, mem_map, mem_cons, not_exists, not_and,
        not_or, forall_eq_or_imp]
      grind

def dependenciesOfName (relations : List DestructionRelationEvidence) (name : String) :
    List String :=
  ((relations.find? fun r => r.name = name).map (dependenciesOf relations)).getD []

def dependantsOf (relations : List DestructionRelationEvidence) (name : String) : List String :=
  (relations.filter fun r => name ∈ dependenciesOf relations r).map (·.name)

theorem mem_dependantsOf {dependant : String} :
    dependant ∈ dependantsOf relations name ↔ DependsOn relations dependant name := by
  simp only [dependantsOf, mem_map, mem_filter, decide_eq_true_eq, mem_dependenciesOf, DependsOn]
  grind

theorem nodup_dependenciesOfName (name : String) : (dependenciesOfName relations name).Nodup := by
  rw [dependenciesOfName]
  cases relations.find? fun r => r.name = name with
  | none => simp
  | some r =>
    rw [Option.map_some, Option.getD_some, dependenciesOf]
    exact nodup_sortedNames _

section

variable (hnames : (relations.map (·.name)).Nodup)

include hnames

theorem find_of_name (hr : r ∈ relations) :
    (relations.find? fun r' => r'.name = r.name) = some r := by
  apply find?_eq_some_of_unique hr (by simp)
  intro r' hr' hname
  exact inj_on_of_nodup_map hnames hr' hr (by simpa using hname)

theorem mem_dependenciesOfName {dependency : String} :
    dependency ∈ dependenciesOfName relations name ↔ DependsOn relations name dependency := by
  rw [dependenciesOfName]
  constructor
  · intro hmem
    cases hfind : relations.find? fun r => r.name = name with
    | none => simp [hfind] at hmem
    | some r =>
      rw [hfind] at hmem
      obtain ⟨hdep, hplanned⟩ := mem_dependenciesOf.mp hmem
      refine ⟨r, mem_of_find?_eq_some hfind, ?_, hdep, mem_map.mp hplanned⟩
      simpa using find?_some hfind
  · rintro ⟨r, hr, rfl, hdep, hplanned⟩
    rw [find_of_name hnames hr]
    exact mem_dependenciesOf.mpr ⟨hdep, mem_map.mpr hplanned⟩

theorem nodup_dependantsOf (name : String) : (dependantsOf relations name).Nodup :=
  (filter_sublist.map _).nodup hnames

theorem count_dependenciesOfName (name name' : String) :
    (dependenciesOfName relations name).count name' =
      (dependantsOf relations name').count name := by
  by_cases h : DependsOn relations name name'
  · rw [count_eq_one_of_mem (nodup_dependenciesOfName name) ((mem_dependenciesOfName hnames).mpr h),
        count_eq_one_of_mem (nodup_dependantsOf hnames name') (mem_dependantsOf.mpr h)]
  · rw [count_eq_zero_of_not_mem fun hmem => h ((mem_dependenciesOfName hnames).mp hmem),
      count_eq_zero_of_not_mem fun hmem => h (mem_dependantsOf.mp hmem)]

theorem count_of_names :
    ∀ a ∈ relations.map (·.name), ∀ b ∈ relations.map (·.name),
      (dependenciesOfName relations a).count b = (dependantsOf relations b).count a :=
  fun a _ b _ => count_dependenciesOfName hnames a b

end

theorem waitsFor_iff {dependant : String} :
    TopologicalOrder.WaitsFor (relations.map (·.name)) (dependantsOf relations) name dependant ↔
      DependsOn relations dependant name := by
  rw [TopologicalOrder.WaitsFor, mem_dependantsOf]
  constructor
  · exact fun h => h.2.2
  · rintro h
    obtain ⟨r, hr, hname, -, r', hr', hdependency⟩ := id h
    exact ⟨mem_map.mpr ⟨r', hr', hdependency⟩, mem_map.mpr ⟨r, hr, hname⟩, h⟩

theorem cyclic_iff :
    TopologicalOrder.Cyclic (relations.map (·.name)) (dependantsOf relations) ↔
      DependencyCycle relations := by
  have hswap : TopologicalOrder.WaitsFor (relations.map (·.name)) (dependantsOf relations) =
      Function.swap (DependsOn relations) := by
    funext name dependant
    exact propext waitsFor_iff
  rw [TopologicalOrder.Cyclic, DependencyCycle, hswap]
  exact exists_congr fun name => Relation.transGen_swap

def sortNames (names : List String) : List String := names.insertionSort (· ≤ ·)

theorem perm_sortNames (names : List String) : (sortNames names).Perm names :=
  perm_insertionSort _ names

/-- Pushing a name on the heap leaves what sorting the longer list leaves. -/
theorem orderedInsert_eq_sortNames (hready : ready.Pairwise (· ≤ ·))
    (name : String) : ready.orderedInsert (· ≤ ·) name = sortNames (ready ++ [name]) := by
  apply List.Perm.eq_of_pairwise (fun _ _ _ _ => le_antisymm)
  · exact hready.orderedInsert name ready
  · exact pairwise_insertionSort _ _
  · have hcons : (ready.orderedInsert (· ≤ ·) name).Perm (name :: ready) :=
      perm_orderedInsert _ name ready
    have happend : (name :: ready).Perm (ready ++ [name]) := (perm_append_singleton _ _).symm
    exact (hcons.trans happend).trans (perm_sortNames _).symm

/-- The state of the loop, with names in place of relations. -/
def progressOf (counts : String → Int) (ready : List String)
    (ordered : List DestructionRelationEvidence) : TopologicalOrder.Progress String :=
  { ordered := ordered.map (·.name), ready := ready, indegree := counts }

/-- The heap holds planned names, smallest first. -/
structure ReadyNames (relations : List DestructionRelationEvidence) (ready : List String) :
    Prop where
  sorted : ready.Pairwise (· ≤ ·)
  planned : ∀ name ∈ ready, name ∈ relations.map (·.name)

theorem ReadyNames.releaseDependency {counts : String → Int}
    (hname : name ∈ relations.map (·.name)) (h : ReadyNames relations ready) :
    ReadyNames relations (releaseDependency (counts, ready) name).2 := by
  simp only [Destruction.releaseDependency]
  split_ifs
  · refine ⟨h.sorted.orderedInsert name ready, ?_⟩
    intro other hother
    rcases (mem_orderedInsert _).mp hother with rfl | hother
    · exact hname
    · exact h.planned other hother
  · exact h

theorem release_progressOf {counts : String → Int} (ordered : List DestructionRelationEvidence)
    (hname : name ∈ relations.map (·.name)) (h : ReadyNames relations ready) :
    release (relations.map (·.name)) sortNames
        (progressOf counts ready ordered) name =
      progressOf (releaseDependency (counts, ready) name).1
        (releaseDependency (counts, ready) name).2 ordered := by
  simp only [release, hname, if_true, releaseDependency, progressOf,
    Function.update_self, orderedInsert_eq_sortNames h.sorted]
  rfl

theorem foldl_releaseDependency (freed : List String) (counts : String → Int)
    (ordered : List DestructionRelationEvidence)
    (hfreed : ∀ name ∈ freed, name ∈ relations.map (·.name)) (h : ReadyNames relations ready) :
    let state := freed.foldl releaseDependency (counts, ready)
    ReadyNames relations state.2 ∧
      freed.foldl (release (relations.map (·.name)) sortNames)
        (progressOf counts ready ordered) = progressOf state.1 state.2 ordered := by
  induction freed generalizing counts ready with
  | nil => exact ⟨h, rfl⟩
  | cons name freed ih =>
    have hname := hfreed name (by simp)
    rw [foldl_cons, foldl_cons, release_progressOf ordered hname h]
    apply ih
    · exact fun other hother => hfreed other (mem_cons_of_mem _ hother)
    · exact h.releaseDependency hname

/-- A round of the loop takes out the smallest ready name. -/
theorem orderLoop_eq_takeReady (hnames : (relations.map (·.name)).Nodup) (fuel : ℕ)
    (counts : String → Int) (ordered : List DestructionRelationEvidence)
    (h : ReadyNames relations ready) :
    (orderLoop relations fuel counts ready ordered).2.map (·.name) =
      (takeReady (relations.map (·.name)) sortNames
        (dependenciesOfName relations) fuel (progressOf counts ready ordered)).ordered := by
  induction fuel generalizing counts ready ordered with
  | zero => rfl
  | succ fuel ih =>
    cases ready with
    | nil => rfl
    | cons name ready =>
      obtain ⟨r, hr, rfl⟩ := mem_map.mp (h.planned name (by simp))
      have hrest : ReadyNames relations ready :=
        ⟨(pairwise_cons.mp h.sorted).2,
          fun other hother => h.planned other (mem_cons_of_mem _ hother)⟩
      have hfreed : ∀ dependency ∈ dependenciesOf relations r,
          dependency ∈ relations.map (·.name) :=
        fun dependency hmem => (mem_dependenciesOf.mp hmem).2
      have hdependencies : dependenciesOfName relations r.name = dependenciesOf relations r := by
        rw [dependenciesOfName, find_of_name hnames hr]
        rfl
      obtain ⟨hstill, hfold⟩ :=
        foldl_releaseDependency (dependenciesOf relations r) counts (ordered ++ [r]) hfreed hrest
      simp only [orderLoop, find_of_name hnames hr]
      rw [ih _ _ hstill, ← hfold, ← hdependencies]
      simp [takeReady, progressOf]

theorem dependantCounts_eq (name : String) :
    dependantCounts relations name =
      remaining (relations.map (·.name)) (dependantsOf relations) [] name := by
  have hall : (dependantsOf relations name).countP
      (fun dependant => dependant ∈ relations.map (·.name) ∧ dependant ∉ ([] : List String)) =
        (dependantsOf relations name).length := by
    apply countP_eq_length.mpr
    intro dependant hmem
    obtain ⟨r, hr, hname, -⟩ := mem_dependantsOf.mp hmem
    simpa using ⟨r, hr, hname⟩
  rw [remaining, hall, dependantCounts, dependantsOf, length_map]

theorem start_eq (hnames : (relations.map (·.name)).Nodup) :
    start (relations.map (·.name)) sortNames (dependantsOf relations) =
      progressOf (dependantCounts relations)
        (sortedNames ((relations.map (·.name)).filter
          fun name => dependantCounts relations name = 0).toFinset) [] := by
  have hready : ∀ names : List String, names.Nodup → sortedNames names.toFinset =
    sortNames names := by
    intro names hnodup
    rw [← toFinset_eq hnodup]
    rfl
  have hcounts : dependantCounts relations = fun name =>
      (remaining (relations.map (·.name)) (dependantsOf relations) [] name : ℤ) :=
    funext dependantCounts_eq
  rw [hready _ (hnames.filter _), hcounts]
  simp [start, progressOf]

/-- What the loop has taken out at its end. -/
def droppedRelations (relations : List DestructionRelationEvidence) :
    List DestructionRelationEvidence :=
  (orderLoop relations relations.length (dependantCounts relations)
    (sortedNames ((relations.map (·.name)).filter
      fun name => dependantCounts relations name = 0).toFinset) []).2

section

variable (hnames : (relations.map (·.name)).Nodup)

include hnames

theorem droppedRelations_names :
    (droppedRelations relations).map (·.name) =
      topologicalOrder (relations.map (·.name)) sortNames
        (dependantsOf relations) (dependenciesOfName relations) := by
  have hready : ReadyNames relations (sortedNames ((relations.map (·.name)).filter
      fun name => dependantCounts relations name = 0).toFinset) := by
    refine ⟨pairwise_sortedNames _, ?_⟩
    intro name hname
    rw [mem_sortedNames, mem_toFinset] at hname
    exact (mem_filter.mp hname).1
  rw [droppedRelations, orderLoop_eq_takeReady hnames _ _ _ hready,
    topologicalOrder, start_eq hnames, length_map]

theorem subperm_droppedRelations : (droppedRelations relations).Subperm relations := by
  have hnodup := (nodup_topologicalOrder perm_sortNames hnames (count_of_names hnames)).1
  rw [← droppedRelations_names hnames] at hnodup
  apply subperm_of_subset (List.Nodup.of_map _ hnodup)
  exact fun r hr => mem_of_mem_orderLoop (by simp) hr

/-- Every relation is taken out exactly where none waits for itself. -/
theorem perm_droppedRelations_iff :
    (droppedRelations relations).Perm relations ↔ ¬ DependencyCycle relations := by
  rw [← cyclic_iff, ← perm_topologicalOrder_iff perm_sortNames hnames
    (count_of_names hnames), ← droppedRelations_names hnames]
  constructor
  · exact fun hperm => hperm.map _
  · intro hperm
    apply (subperm_droppedRelations hnames).perm_of_length_le
    simpa using hperm.length_eq.ge

theorem droppedRelations_before (hperm : (droppedRelations relations).Perm relations)
    {r' : DestructionRelationEvidence} (hr : r ∈ relations) (hr' : r' ∈ relations)
    (hdep : r'.name ∈ r.dependencyRelationNames) :
    [r, r'].Sublist (droppedRelations relations) := by
  have hfirst := (nodup_topologicalOrder perm_sortNames hnames (count_of_names hnames)).2
  rw [← droppedRelations_names hnames, TopologicalOrder.DependenciesFirst, pairwise_map]
    at hfirst
  have hdepends : DependsOn relations r.name r'.name := ⟨r, hr, rfl, hdep, r', hr', rfl⟩
  apply pair_sublist_of_pairwise hfirst (hperm.mem_iff.mpr hr) (hperm.mem_iff.mpr hr')
  · rintro rfl
    exact (perm_droppedRelations_iff hnames).mp hperm ⟨r.name, .single hdepends⟩
  · exact fun hnot => hnot (mem_dependantsOf.mpr hdepends)

end

theorem dependenciesOf_perm (h : relations'.Perm relations) (r : DestructionRelationEvidence) :
    dependenciesOf relations' r = dependenciesOf relations r := by
  have hnames : (relations'.map (·.name)).toFinset = (relations.map (·.name)).toFinset :=
    toFinset_eq_of_perm _ _ (h.map _)
  rw [dependenciesOf, dependenciesOf, hnames]

theorem dependantCounts_perm (h : relations'.Perm relations) :
    dependantCounts relations' = dependantCounts relations := by
  funext name
  simp only [dependantCounts, dependenciesOf_perm h]
  exact congrArg Nat.cast (h.filter _).length_eq

theorem orderLoop_perm (h : relations'.Perm relations) (hnames : (relations.map (·.name)).Nodup)
    (fuel : ℕ) (counts : String → Int) (ready : List String)
    (ordered : List DestructionRelationEvidence) :
    orderLoop relations' fuel counts ready ordered =
      orderLoop relations fuel counts ready ordered := by
  have hfind : ∀ name, (relations'.find? fun r => r.name = name) =
      relations.find? fun r => r.name = name := by
    intro name
    cases hfound : relations.find? fun r => r.name = name with
    | none =>
      rw [find?_eq_none] at hfound ⊢
      exact fun r hr => hfound r (h.mem_iff.mp hr)
    | some r =>
      have hname : r.name = name := by simpa using find?_some hfound
      subst hname
      exact find_of_name ((h.map _).nodup_iff.mpr hnames)
        (h.mem_iff.mpr (mem_of_find?_eq_some hfound))
  induction fuel generalizing counts ready ordered with
  | zero => rfl
  | succ fuel ih =>
    cases ready with
    | nil => rfl
    | cons name ready => simp only [orderLoop, hfind, dependenciesOf_perm h, ih]

theorem droppedRelations_of_perm (h : relations'.Perm relations)
    (hnames : (relations.map (·.name)).Nodup) :
    droppedRelations relations' = droppedRelations relations := by
  have hready : ((relations'.map (·.name)).filter
      fun name => dependantCounts relations name = 0).toFinset =
        ((relations.map (·.name)).filter
          fun name => dependantCounts relations name = 0).toFinset :=
    toFinset_eq_of_perm _ _ ((h.map _).filter _)
  rw [droppedRelations, droppedRelations, dependantCounts_perm h, hready, h.length_eq,
    orderLoop_perm h hnames]

theorem reverseTopologicallyOrderRelations_eq_ok {ordered : List DestructionRelationEvidence} :
    reverseTopologicallyOrderRelations relations = .ok ordered ↔
      (relations.map (·.name)).Nodup ∧ (droppedRelations relations).Perm relations ∧
        ordered = droppedRelations relations := by
  rw [reverseTopologicallyOrderRelations]
  cases hduplicate : duplicateRelation [] relations with
  | some r =>
    have hnodup : ¬ (relations.map (·.name)).Nodup := by
      intro hnames
      rw [duplicateRelation_eq_none.mpr ⟨hnames, by simp⟩] at hduplicate
      cases hduplicate
    simp [hnodup]
  | none =>
    have hnames := (duplicateRelation_eq_none.mp hduplicate).1
    have hlength : (droppedRelations relations).Perm relations ↔
        (droppedRelations relations).length = relations.length :=
      ⟨List.Perm.length_eq, fun hlength =>
        (subperm_droppedRelations hnames).perm_of_length_le hlength.ge⟩
    rw [hlength]
    simp only [hnames, true_and]
    change (if (droppedRelations relations).length ≠ relations.length then _ else
      Except.ok (droppedRelations relations)) = _ ↔ _
    split_ifs with hlisted
    · simp [hlisted]
    · simp only [not_not] at hlisted
      simp [hlisted, eq_comm]

/-- Drops are ordered with every relation before what it depends on, whatever the order of the
input; what is refused is a name used twice or a dependency cycle. -/
theorem reverseTopologicallyOrderRelations_spec (relations : List DestructionRelationEvidence) :
    (∀ ordered, reverseTopologicallyOrderRelations relations = .ok ordered →
      ordered.Perm relations ∧
      (∀ r ∈ relations, ∀ r' ∈ relations, r'.name ∈ r.dependencyRelationNames →
        [r, r'].Sublist ordered) ∧
      ∀ relations' : List DestructionRelationEvidence, relations'.Perm relations →
        reverseTopologicallyOrderRelations relations' = .ok ordered) ∧
    ((∃ e, reverseTopologicallyOrderRelations relations = .error e) ↔
      ¬ (relations.map (·.name)).Nodup ∨ DependencyCycle relations) := by
  constructor
  · intro ordered hordered
    obtain ⟨hnames, hperm, rfl⟩ := reverseTopologicallyOrderRelations_eq_ok.mp hordered
    refine ⟨hperm, ?_, ?_⟩
    · exact fun r hr r' hr' hdep => droppedRelations_before hnames hperm hr hr' hdep
    · intro relations' h
      rw [reverseTopologicallyOrderRelations_eq_ok, droppedRelations_of_perm h hnames]
      exact ⟨(h.map _).nodup_iff.mpr hnames, hperm.trans h.symm, rfl⟩
  · have hrefused : (∃ e, reverseTopologicallyOrderRelations relations = .error e) ↔
        ¬ ∃ ordered, reverseTopologicallyOrderRelations relations = .ok ordered := by
      cases reverseTopologicallyOrderRelations relations <;> simp
    rw [hrefused]
    simp only [reverseTopologicallyOrderRelations_eq_ok]
    constructor
    · intro hnone
      by_cases hnames : (relations.map (·.name)).Nodup
      · refine .inr (by_contra fun hacyclic => hnone ⟨_, hnames, ?_, rfl⟩)
        exact (perm_droppedRelations_iff hnames).mpr hacyclic
      · exact .inl hnames
    · rintro (hnames | hcycle) ⟨ordered, hnodup, hperm, -⟩
      · exact hnames hnodup
      · exact (perm_droppedRelations_iff hnodup).mp hperm hcycle

end SqlTide.Destruction
