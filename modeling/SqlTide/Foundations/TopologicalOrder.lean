import Mathlib.Data.List.Perm.Subperm
import Mathlib.Logic.Relation
import Mathlib.Tactic

/-!
# Dependency orders

`topologicalOrder` takes out an element whose dependencies have all been taken out, until none
is left; the elements that are ready wait in a sorted list. `postorder` puts every element
behind its dependencies by a depth-first search. On a graph without cycles both list every
element once and behind its dependencies.
-/

namespace SqlTide.Foundations.TopologicalOrder

open List

variable {α : Type} [DecidableEq α]

/-- No element depends on one that comes after it. -/
def DependenciesFirst (deps : α → List α) (order : List α) : Prop :=
  order.Pairwise fun a b => b ∉ deps a

omit [DecidableEq α] in
/-- Of two members that may not stand in one order, the list has the other. -/
theorem pair_sublist_of_pairwise {r : α → α → Prop} {order : List α} (h : order.Pairwise r)
    {a b : α} (ha : a ∈ order) (hb : b ∈ order) (hne : a ≠ b) (hba : ¬ r b a) :
    [a, b].Sublist order := by
  induction order with
  | nil => cases ha
  | cons c order ih =>
    obtain ⟨hhead, hrest⟩ := pairwise_cons.mp h
    rcases mem_cons.mp ha with rfl | hlater
    · have hmem : b ∈ order := (mem_cons.mp hb).resolve_left (Ne.symm hne)
      exact (singleton_sublist.mpr hmem).cons_cons a
    · rcases mem_cons.mp hb with rfl | hmem
      · exact absurd (hhead a hlater) hba
      · exact (ih hrest hlater hmem).cons c

structure Progress (α : Type) where
  ordered : List α
  ready : List α
  indegree : α → ℤ

section

variable (included : List α) (sort : List α → List α)

/-- One dependency of `b` was taken out. -/
def release (progress : Progress α) (b : α) : Progress α :=
  if b ∈ included then
    { progress with
      ready := if progress.indegree b - 1 = 0 then sort (progress.ready ++ [b]) else progress.ready
      indegree := Function.update progress.indegree b (progress.indegree b - 1) }
  else progress

def takeReady (dependents : α → List α) : ℕ → Progress α → Progress α
  | 0, progress => progress
  | fuel + 1, progress =>
    match progress.ready with
    | [] => progress
    | a :: ready =>
      takeReady dependents fuel ((dependents a).foldl (release included sort)
        { progress with ordered := progress.ordered ++ [a], ready := ready })

def remaining (deps : α → List α) (ordered : List α) (b : α) : ℕ :=
  (deps b).countP fun a => a ∈ included ∧ a ∉ ordered

def start (deps : α → List α) : Progress α :=
  { ordered := []
    ready := sort (included.filter fun b => remaining included deps [] b = 0)
    indegree := fun b => remaining included deps [] b }

def topologicalOrder (deps dependents : α → List α) : List α :=
  (takeReady included sort dependents included.length (start included sort deps)).ordered

end

section

variable {included : List α} {sort : List α → List α} {deps dependents : α → List α}

/-- What releasing the elements of a list does. -/
structure Released (included : List α) (freed : List α) (before after : Progress α) : Prop where
  ordered : after.ordered = before.ordered
  indegree : ∀ b ∈ included, after.indegree b = before.indegree b - freed.count b
  mem_ready : ∀ b, b ∈ after.ready ↔
    b ∈ before.ready ∨ b ∈ included ∧ b ∈ freed ∧ before.indegree b = freed.count b
  nodup : before.ready.Nodup → (∀ b ∈ before.ready, b ∉ freed) → after.ready.Nodup

theorem released_release (hsort : ∀ l, (sort l).Perm l) (before : Progress α) (c : α) :
    Released included [c] before (release included sort before c) := by
  by_cases hc : c ∈ included
  · refine ⟨by simp [release, hc], ?_, ?_, ?_⟩
    · intro b _
      by_cases hb : b = c
      · simp [release, hc, hb]
      · have hcb : ¬ (c == b) = true := by simpa using fun h => hb h.symm
        simp [release, hc, hb, count_cons, hcb]
    · intro b
      simp only [release, hc, if_true, mem_singleton]
      split_ifs with hzero
      · rw [(hsort _).mem_iff, mem_append, mem_singleton]
        refine or_congr_right ⟨?_, fun h => h.2.1⟩
        rintro rfl
        refine ⟨hc, rfl, ?_⟩
        simp only [count_singleton_self]
        omega
      · refine (or_iff_left ?_).symm
        rintro ⟨-, rfl, hcount⟩
        simp only [count_singleton_self] at hcount
        omega
    · intro hnodup hfresh
      simp only [release, hc, if_true]
      split_ifs with hzero
      · refine (hsort _).nodup_iff.mpr (nodup_append.mpr ⟨hnodup, by simp, ?_⟩)
        rintro a ha b hb rfl
        exact hfresh a ha hb
      · exact hnodup
  · have hsame : release included sort before c = before := by
      simp [release, hc]
    rw [hsame]
    refine ⟨rfl, ?_, ?_, fun h _ => h⟩
    · intro b hb
      have hcb : ¬ (c == b) = true := by
        rintro h
        exact hc (beq_iff_eq.mp h ▸ hb)
      simp [count_cons, hcb]
    · intro b
      refine (or_iff_left ?_).symm
      rintro ⟨hb, hbc, -⟩
      exact hc (mem_singleton.mp hbc ▸ hb)

variable {freed ready : List α} {a : α} {progress : Progress α}

theorem Released.cons {c : α} {a b d : Progress α}
    (h : Released included [c] a b) (h' : Released included freed b d)
    (hcount : ∀ x ∈ included, ((c :: freed).count x : ℤ) ≤ a.indegree x) :
    Released included (c :: freed) a d := by
  have hsplit : ∀ x, (((c :: freed).count x : ℕ) : ℤ) = [c].count x + freed.count x := by
    intro x
    rw [← singleton_append, count_append]
    push_cast
    rfl
  refine ⟨h'.ordered.trans h.ordered, ?_, ?_, ?_⟩
  · intro x hx
    rw [h'.indegree x hx, h.indegree x hx, hsplit]
    omega
  · intro x
    rw [h'.mem_ready, h.mem_ready]
    constructor
    · rintro ((hx | ⟨hx, hxc, hzero⟩) | ⟨hx, hfreed, hzero⟩)
      · exact .inl hx
      · have hle := hcount x hx
        refine .inr ⟨hx, mem_cons.mpr (.inl (mem_singleton.mp hxc)), ?_⟩
        rw [hsplit] at hle ⊢
        omega
      · refine .inr ⟨hx, mem_cons_of_mem _ hfreed, ?_⟩
        rw [h.indegree x hx] at hzero
        rw [hsplit]
        omega
    · rintro (hx | ⟨hx, hmem, hzero⟩)
      · exact .inl (.inl hx)
      · rw [hsplit] at hzero
        by_cases hfreed : x ∈ freed
        · refine .inr ⟨hx, hfreed, ?_⟩
          rw [h.indegree x hx]
          omega
        · have hxc : x ∈ [c] := by
            simpa [hfreed] using hmem
          rw [count_eq_zero_of_not_mem hfreed] at hzero
          exact .inl (.inr ⟨hx, hxc, by omega⟩)
  · intro hnodup hfresh
    refine h'.nodup (h.nodup hnodup fun x hx hxc => ?_) ?_
    · exact hfresh x hx (mem_cons.mpr (.inl (mem_singleton.mp hxc)))
    · intro x hx hfreed
      rcases (h.mem_ready x).mp hx with hx | ⟨hinc, hxc, hzero⟩
      · exact hfresh x hx (mem_cons_of_mem _ hfreed)
      · have hle := hcount x hinc
        have hpos := count_pos_iff.mpr hfreed
        rw [hsplit] at hle
        omega

theorem released_foldl (hsort : ∀ l, (sort l).Perm l) (freed : List α) (before : Progress α)
    (hcount : ∀ b ∈ included, (freed.count b : ℤ) ≤ before.indegree b) :
    Released included freed before (freed.foldl (release included sort) before) := by
  induction freed generalizing before with
  | nil => exact ⟨rfl, by simp, by simp, fun h _ => h⟩
  | cons c freed ih =>
    have hstep : Released included [c] before _ := released_release hsort before c
    refine hstep.cons (ih _ ?_) hcount
    intro b hb
    have hle := hcount b hb
    rw [← singleton_append, count_append] at hle
    rw [hstep.indegree b hb]
    push_cast at hle
    omega

/-- The elements taken out so far have their dependencies among them, and what is ready waits
for nothing. -/
structure Ordering (included : List α) (deps : α → List α) (progress : Progress α) : Prop where
  nodup : (progress.ordered ++ progress.ready).Nodup
  subset : ∀ a ∈ progress.ordered ++ progress.ready, a ∈ included
  indegree : ∀ b ∈ included, progress.indegree b = remaining included deps progress.ordered b
  ready : ∀ b ∈ included, b ∉ progress.ordered →
    (b ∈ progress.ready ↔ remaining included deps progress.ordered b = 0)
  closed : ∀ b ∈ progress.ordered, ∀ a ∈ deps b, a ∈ included → a ∈ progress.ordered
  first : DependenciesFirst deps progress.ordered

theorem remaining_eq_zero {ordered : List α} {b : α} :
    remaining included deps ordered b = 0 ↔ ∀ a ∈ deps b, a ∈ included → a ∈ ordered := by
  simp only [remaining, countP_eq_zero, decide_eq_true_eq, not_and, not_not]

theorem remaining_append {ordered : List α} {b : α} (ha : a ∈ included) (hnew : a ∉ ordered) :
    remaining included deps ordered b =
      remaining included deps (ordered ++ [a]) b + (deps b).count a := by
  simp only [remaining]
  induction deps b with
  | nil => rfl
  | cons x xs ih =>
    simp only [countP_cons, count_cons, ih]
    by_cases hxa : x = a
    · subst hxa
      simp [ha, hnew]
      omega
    · simp [hxa]
      omega

theorem ordering_start (hsort : ∀ l, (sort l).Perm l) (hnodup : included.Nodup) :
    Ordering included deps (start included sort deps) := by
  have hready : ∀ b, b ∈ (start included sort deps).ready ↔
      b ∈ included ∧ remaining included deps [] b = 0 := by
    intro b
    simp [start, (hsort _).mem_iff]
  refine ⟨?_, ?_, fun _ _ => rfl, ?_, by simp [start], by simp [start, DependenciesFirst]⟩
  · rw [show (start included sort deps).ordered = [] from rfl, nil_append]
    exact (hsort _).nodup_iff.mpr (hnodup.filter _)
  · intro a ha
    rw [show (start included sort deps).ordered = [] from rfl, nil_append] at ha
    exact ((hready a).mp ha).1
  · intro b hb _
    rw [hready]
    exact and_iff_right hb

theorem Ordering.ready_head
    (h : Ordering included deps progress) (hready : progress.ready = a :: ready) :
    a ∈ included ∧ a ∉ progress.ordered ∧ remaining included deps progress.ordered a = 0 := by
  have ha : a ∈ included := h.subset a (by simp [hready])
  have hnew : a ∉ progress.ordered := by
    intro hmem
    exact (nodup_append.mp h.nodup).2.2 a hmem a (by simp [hready]) rfl
  exact ⟨ha, hnew, (h.ready a ha hnew).mp (by simp [hready])⟩

/-- What becomes of a state when its first ready element is taken out and the elements that wait for
it are released. -/
structure TakesOut (included : List α) (deps : α → List α) (before : Progress α) (a : α)
    (ready freed : List α) (after : Progress α) : Prop where
  head : before.ready = a :: ready
  count : ∀ b ∈ included, freed.count b = (deps b).count a
  released : Released included freed
    { before with ordered := before.ordered ++ [a], ready := ready } after

theorem TakesOut.ordered {before after : Progress α}
    (t : TakesOut included deps before a ready freed after) :
    after.ordered = before.ordered ++ [a] :=
  t.released.ordered

section TakesOut

variable {before after : Progress α} {a b : α} {ready freed : List α}
  (h : Ordering included deps before) (t : TakesOut included deps before a ready freed after)
include h t

theorem TakesOut.remaining_eq : remaining included deps before.ordered b =
    remaining included deps (before.ordered ++ [a]) b + (deps b).count a := by
  obtain ⟨ha, hnew, -⟩ := h.ready_head t.head
  exact remaining_append ha hnew

theorem TakesOut.nodup_split : ((before.ordered ++ [a]) ++ ready).Nodup := by
  have hperm : (before.ordered ++ before.ready).Perm ((before.ordered ++ [a]) ++ ready) := by
    rw [t.head]
    simp
  exact hperm.nodup_iff.mp h.nodup

theorem TakesOut.not_mem_of_freed (hb : b ∈ included) (hfreed : b ∈ freed) :
    b ∉ before.ordered ++ [a] ∧ b ∉ ready := by
  obtain ⟨ha, hnew, hzero⟩ := h.ready_head t.head
  have hdep : a ∈ deps b := by
    rw [← count_pos_iff, ← t.count b hb]
    exact count_pos_iff.mpr hfreed
  have hold : b ∉ before.ordered := fun hold => hnew (h.closed b hold a hdep ha)
  constructor
  · intro hmem
    rcases mem_append.mp hmem with hmem | hmem
    · exact hold hmem
    · obtain rfl := mem_singleton.mp hmem
      exact hnew (remaining_eq_zero.mp hzero b hdep ha)
  · intro hready
    have hwait := (h.ready b hb hold).mp (by simp [t.head, hready])
    exact hnew (remaining_eq_zero.mp hwait a hdep ha)

theorem TakesOut.nodup : (after.ordered ++ after.ready).Nodup := by
  have hsplit := nodup_append.mp (t.nodup_split h)
  rw [t.ordered]
  refine nodup_append.mpr ⟨hsplit.1, ?_, ?_⟩
  · refine t.released.nodup hsplit.2.1 fun b hb hfreed => ?_
    exact (t.not_mem_of_freed h (h.subset b (by simp [t.head, hb])) hfreed).2 hb
  · rintro b hold c hc rfl
    rcases (t.released.mem_ready b).mp hc with hc | ⟨hinc, hfreed, -⟩
    · exact hsplit.2.2 b hold b hc rfl
    · exact (t.not_mem_of_freed h hinc hfreed).1 hold

theorem TakesOut.subset : ∀ b ∈ after.ordered ++ after.ready, b ∈ included := by
  intro b hb
  rw [t.ordered] at hb
  rcases mem_append.mp hb with hb | hb
  · rcases mem_append.mp hb with hb | hb
    · exact h.subset b (mem_append_left _ hb)
    · exact mem_singleton.mp hb ▸ (h.ready_head t.head).1
  · rcases (t.released.mem_ready b).mp hb with hb | ⟨hinc, -, -⟩
    · exact h.subset b (by simp [t.head, hb])
    · exact hinc

theorem TakesOut.indegree (hb : b ∈ included) :
    after.indegree b = remaining included deps after.ordered b := by
  rw [t.released.indegree b hb, t.ordered, h.indegree b hb, t.count b hb, t.remaining_eq h]
  omega

theorem TakesOut.ready_iff (hb : b ∈ included) (hout : b ∉ after.ordered) :
    b ∈ after.ready ↔ remaining included deps after.ordered b = 0 := by
  rw [t.ordered] at hout ⊢
  have hba : b ≠ a := by
    rintro rfl
    exact hout (by simp)
  have hwait := h.ready b hb fun hold => hout (mem_append_left _ hold)
  rw [t.head, mem_cons, t.remaining_eq h, ← t.count b hb] at hwait
  have hwaits := h.indegree b hb
  rw [t.remaining_eq h, ← t.count b hb] at hwaits
  rw [t.released.mem_ready]
  simp only
  constructor
  · rintro (hready | ⟨-, -, heq⟩)
    · have := hwait.mp (.inr hready)
      omega
    · omega
  · intro hnone
    by_cases hfreed : b ∈ freed
    · exact .inr ⟨hb, hfreed, by omega⟩
    · rw [count_eq_zero_of_not_mem hfreed] at hwait
      rcases hwait.mpr (by omega) with rfl | hready
      · exact absurd rfl hba
      · exact .inl hready

theorem TakesOut.closed : ∀ b ∈ after.ordered, ∀ c ∈ deps b, c ∈ included → c ∈ after.ordered := by
  intro b hb c hc hinc
  rw [t.ordered] at hb ⊢
  rcases mem_append.mp hb with hb | hb
  · exact mem_append_left _ (h.closed b hb c hc hinc)
  · obtain rfl := mem_singleton.mp hb
    exact mem_append_left _ (remaining_eq_zero.mp (h.ready_head t.head).2.2 c hc hinc)

theorem TakesOut.first : DependenciesFirst deps after.ordered := by
  obtain ⟨ha, hnew, -⟩ := h.ready_head t.head
  rw [t.ordered]
  refine pairwise_append.mpr ⟨h.first, by simp, ?_⟩
  intro b hb c hc hdep
  obtain rfl := mem_singleton.mp hc
  exact hnew (h.closed b hb c hdep ha)

theorem TakesOut.ordering : Ordering included deps after where
  nodup := t.nodup h
  subset := t.subset h
  indegree _ hb := t.indegree h hb
  ready _ hb hout := t.ready_iff h hb hout
  closed := t.closed h
  first := t.first h

end TakesOut

theorem Ordering.take (hsort : ∀ l, (sort l).Perm l) (h : Ordering included deps progress)
    (hready : progress.ready = a :: ready)
    (hcount : ∀ b ∈ included, freed.count b = (deps b).count a) :
    Ordering included deps (freed.foldl (release included sort)
      { progress with ordered := progress.ordered ++ [a], ready := ready }) := by
  obtain ⟨ha, hnew, -⟩ := h.ready_head hready
  have hreleased : ∀ b ∈ included, (freed.count b : ℤ) ≤ progress.indegree b := by
    intro b hb
    rw [h.indegree b hb, hcount b hb, remaining_append ha hnew]
    omega
  have t : TakesOut included deps progress a ready freed _ :=
    ⟨hready, hcount, released_foldl hsort freed _ hreleased⟩
  exact t.ordering h

theorem ordered_foldl_release (freed : List α) (progress : Progress α) :
    (freed.foldl (release included sort) progress).ordered = progress.ordered := by
  induction freed generalizing progress with
  | nil => rfl
  | cons c freed ih =>
    rw [foldl_cons, ih]
    unfold release
    split_ifs <;> rfl

theorem ordering_takeReady (hsort : ∀ l, (sort l).Perm l)
    (hcount : ∀ a ∈ included, ∀ b ∈ included, (dependents a).count b = (deps b).count a)
    {fuel : ℕ} (h : Ordering included deps progress)
    (hfuel : included.length ≤ progress.ordered.length + fuel) :
    Ordering included deps (takeReady included sort dependents fuel progress) ∧
      (takeReady included sort dependents fuel progress).ready = [] := by
  have hlength : ∀ progress : Progress α, Ordering included deps progress →
      progress.ordered.length + progress.ready.length ≤ included.length := by
    intro progress h
    rw [← length_append]
    exact (subperm_of_subset h.nodup h.subset).length_le
  induction fuel generalizing progress with
  | zero =>
    have hle := hlength progress h
    exact ⟨h, length_eq_zero_iff.mp (by simp only [takeReady]; omega)⟩
  | succ fuel ih =>
    unfold takeReady
    split
    · next hready => exact ⟨h, hready⟩
    · next a ready hready =>
      have ha : a ∈ included := h.subset a (by simp [hready])
      apply ih (h.take hsort hready (hcount a ha))
      rw [ordered_foldl_release, length_append, length_singleton]
      omega

section

variable (hsort : ∀ l, (sort l).Perm l) (hnodup : included.Nodup)
  (hcount : ∀ a ∈ included, ∀ b ∈ included, (dependents a).count b = (deps b).count a)

include hsort hnodup hcount

theorem nodup_topologicalOrder :
    (topologicalOrder included sort deps dependents).Nodup ∧
      DependenciesFirst deps (topologicalOrder included sort deps dependents) := by
  obtain ⟨h, -⟩ := ordering_takeReady hsort hcount (ordering_start hsort hnodup)
    (Nat.le_add_left included.length _)
  exact ⟨(nodup_append.mp h.nodup).1, h.first⟩

/-- Without a cycle nothing is left waiting: every element is listed once, behind its
dependencies. -/
theorem perm_topologicalOrder
    {rank : α → ℕ} (hrank : ∀ b ∈ included, ∀ a ∈ deps b, a ∈ included → rank a < rank b) :
    (topologicalOrder included sort deps dependents).Perm included ∧
      DependenciesFirst deps (topologicalOrder included sort deps dependents) := by
  have hstart : Ordering included deps (start included sort deps) := ordering_start hsort hnodup
  obtain ⟨h, hempty⟩ := ordering_takeReady hsort hcount hstart (Nat.le_add_left included.length _)
  refine ⟨?_, h.first⟩
  have hall : ∀ k, ∀ b ∈ included, rank b = k →
      b ∈ topologicalOrder included sort deps dependents := by
    intro k
    induction k using Nat.strong_induction_on with
    | _ k ih =>
      intro b hb hk
      by_contra hout
      have hwait := h.ready b hb hout
      rw [hempty] at hwait
      refine absurd (hwait.mpr (remaining_eq_zero.mpr ?_)) (by simp)
      intro a ha hinc
      have hlt := hrank b hb a ha hinc
      exact ih (rank a) (by omega) a hinc rfl
  refine (perm_ext_iff_of_nodup (nodup_append.mp h.nodup).1 hnodup).mpr ?_
  intro b
  exact ⟨fun hb => h.subset b (mem_append_left _ hb), fun hb => hall _ b hb rfl⟩

end

end

/-- An included `b` waits for the included `a`. -/
def WaitsFor (included : List α) (deps : α → List α) (b a : α) : Prop :=
  b ∈ included ∧ a ∈ included ∧ a ∈ deps b

def Cyclic (included : List α) (deps : α → List α) : Prop :=
  ∃ a, Relation.TransGen (WaitsFor included deps) a a

section

variable {included : List α} {sort : List α → List α} {deps dependents : α → List α}

/-- Where nothing waits for itself, the number of elements that one waits for ranks it behind
every one of them. -/
theorem exists_rank_of_not_cyclic (h : ¬ Cyclic included deps) :
    ∃ rank : α → ℕ, ∀ b ∈ included, ∀ a ∈ deps b, a ∈ included → rank a < rank b := by
  classical
  let below : α → Finset α := fun b =>
    included.toFinset.filter fun a => Relation.TransGen (WaitsFor included deps) b a
  refine ⟨fun b => (below b).card, ?_⟩
  intro b hb a hdep ha
  have hwaits : WaitsFor included deps b a := ⟨hb, ha, hdep⟩
  apply Finset.card_lt_card
  rw [Finset.ssubset_iff_of_subset]
  · refine ⟨a, ?_, ?_⟩
    · exact Finset.mem_filter.mpr ⟨mem_toFinset.mpr ha, .single hwaits⟩
    · intro hself
      exact h ⟨a, (Finset.mem_filter.mp hself).2⟩
  · intro c hc
    obtain ⟨hinc, hwait⟩ := Finset.mem_filter.mp hc
    exact Finset.mem_filter.mpr ⟨hinc, .head hwaits hwait⟩

theorem Ordering.takeReady_disjoint (hsort : ∀ l, (sort l).Perm l)
    (hcount : ∀ a ∈ included, ∀ b ∈ included, (dependents a).count b = (deps b).count a)
    {stuck : α → Prop} (hstuck : ∀ b, stuck b → ∃ a, stuck a ∧ WaitsFor included deps b a)
    {fuel : ℕ} {progress : Progress α} (h : Ordering included deps progress)
    (hout : ∀ b ∈ progress.ordered, ¬ stuck b) :
    ∀ b ∈ (takeReady included sort dependents fuel progress).ordered, ¬ stuck b := by
  induction fuel generalizing progress with
  | zero => exact hout
  | succ fuel ih =>
    unfold takeReady
    split
    · exact hout
    · next a ready hready =>
      obtain ⟨ha, hnew, hzero⟩ := h.ready_head hready
      have hfree : ¬ stuck a := by
        intro hself
        obtain ⟨d, hd, -, hinc, hdep⟩ := hstuck a hself
        exact hout d (remaining_eq_zero.mp hzero d hdep hinc) hd
      apply ih (h.take hsort hready (hcount a ha))
      intro b hb
      rw [ordered_foldl_release] at hb
      rcases mem_append.mp hb with hb | hb
      · exact hout b hb
      · exact mem_singleton.mp hb ▸ hfree

/-- Everything is taken out exactly where nothing waits for itself. -/
theorem perm_topologicalOrder_iff (hsort : ∀ l, (sort l).Perm l) (hnodup : included.Nodup)
    (hcount : ∀ a ∈ included, ∀ b ∈ included, (dependents a).count b = (deps b).count a) :
    (topologicalOrder included sort deps dependents).Perm included ↔ ¬ Cyclic included deps := by
  constructor
  · rintro hperm ⟨a, hcycle⟩
    obtain ⟨b, hab, -⟩ := Relation.TransGen.head'_iff.mp hcycle
    have hout : ∀ c ∈ topologicalOrder included sort deps dependents,
        ¬ Relation.TransGen (WaitsFor included deps) c c := by
      apply (ordering_start hsort hnodup).takeReady_disjoint hsort hcount
      · intro c hc
        obtain ⟨d, hcd, hdc⟩ := Relation.TransGen.head'_iff.mp hc
        exact ⟨d, Relation.TransGen.tail' hdc hcd, hcd⟩
      · simp [start]
    exact hout a (hperm.mem_iff.mpr hab.1) hcycle
  · intro hacyclic
    obtain ⟨rank, hrank⟩ := exists_rank_of_not_cyclic hacyclic
    exact (perm_topologicalOrder hsort hnodup hcount hrank).1

end

theorem topologicalOrder_subset {included : List α} {sort : List α → List α}
    {deps dependents : α → List α} (hsort : ∀ l, (sort l).Perm l) (hnodup : included.Nodup)
    (hcount : ∀ a ∈ included, ∀ b ∈ included, (dependents a).count b = (deps b).count a) :
    topologicalOrder included sort deps dependents ⊆ included := by
  obtain ⟨h, -⟩ := ordering_takeReady hsort hcount (ordering_start hsort hnodup)
    (Nat.le_add_left included.length _)
  exact fun a ha => h.subset a (mem_append_left _ ha)

/-- What can be taken out next. -/
def available (included : List α) (deps : α → List α) (ordered : List α) : List α :=
  included.filter fun b => b ∉ ordered ∧ ∀ a ∈ deps b, a ∈ included → a ∈ ordered

/-- The first of what is available is taken out, again and again. -/
def takeAvailable (included : List α) (sort : List α → List α) (deps : α → List α) :
    ℕ → List α → List α
  | 0, ordered => ordered
  | fuel + 1, ordered =>
    match sort (available included deps ordered) with
    | [] => ordered
    | a :: _ => takeAvailable included sort deps fuel (ordered ++ [a])

section

variable {included included' : List α} {sort : List α → List α} {deps deps' dependents : α → List α}
  {r : α → α → Prop}

theorem pairwise_foldl_release (hsorted : ∀ l, (sort l).Pairwise r) (freed : List α)
    {progress : Progress α} (h : progress.ready.Pairwise r) :
    (freed.foldl (release included sort) progress).ready.Pairwise r := by
  induction freed generalizing progress with
  | nil => exact h
  | cons c freed ih =>
    apply ih
    unfold release
    split_ifs
    · exact hsorted _
    · exact h
    · exact h

variable (hsort : ∀ l, (sort l).Perm l) (hsorted : ∀ l, (sort l).Pairwise r)
  (hanti : ∀ a ∈ included, ∀ b ∈ included, r a b → r b a → a = b)

include hsort hsorted hanti

/-- What is ready is what is available, in its order. -/
theorem Ordering.ready_eq (hnodup : included.Nodup) {progress : Progress α}
    (h : Ordering included deps progress) (hready : progress.ready.Pairwise r) :
    progress.ready = sort (available included deps progress.ordered) := by
  have hmem : ∀ b, b ∈ progress.ready ↔ b ∈ available included deps progress.ordered := by
    intro b
    simp only [available, mem_filter, decide_eq_true_eq]
    constructor
    · intro hb
      have hinc := h.subset b (mem_append_right _ hb)
      have hnew : b ∉ progress.ordered := fun hold =>
        (nodup_append.mp h.nodup).2.2 b hold b hb rfl
      exact ⟨hinc, hnew, remaining_eq_zero.mp ((h.ready b hinc hnew).mp hb)⟩
    · rintro ⟨hinc, hnew, hdeps⟩
      exact (h.ready b hinc hnew).mpr (remaining_eq_zero.mpr hdeps)
  have hperm : progress.ready.Perm (sort (available included deps progress.ordered)) := by
    refine List.Perm.trans ?_ (hsort _).symm
    exact (perm_ext_iff_of_nodup (nodup_append.mp h.nodup).2.1 (hnodup.filter _)).mpr hmem
  refine @List.Perm.eq_of_pairwise _ r _ _ ?_ hready (hsorted _) hperm
  intro a b ha hb hab hba
  refine hanti a (h.subset a (mem_append_right _ ha)) b ?_ hab hba
  exact h.subset b (mem_append_right _ (hperm.mem_iff.mpr hb))

theorem takeReady_eq_takeAvailable (hnodup : included.Nodup)
    (hcount : ∀ a ∈ included, ∀ b ∈ included, (dependents a).count b = (deps b).count a)
    {fuel : ℕ} {progress : Progress α} (h : Ordering included deps progress)
    (hready : progress.ready.Pairwise r) :
    (takeReady included sort dependents fuel progress).ordered =
      takeAvailable included sort deps fuel progress.ordered := by
  induction fuel generalizing progress with
  | zero => rfl
  | succ fuel ih =>
    have heq := h.ready_eq hsort hsorted hanti hnodup hready
    unfold takeReady takeAvailable
    rw [← heq]
    cases hcases : progress.ready with
    | nil => rfl
    | cons a ready =>
      have ha : a ∈ included := h.subset a (by simp [hcases])
      dsimp only
      rw [ih (h.take hsort hcases (hcount a ha)), ordered_foldl_release]
      apply pairwise_foldl_release hsorted
      rw [hcases] at hready
      exact (pairwise_cons.mp hready).2

theorem topologicalOrder_eq_takeAvailable (hnodup : included.Nodup)
    (hcount : ∀ a ∈ included, ∀ b ∈ included, (dependents a).count b = (deps b).count a) :
    topologicalOrder included sort deps dependents =
      takeAvailable included sort deps included.length [] :=
  takeReady_eq_takeAvailable hsort hsorted hanti hnodup hcount (ordering_start hsort hnodup)
    (hsorted _)

/-- The same elements with the same dependencies among them are taken out in the same order,
however they are listed and however often. -/
theorem takeAvailable_congr (hperm : included'.Perm included)
    (hdeps : ∀ b ∈ included, ∀ a ∈ included, a ∈ deps' b ↔ a ∈ deps b) (fuel : ℕ)
    (ordered : List α) :
    takeAvailable included' sort deps' fuel ordered =
      takeAvailable included sort deps fuel ordered := by
  have hsame : ∀ ordered, sort (available included' deps' ordered) =
      sort (available included deps ordered) := by
    intro ordered
    have havailable : available included' deps' ordered =
        included'.filter fun b => b ∉ ordered ∧ ∀ a ∈ deps b, a ∈ included → a ∈ ordered := by
      refine filter_congr fun b hb => ?_
      have hinc := hperm.mem_iff.mp hb
      simp only [decide_eq_decide]
      refine and_congr_right' ⟨fun h a ha hmem => ?_, fun h a ha hmem => ?_⟩
      · exact h a ((hdeps b hinc a hmem).mpr ha) (hperm.mem_iff.mpr hmem)
      · have hmem := hperm.mem_iff.mp hmem
        exact h a ((hdeps b hinc a hmem).mp ha) hmem
    have hfilter : (available included' deps' ordered).Perm (available included deps ordered) := by
      rw [havailable]
      exact hperm.filter _
    refine @List.Perm.eq_of_pairwise _ r _ _ ?_ (hsorted _) (hsorted _)
      ((hsort _).trans (hfilter.trans (hsort _).symm))
    intro a b ha hb hab hba
    refine hanti a ?_ b ?_ hab hba
    · exact (mem_filter.mp (hfilter.mem_iff.mp ((hsort _).mem_iff.mp ha))).1
    · exact (mem_filter.mp ((hsort _).mem_iff.mp hb)).1
  induction fuel generalizing ordered with
  | zero => rfl
  | succ fuel ih =>
    unfold takeAvailable
    rw [hsame]
    cases sort (available included deps ordered) with
    | nil => rfl
    | cons a rest => exact ih _

end

/-- `a` goes behind what it depends on, unless it is left out or was met before. -/
def visit (included : List α) (deps : α → List α) : ℕ → List α × Finset α → α →
    List α × Finset α
  | 0, state, _ => state
  | fuel + 1, state, a =>
    if a ∉ included ∨ a ∈ state.2 then state
    else
      let below := (deps a).foldl (visit included deps fuel) (state.1, insert a state.2)
      (below.1 ++ [a], below.2)

def postorder (included : List α) (deps : α → List α) (fuel : ℕ) (roots : List α) : List α :=
  (roots.foldl (visit included deps fuel) ([], ∅)).1

section

variable {included : List α} {deps : α → List α}

/-- The elements listed so far have their dependencies among them. -/
structure Listed (included : List α) (deps : α → List α) (state : List α × Finset α) : Prop where
  nodup : state.1.Nodup
  subset : ∀ a ∈ state.1, a ∈ included
  closed : ∀ b ∈ state.1, ∀ a ∈ deps b, a ∈ included → a ∈ state.1
  first : DependenciesFirst deps state.1
  visited : ∀ a ∈ state.1, a ∈ state.2

/-- What a search from some elements adds: they are listed, and what was met and is still open
is so before and after. -/
structure Visited (included seen : List α) (before after : List α × Finset α) : Prop where
  seen : ∀ a ∈ seen, a ∈ included → a ∈ after.1
  kept : ∀ a ∈ before.1, a ∈ after.1
  pending : ∀ a, a ∈ after.2 ∧ a ∉ after.1 ↔ a ∈ before.2 ∧ a ∉ before.1

omit [DecidableEq α] in
theorem Visited.trans {seen seen' : List α} {a b c : List α × Finset α}
    (h : Visited included seen a b) (h' : Visited included seen' b c) :
    Visited included (seen ++ seen') a c := by
  refine ⟨?_, fun x hx => h'.kept x (h.kept x hx), fun x => (h'.pending x).trans (h.pending x)⟩
  intro x hx hinc
  rcases mem_append.mp hx with hx | hx
  · exact h'.kept x (h.seen x hx hinc)
  · exact h'.seen x hx hinc

variable {state : List α × Finset α}

omit [DecidableEq α] in
theorem Listed.close {a : α} (h : Listed included deps state) (ha : a ∈ included)
    (hopen : a ∈ state.2 ∧ a ∉ state.1) (hdeps : ∀ d ∈ deps a, d ∈ included → d ∈ state.1) :
    Listed included deps (state.1 ++ [a], state.2) where
  nodup := by
    refine nodup_append.mpr ⟨h.nodup, by simp, ?_⟩
    rintro x hx y hy rfl
    exact hopen.2 (mem_singleton.mp hy ▸ hx)
  subset := by
    intro x hx
    rcases mem_append.mp hx with hx | hx
    · exact h.subset x hx
    · exact mem_singleton.mp hx ▸ ha
  closed := by
    intro x hx d hd hinc
    rcases mem_append.mp hx with hx | hx
    · exact mem_append_left _ (h.closed x hx d hd hinc)
    · obtain rfl := mem_singleton.mp hx
      exact mem_append_left _ (hdeps d hd hinc)
  first := by
    refine pairwise_append.mpr ⟨h.first, by simp, ?_⟩
    intro x hx y hy hdep
    obtain rfl := mem_singleton.mp hy
    exact hopen.2 (h.closed x hx y hdep ha)
  visited := by
    intro x hx
    rcases mem_append.mp hx with hx | hx
    · exact h.visited x hx
    · exact mem_singleton.mp hx ▸ hopen.1

variable {rank : α → ℕ}

omit [DecidableEq α] in
theorem listed_foldl {step : List α × Finset α → α → List α × Finset α} {k : ℕ}
    (hstep : ∀ state a, Listed included deps state → rank a < k ∨ a ∉ included →
      (∀ p ∈ state.2, p ∉ state.1 → k ≤ rank p) →
      Listed included deps (step state a) ∧ Visited included [a] state (step state a))
    (seen : List α) (h : Listed included deps state) (hseen : ∀ a ∈ seen, rank a < k ∨ a ∉ included)
    (hpending : ∀ p ∈ state.2, p ∉ state.1 → k ≤ rank p) :
    Listed included deps (seen.foldl step state) ∧
      Visited included seen state (seen.foldl step state) := by
  induction seen generalizing state with
  | nil => exact ⟨h, by simp, fun _ hx => hx, fun _ => Iff.rfl⟩
  | cons a seen ih =>
    obtain ⟨hlisted, hvisited⟩ := hstep state a h (hseen a (by simp)) hpending
    have hrest := ih hlisted (fun b hb => hseen b (mem_cons_of_mem _ hb)) fun p hp hout =>
      hpending p ((hvisited.pending p).mp ⟨hp, hout⟩).1 ((hvisited.pending p).mp ⟨hp, hout⟩).2
    exact ⟨hrest.1, hvisited.trans hrest.2⟩

theorem listed_visit (hrank : ∀ b ∈ included, ∀ a ∈ deps b, a ∈ included → rank a < rank b)
    {fuel : ℕ} {a : α} (h : Listed included deps state) (hfuel : rank a < fuel ∨ a ∉ included)
    (hpending : ∀ p ∈ state.2, p ∉ state.1 → rank a < rank p ∨ a ∉ included) :
    Listed included deps (visit included deps fuel state a) ∧
      Visited included [a] state (visit included deps fuel state a) := by
  induction fuel generalizing state a with
  | zero =>
    have ha : a ∉ included := by
      rcases hfuel with hfuel | ha
      · omega
      · exact ha
    refine ⟨h, ?_, fun _ hx => hx, fun _ => Iff.rfl⟩
    intro b hb hinc
    exact absurd (mem_singleton.mp hb ▸ hinc) ha
  | succ fuel ih =>
    unfold visit
    split_ifs with hskip
    · refine ⟨h, ?_, fun _ hx => hx, fun _ => Iff.rfl⟩
      intro b hb hinc
      obtain rfl := mem_singleton.mp hb
      by_contra hout
      have hmet : b ∈ state.2 := by
        rcases hskip with hskip | hmet
        · exact absurd hinc hskip
        · exact hmet
      rcases hpending b hmet hout with hlt | hnot
      · omega
      · exact hnot hinc
    · have ha : a ∈ included := by
        by_contra hnot
        exact hskip (.inl hnot)
      have hnew : a ∉ state.2 := fun hmem => hskip (.inr hmem)
      have hout : a ∉ state.1 := fun hmem => hnew (h.visited a hmem)
      have hopen : Listed included deps (state.1, insert a state.2) :=
        ⟨h.nodup, h.subset, h.closed, h.first,
          fun x hx => Finset.mem_insert_of_mem (h.visited x hx)⟩
      have hdeep : rank a < fuel + 1 := hfuel.resolve_right (not_not.mpr ha)
      have hstep : ∀ state d, Listed included deps state → rank d < rank a ∨ d ∉ included →
          (∀ p ∈ state.2, p ∉ state.1 → rank a ≤ rank p) →
          Listed included deps (visit included deps fuel state d) ∧
            Visited included [d] state (visit included deps fuel state d) := by
        intro state' d hlisted hd hpend
        refine ih hlisted ?_ ?_
        · exact hd.imp_left fun hlt => by omega
        · intro p hp hpout
          exact hd.imp_left fun hlt => lt_of_lt_of_le hlt (hpend p hp hpout)
      have hdeps : ∀ d ∈ deps a, rank d < rank a ∨ d ∉ included := by
        intro d hd
        by_cases hinc : d ∈ included
        · exact .inl (hrank a ha d hd hinc)
        · exact .inr hinc
      have habove : ∀ p ∈ insert a state.2, p ∉ state.1 → rank a ≤ rank p := by
        intro p hp hpout
        rcases Finset.mem_insert.mp hp with rfl | hp
        · exact le_rfl
        · exact ((hpending p hp hpout).resolve_right (not_not.mpr ha)).le
      obtain ⟨hlisted, hvisited⟩ := listed_foldl hstep (deps a) hopen hdeps habove
      have hstill := (hvisited.pending a).mpr ⟨Finset.mem_insert_self _ _, hout⟩
      refine ⟨hlisted.close ha hstill hvisited.seen, ?_, ?_, ?_⟩
      · intro b hb _
        exact mem_append_right _ hb
      · intro b hb
        exact mem_append_left _ (hvisited.kept b hb)
      · intro p
        have hp := hvisited.pending p
        simp only [Finset.mem_insert, mem_append, mem_singleton] at hp ⊢
        by_cases hpa : p = a
        · subst hpa
          simp [hnew]
        · simpa [hpa] using hp

theorem perm_postorder (hrank : ∀ b ∈ included, ∀ a ∈ deps b, a ∈ included → rank a < rank b)
    {fuel : ℕ} (hfuel : ∀ a ∈ included, rank a < fuel) (hnodup : included.Nodup)
    {roots : List α} (hroots : ∀ a ∈ included, a ∈ roots) :
    (postorder included deps fuel roots).Perm included ∧
      DependenciesFirst deps (postorder included deps fuel roots) := by
  have hstep : ∀ state a, Listed included deps state → rank a < fuel ∨ a ∉ included →
      (∀ p ∈ state.2, p ∉ state.1 → fuel ≤ rank p) →
      Listed included deps (visit included deps fuel state a) ∧
        Visited included [a] state (visit included deps fuel state a) := by
    intro state a hlisted ha hpending
    refine listed_visit hrank hlisted ha ?_
    intro p hp hout
    exact ha.imp_left fun hlt => lt_of_lt_of_le hlt (hpending p hp hout)
  have hstart : Listed included deps (([], ∅) : List α × Finset α) :=
    ⟨by simp, by simp, by simp, by simp [DependenciesFirst], by simp⟩
  have hdeep : ∀ a ∈ roots, rank a < fuel ∨ a ∉ included := by
    intro a _
    by_cases ha : a ∈ included
    · exact .inl (hfuel a ha)
    · exact .inr ha
  obtain ⟨hlisted, hvisited⟩ := listed_foldl hstep roots hstart hdeep (by simp)
  refine ⟨(perm_ext_iff_of_nodup hlisted.nodup hnodup).mpr ?_, hlisted.first⟩
  intro a
  exact ⟨hlisted.subset a, fun ha => hvisited.seen a (hroots a ha) ha⟩

/-- A chain of dependencies is no longer than what is included. -/
theorem perm_postorder_length (hrank : ∀ b ∈ included, ∀ a ∈ deps b, a ∈ included → rank a < rank b)
    (hnodup : included.Nodup) {roots : List α} (hroots : ∀ a ∈ included, a ∈ roots) :
    (postorder included deps included.length roots).Perm included ∧
      DependenciesFirst deps (postorder included deps included.length roots) := by
  let below : α → ℕ := fun b => included.countP fun a => rank a < rank b
  have hbelow : ∀ b ∈ included, ∀ a ∈ deps b, a ∈ included → below a < below b := by
    intro b hb a ha hmem
    have hlt := hrank b hb a ha hmem
    have hsplit : below b = below a +
        included.countP fun c => decide (rank a ≤ rank c) && decide (rank c < rank b) := by
      have hcount : ∀ l : List α, (l.countP fun c => decide (rank c < rank b)) =
          (l.countP fun c => decide (rank c < rank a)) +
            l.countP fun c => decide (rank a ≤ rank c) && decide (rank c < rank b) := by
        intro l
        induction l with
        | nil => rfl
        | cons c l ih =>
          simp only [countP_cons, ih, Bool.and_eq_true, decide_eq_true_eq]
          split_ifs <;> omega
      exact hcount included
    have hpos : 0 < included.countP fun c =>
        decide (rank a ≤ rank c) && decide (rank c < rank b) :=
      countP_pos_iff.mpr ⟨a, hmem, by simp [hlt]⟩
    omega
  have hfuel : ∀ a ∈ included, below a < included.length := by
    intro a ha
    refine lt_of_le_of_ne countP_le_length fun heq => ?_
    have hself := countP_eq_length.mp heq a ha
    simp at hself
  exact perm_postorder hbelow hfuel hnodup hroots

end

end SqlTide.Foundations.TopologicalOrder
