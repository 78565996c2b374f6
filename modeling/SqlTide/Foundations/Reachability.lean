import Mathlib.Data.Finset.Card
import Mathlib.Data.Finset.Lattice.Fold
import Mathlib.Logic.Relation
import Mathlib.Tactic

/-!
# Worklists and saturation

`explore` is the usual depth-first search with a set of visited elements and a
stack; it finds what is reachable from its roots. `sweep` is the search that marks
an element only when it leaves the stack. `saturate` grows a set by a
step until the step adds nothing; it finds the least set that contains its start
and is closed under the step. All carry an iteration bound, and their theorems
say from which bound on the loop has ended by itself.
-/

namespace SqlTide.Foundations

open List

variable {α : Type*} [DecidableEq α]

/-- An element that was not seen before is marked and put on the stack. -/
def discover (state : Finset α × List α) (a : α) : Finset α × List α :=
  if a ∈ state.1 then state else (insert a state.1, a :: state.2)

def explore (succ : α → List α) : ℕ → Finset α → List α → Finset α
  | 0, visited, _ => visited
  | _ + 1, visited, [] => visited
  | fuel + 1, visited, a :: stack =>
    let found := (succ a).foldl discover (visited, stack)
    explore succ fuel found.1 found.2

/-- What scanning a list of successors does to the visited set and to the stack. -/
structure Discovered (seen : List α) (before after : Finset α × List α) : Prop where
  visited : ∀ a, a ∈ after.1 ↔ a ∈ before.1 ∨ a ∈ seen
  pushed : ∀ a ∈ after.2, a ∈ before.2 ∨ a ∈ after.1
  kept : ∀ a ∈ before.2, a ∈ after.2
  fresh : ∀ a ∈ after.1, a ∉ before.1 → a ∈ after.2
  balance : after.1.card + before.2.length = before.1.card + after.2.length

theorem discovered_foldl (seen : List α) (state : Finset α × List α) :
    Discovered seen state (seen.foldl discover state) := by
  induction seen generalizing state with
  | nil =>
    constructor
    · simp
    · intro a ha
      exact .inl ha
    · intro a ha
      exact ha
    · intro a ha hnew
      exact absurd ha hnew
    · rfl
  | cons b seen ih =>
    simp only [foldl_cons]
    by_cases hb : b ∈ state.1
    · have hsame : discover state b = state := if_pos hb
      rw [hsame]
      have h := ih state
      refine ⟨?_, h.pushed, h.kept, h.fresh, h.balance⟩
      intro a
      rw [h.visited, mem_cons]
      constructor
      · rintro (ha | ha)
        · exact .inl ha
        · exact .inr (.inr ha)
      · rintro (ha | rfl | ha)
        · exact .inl ha
        · exact .inl hb
        · exact .inr ha
    · have hnew : discover state b = (insert b state.1, b :: state.2) := if_neg hb
      rw [hnew]
      have h := ih (insert b state.1, b :: state.2)
      have hvisited : ∀ a, a ∈ (seen.foldl discover (insert b state.1, b :: state.2)).1 ↔
          a ∈ state.1 ∨ a ∈ b :: seen := by
        intro a
        rw [h.visited, Finset.mem_insert, mem_cons]
        tauto
      refine ⟨hvisited, ?_, ?_, ?_, ?_⟩
      · intro a ha
        rcases h.pushed a ha with hold | hmem
        · rcases mem_cons.mp hold with rfl | hold
          · exact .inr ((hvisited a).mpr (.inr (by simp)))
          · exact .inl hold
        · exact .inr hmem
      · intro a ha
        exact h.kept a (mem_cons_of_mem _ ha)
      · intro a ha hfresh
        by_cases hab : a = b
        · subst hab
          exact h.kept a (by simp)
        · exact h.fresh a ha (by simp [hab, hfresh])
      · have hcard := h.balance
        simp only [Finset.card_insert_of_notMem hb, length_cons] at hcard
        omega

variable {a : α} {fuel : ℕ} {known : Finset α}

theorem pushed_mem_seen {seen : List α} {state : Finset α × List α}
    (h : a ∈ (seen.foldl discover state).2) (hnew : a ∉ state.2) : a ∈ seen := by
  induction seen generalizing state with
  | nil => exact absurd h hnew
  | cons b seen ih =>
    rw [foldl_cons] at h
    by_cases hab : a = b
    · exact hab ▸ mem_cons_self
    · refine mem_cons_of_mem _ (ih h ?_)
      unfold discover
      split_ifs
      · exact hnew
      · simp [hab, hnew]

/-- Everything visited is reachable, and everything visited that is no longer on the
stack has its successors visited. -/
structure Exploring (succ : α → List α) (roots visited : Finset α) (stack : List α) : Prop where
  roots_visited : roots ⊆ visited
  reachable : ∀ a ∈ visited, ∃ r ∈ roots, Relation.ReflTransGen (fun a b => b ∈ succ a) r a
  stack_visited : ∀ a ∈ stack, a ∈ visited
  closed : ∀ a ∈ visited, a ∉ stack → ∀ b ∈ succ a, b ∈ visited

variable {succ : α → List α} {roots visited : Finset α} {stack : List α}

theorem Exploring.step (h : Exploring succ roots visited (a :: stack)) :
    Exploring succ roots ((succ a).foldl discover (visited, stack)).1
      ((succ a).foldl discover (visited, stack)).2 := by
  have hd := discovered_foldl (succ a) (visited, stack)
  constructor
  · intro b hb
    exact (hd.visited b).mpr (.inl (h.roots_visited hb))
  · intro b hb
    rcases (hd.visited b).mp hb with hold | hnew
    · exact h.reachable b hold
    · obtain ⟨r, hr, hreach⟩ := h.reachable a (h.stack_visited a (by simp))
      exact ⟨r, hr, hreach.tail hnew⟩
  · intro b hb
    rcases hd.pushed b hb with hold | hmem
    · exact (hd.visited b).mpr (.inl (h.stack_visited b (mem_cons_of_mem _ hold)))
    · exact hmem
  · intro b hb hstack c hc
    by_cases hold : b ∈ visited
    · by_cases hba : b = a
      · subst hba
        exact (hd.visited c).mpr (.inr hc)
      · have hbstack : b ∉ a :: stack := by
          intro hmem
          rcases mem_cons.mp hmem with hmem | hmem
          · exact hba hmem
          · exact hstack (hd.kept b hmem)
        exact (hd.visited c).mpr (.inl (h.closed b hold hbstack c hc))
    · exact absurd (hd.fresh b hb hold) hstack

theorem exploring_explore {domain : Finset α} (hclosed : ∀ a ∈ domain, ∀ b ∈ succ a, b ∈ domain)
    (hsub : visited ⊆ domain) (h : Exploring succ roots visited stack)
    (hfuel : domain.card + stack.length ≤ fuel + visited.card) :
    Exploring succ roots (explore succ fuel visited stack) [] := by
  induction fuel generalizing visited stack with
  | zero =>
    have hcard := Finset.card_le_card hsub
    obtain rfl : stack = [] := length_eq_zero_iff.mp (by omega)
    exact h
  | succ fuel ih =>
    cases stack with
    | nil => exact h
    | cons a stack =>
      have hd := discovered_foldl (succ a) (visited, stack)
      apply ih
      · intro b hb
        rcases (hd.visited b).mp hb with hold | hnew
        · exact hsub hold
        · exact hclosed a (hsub (h.stack_visited a (by simp))) b hnew
      · exact h.step
      · have hbalance := hd.balance
        simp only [length_cons] at hfuel hbalance
        omega

/-- The search from `roots` visits exactly what is reachable from them. -/
theorem mem_explore (domain : Finset α) (hclosed : ∀ a ∈ domain, ∀ b ∈ succ a, b ∈ domain)
    (hroots : roots ⊆ domain) (hstack : ∀ a, a ∈ stack ↔ a ∈ roots)
    (hfuel : domain.card + stack.length ≤ fuel + roots.card) :
    a ∈ explore succ fuel roots stack ↔
      ∃ r ∈ roots, Relation.ReflTransGen (fun a b => b ∈ succ a) r a := by
  have hstart : Exploring succ roots roots stack := by
    constructor
    · exact Finset.Subset.refl _
    · intro b hb
      exact ⟨b, hb, .refl⟩
    · intro b hb
      exact (hstack b).mp hb
    · intro b hb hnot
      exact absurd ((hstack b).mpr hb) hnot
  have hend := exploring_explore hclosed hroots hstart hfuel
  constructor
  · intro ha
    exact hend.reachable a ha
  · rintro ⟨r, hr, hreach⟩
    induction hreach with
    | refl => exact hend.roots_visited hr
    | tail _ hedge ih => exact hend.closed _ ih (by simp) _ hedge

/-- Marks on elements that the search never meets stay and change nothing. -/
theorem explore_union {extra : Finset α} {region : Set α}
    (hclosed : ∀ a ∈ region, ∀ b ∈ succ a, b ∈ region) (hextra : ∀ a ∈ region, a ∉ extra)
    (hstack : ∀ a ∈ stack, a ∈ region) (fuel : ℕ) :
    explore succ fuel (extra ∪ visited) stack = extra ∪ explore succ fuel visited stack := by
  induction fuel generalizing visited stack with
  | zero => rfl
  | succ fuel ih =>
    cases stack with
    | nil => rfl
    | cons a stack =>
      have hscan : ∀ (seen : List α) (state : Finset α × List α), (∀ b ∈ seen, b ∈ region) →
          seen.foldl discover (extra ∪ state.1, state.2) =
            (extra ∪ (seen.foldl discover state).1, (seen.foldl discover state).2) := by
        intro seen
        induction seen with
        | nil => exact fun _ _ => rfl
        | cons b seen ihs =>
          intro state hseen
          have hb : b ∉ extra := hextra b (hseen b mem_cons_self)
          have hstep : discover (extra ∪ state.1, state.2) b =
              (extra ∪ (discover state b).1, (discover state b).2) := by
            unfold discover
            by_cases hmem : b ∈ state.1
            · simp [hmem]
            · simp [hmem, hb]
          rw [foldl_cons, foldl_cons, hstep]
          exact ihs _ fun c hc => hseen c (mem_cons_of_mem _ hc)
      have ha := hclosed a (hstack a mem_cons_self)
      have hstate := hscan (succ a) (visited, stack) ha
      rw [explore, explore]
      simp only [hstate]
      refine ih ?_
      intro b hb
      by_cases hold : b ∈ stack
      · exact hstack b (mem_cons_of_mem _ hold)
      · exact ha b (pushed_mem_seen hb hold)

/-- The search that marks an element when it leaves the stack, and skips what it does not
know. -/
def sweep (succ : α → List α) (known : Finset α) : ℕ → Finset α → List α → Finset α
  | 0, visited, _ => visited
  | _ + 1, visited, [] => visited
  | fuel + 1, visited, a :: stack =>
    if a ∈ visited ∨ a ∉ known then sweep succ known fuel visited stack
    else sweep succ known fuel (insert a visited) (succ a ++ stack)

/-- Everything met is reachable, and the successors of what is marked are marked or wait. -/
structure Sweeping (succ : α → List α) (known roots visited : Finset α) (stack : List α) :
    Prop where
  roots_met : ∀ r ∈ roots, r ∈ visited ∨ r ∈ stack
  reachable : ∀ a, a ∈ visited ∨ a ∈ stack →
    ∃ r ∈ roots, Relation.ReflTransGen (fun a b => b ∈ succ a) r a
  known : ∀ a, a ∈ visited ∨ a ∈ stack → a ∈ known
  closed : ∀ a ∈ visited, ∀ b ∈ succ a, b ∈ visited ∨ b ∈ stack

omit [DecidableEq α] in
theorem Sweeping.skip (h : Sweeping succ known roots visited (a :: stack)) (ha : a ∈ visited) :
    Sweeping succ known roots visited stack := by
  have hmet : ∀ b, b ∈ visited ∨ b ∈ a :: stack → b ∈ visited ∨ b ∈ stack := by
    intro b hb
    rcases hb with hb | hb
    · exact .inl hb
    · rcases mem_cons.mp hb with rfl | hb
      · exact .inl ha
      · exact .inr hb
  have hmet' : ∀ b, b ∈ visited ∨ b ∈ stack → b ∈ visited ∨ b ∈ a :: stack :=
    fun b hb => hb.imp_right (mem_cons_of_mem a)
  exact ⟨fun r hr => hmet r (h.roots_met r hr), fun b hb => h.reachable b (hmet' b hb),
    fun b hb => h.known b (hmet' b hb), fun b hb c hc => hmet c (h.closed b hb c hc)⟩

theorem Sweeping.mark (h : Sweeping succ known roots visited (a :: stack))
    (hclosed : ∀ b ∈ succ a, b ∈ known) :
    Sweeping succ known roots (insert a visited) (succ a ++ stack) := by
  have hold : ∀ b, b ∈ visited ∨ b ∈ a :: stack → b ∈ insert a visited ∨ b ∈ succ a ++ stack := by
    intro b hb
    rcases hb with hb | hb
    · exact .inl (Finset.mem_insert_of_mem hb)
    · rcases mem_cons.mp hb with rfl | hb
      · exact .inl (Finset.mem_insert_self b visited)
      · exact .inr (mem_append_right _ hb)
  have hnew : ∀ b, b ∈ insert a visited ∨ b ∈ succ a ++ stack →
      (b ∈ visited ∨ b ∈ a :: stack) ∨ b ∈ succ a := by
    intro b hb
    rw [Finset.mem_insert, mem_append] at hb
    rw [mem_cons]
    tauto
  refine ⟨fun r hr => hold r (h.roots_met r hr), ?_, ?_, ?_⟩
  · intro b hb
    rcases hnew b hb with hb | hb
    · exact h.reachable b hb
    · obtain ⟨r, hr, hreach⟩ := h.reachable a (.inr mem_cons_self)
      exact ⟨r, hr, hreach.tail hb⟩
  · intro b hb
    rcases hnew b hb with hb | hb
    · exact h.known b hb
    · exact hclosed b hb
  · intro b hb c hc
    rcases Finset.mem_insert.mp hb with rfl | hb
    · exact .inr (mem_append_left _ hc)
    · exact hold c (h.closed b hb c hc)

theorem sweeping_sweep (hclosed : ∀ a ∈ known, ∀ b ∈ succ a, b ∈ known)
    (h : Sweeping succ known roots visited stack)
    (hfuel : stack.length + ∑ a ∈ known \ visited, (succ a).length ≤ fuel) :
    Sweeping succ known roots (sweep succ known fuel visited stack) [] := by
  induction fuel generalizing visited stack with
  | zero =>
    obtain rfl : stack = [] := length_eq_zero_iff.mp (by omega)
    exact h
  | succ fuel ih =>
    cases stack with
    | nil => exact h
    | cons a stack =>
      have ha : a ∈ known := h.known a (.inr mem_cons_self)
      rw [length_cons] at hfuel
      unfold sweep
      split_ifs with hskip
      · have hmet : a ∈ visited := hskip.resolve_right (not_not.mpr ha)
        exact ih (h.skip hmet) (by omega)
      · have hnew : a ∉ visited := fun hmet => hskip (.inl hmet)
        refine ih (h.mark (hclosed a ha)) ?_
        have hsum := Finset.add_sum_erase (known \ visited) (fun b => (succ b).length)
          (Finset.mem_sdiff.mpr ⟨ha, hnew⟩)
        rw [length_append, Finset.sdiff_insert]
        omega

/-- The search from a known element marks exactly what is reachable from it. -/
theorem mem_sweep (hclosed : ∀ a ∈ known, ∀ b ∈ succ a, b ∈ known) {root : α} (hroot : root ∈ known)
    (hfuel : 1 + ∑ a ∈ known, (succ a).length ≤ fuel) :
    a ∈ sweep succ known fuel ∅ [root] ↔ Relation.ReflTransGen (fun a b => b ∈ succ a) root a := by
  have hstart : Sweeping succ known {root} ∅ [root] := by
    refine ⟨by simp, ?_, by simpa using hroot, by simp⟩
    intro b hb
    obtain rfl : b = root := by simpa using hb
    exact ⟨b, by simp, .refl⟩
  have hend := sweeping_sweep hclosed hstart (by simpa using hfuel)
  constructor
  · intro ha
    obtain ⟨r, hr, hreach⟩ := hend.reachable a (.inl ha)
    exact Finset.mem_singleton.mp hr ▸ hreach
  · intro hreach
    induction hreach with
    | refl => simpa using hend.roots_met root (by simp)
    | tail _ hedge ih => simpa using hend.closed _ ih _ hedge

def saturate (step : Finset α → Finset α) : ℕ → Finset α → Finset α
  | 0, s => s
  | fuel + 1, s => if step s = s then s else saturate step fuel (step s)

variable {step : Finset α → Finset α} {s : Finset α}

theorem subset_saturate (hgrow : ∀ s, s ⊆ step s) (fuel : ℕ) (s : Finset α) :
    s ⊆ saturate step fuel s := by
  induction fuel generalizing s with
  | zero => exact Finset.Subset.refl _
  | succ fuel ih =>
    rw [saturate]
    split_ifs
    · exact Finset.Subset.refl _
    · exact (hgrow s).trans (ih (step s))

theorem saturate_subset (hmono : Monotone step) {t : Finset α} (hs : s ⊆ t) (ht : step t ⊆ t)
    (fuel : ℕ) : saturate step fuel s ⊆ t := by
  induction fuel generalizing s with
  | zero => exact hs
  | succ fuel ih =>
    rw [saturate]
    split_ifs
    · exact hs
    · exact ih ((hmono hs).trans ht)

theorem step_saturate (hgrow : ∀ s, s ⊆ step s) (domain : Finset α)
    (hbound : ∀ t ⊆ domain, step t ⊆ domain) (hs : s ⊆ domain)
    (hfuel : domain.card < fuel + s.card) : step (saturate step fuel s) = saturate step fuel s := by
  induction fuel generalizing s with
  | zero =>
    have := Finset.card_le_card hs
    omega
  | succ fuel ih =>
    rw [saturate]
    split_ifs with hstable
    · exact hstable
    · have hlt : s.card < (step s).card :=
        Finset.card_lt_card ((hgrow s).ssubset_of_ne (Ne.symm hstable))
      exact ih (hbound s hs) (by omega)

/-- Saturation finds the least set that contains its start and is closed under the step. -/
theorem isLeast_saturate (hmono : Monotone step) (hgrow : ∀ s, s ⊆ step s) (domain : Finset α)
    (hbound : ∀ t ⊆ domain, step t ⊆ domain) (hs : s ⊆ domain)
    (hfuel : domain.card < fuel + s.card) :
    IsLeast {t | s ⊆ t ∧ step t ⊆ t} (saturate step fuel s) := by
  constructor
  · exact ⟨subset_saturate hgrow fuel s, (step_saturate hgrow domain hbound hs hfuel).subset⟩
  · rintro t ⟨hst, ht⟩
    exact saturate_subset hmono hst ht fuel

end SqlTide.Foundations
