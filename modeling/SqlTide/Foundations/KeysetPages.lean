import Mathlib.Data.List.Sort
import Mathlib.Data.List.TakeDrop

/-!
# Keyset pages

A list with the greatest keys first is read in pages. What is behind a page has smaller keys than
the last item of the page, and what a condition on greater keys keeps is a start of the list.
-/

namespace SqlTide.Foundations

open List

variable {α κ : Type*} [LinearOrder κ] {key : α → κ} {items before rest : List α} {n : ℕ}

/-- The greatest keys first, each once. -/
def Descending (key : α → κ) (items : List α) : Prop :=
  items.Pairwise fun item item' => key item' < key item

def sortDescending (key : α → κ) (items : List α) : List α :=
  items.insertionSort fun item item' => key item' ≤ key item

@[simp] theorem mem_sortDescending {item : α} :
    item ∈ sortDescending key items ↔ item ∈ items := mem_insertionSort _

theorem perm_sortDescending (key : α → κ) (items : List α) :
    (sortDescending key items).Perm items := perm_insertionSort _ items

theorem descending_sortDescending (h : (items.map key).Nodup) :
    Descending key (sortDescending key items) := by
  have : Std.Total fun item item' : α => key item' ≤ key item :=
    ⟨fun item item' => le_total (key item') (key item)⟩
  have : IsTrans α fun item item' => key item' ≤ key item := ⟨fun _ _ _ h h' => le_trans h' h⟩
  have hsorted : (sortDescending key items).Pairwise fun item item' => key item' ≤ key item :=
    pairwise_insertionSort _ items
  have hdistinct : (sortDescending key items).Pairwise fun item item' => key item ≠ key item' := by
    rw [← pairwise_map, ← List.Nodup]
    exact ((perm_sortDescending key items).map key).nodup_iff.mpr h
  apply (hsorted.and hdistinct).imp
  rintro item item' ⟨hle, hne⟩
  exact lt_of_le_of_ne hle hne.symm

theorem Descending.eq_of_perm {items' : List α} (h : Descending key items)
    (h' : Descending key items') (hperm : items.Perm items') : items = items' := by
  apply @List.Perm.eq_of_pairwise _ fun item item' => key item' < key item
  · intro item item' _ _ hlt hlt'
    exact absurd hlt hlt'.asymm
  · exact h
  · exact h'
  · exact hperm

theorem sortDescending_filter (h : (items.map key).Nodup) (p : α → Bool) :
    sortDescending key (items.filter p) = (sortDescending key items).filter p := by
  have hkept : Descending key (sortDescending key (items.filter p)) :=
    descending_sortDescending (h.sublist (filter_sublist.map key))
  apply hkept.eq_of_perm ((descending_sortDescending h).filter p)
  exact (perm_sortDescending key _).trans ((perm_sortDescending key items).symm.filter p)

theorem Descending.filter_behind (h : Descending key (before ++ rest)) :
    (before ++ rest).filter (fun item => ∀ last ∈ before.getLast?, key item < key last) = rest := by
  cases hlast : before.getLast? with
  | none =>
    rw [getLast?_eq_none_iff.mp hlast]
    simp
  | some last =>
    obtain ⟨start, rfl⟩ := getLast?_eq_some_iff.mp hlast
    obtain ⟨hbefore, -, hbehind⟩ := pairwise_append.mp h
    have hstart : ∀ item ∈ start ++ [last], ¬ key item < key last := by
      intro item hitem
      rcases mem_append.mp hitem with hitem | hitem
      · exact ((pairwise_append.mp hbefore).2.2 item hitem last (by simp)).asymm
      · rw [mem_singleton.mp hitem]
        exact lt_irrefl _
    rw [filter_append, filter_eq_nil_iff.mpr (by simpa using hstart), nil_append, filter_eq_self]
    intro item hitem
    simpa using hbehind last (by simp) item hitem

/-- A condition that greater keys meet with smaller ones is met by a start of the list. -/
theorem Descending.filter_prefix {p : α → Bool} (h : Descending key items)
    (hp : ∀ item item', key item < key item' → p item = true → p item' = true) :
    items.filter p <+: items := by
  induction items with
  | nil => exact prefix_rfl
  | cons first items ih =>
    obtain ⟨hfirst, hrest⟩ := pairwise_cons.mp h
    by_cases hkeep : p first = true
    · rw [filter_cons_of_pos hkeep]
      exact cons_prefix_cons.mpr ⟨rfl, ih hrest⟩
    · have hnone : items.filter p = [] := by
        rw [filter_eq_nil_iff]
        intro item hitem hkept
        exact hkeep (hp item first (hfirst item hitem) hkept)
      rw [filter_cons_of_neg hkeep, hnone]
      exact nil_prefix

/-- With enough items in it, such a start has the first page. -/
theorem Descending.take_filter {p : α → Bool} (h : Descending key items)
    (hp : ∀ item item', key item < key item' → p item = true → p item' = true)
    (hn : n ≤ (items.filter p).length) : (items.filter p).take n = items.take n := by
  rw [prefix_iff_eq_take.mp (h.filter_prefix hp), take_take, Nat.min_eq_left hn]

end SqlTide.Foundations
