import Mathlib.Data.Finset.Basic
import Mathlib.Data.List.Sort
import Mathlib.Data.String.Basic
import Mathlib.Order.Bounds.Basic

/-!
# Sorted tuples

`sorted(values, key=...)` with a key of strings, compared as Python compares
tuples, and `sorted` of a set of names. The sort is stable.
-/

namespace SqlTide.Foundations

open List

def sortedBy {α : Type*} (key : α → List String) (values : List α) : List α :=
  values.insertionSort fun a b => key a ≤ key b

variable {α : Type*} {names : Finset String}

variable {key : α → List String} {values : List α} {a : α}

@[simp] theorem mem_sortedBy :
    a ∈ sortedBy key values ↔ a ∈ values := mem_insertionSort _

theorem sortedBy_eq_of_perm (hkey : Function.Injective key) {values' : List α}
    (h : values.Perm values') : sortedBy key values = sortedBy key values' := by
  have : Std.Total fun a b => key a ≤ key b := ⟨fun a b => le_total (key a) (key b)⟩
  have : IsTrans α fun a b => key a ≤ key b := ⟨fun _ _ _ hab hbc => le_trans hab hbc⟩
  apply @List.Perm.eq_of_pairwise _ fun a b => key a ≤ key b
  · intro a b _ _ hab hba
    exact hkey (le_antisymm hab hba)
  · exact pairwise_insertionSort _ values
  · exact pairwise_insertionSort _ values'
  · exact (perm_insertionSort _ values).trans (h.trans (perm_insertionSort _ values').symm)

theorem find?_eq_some_of_unique {p : α → Bool} (ha : a ∈ values)
    (hp : p a = true) (hunique : ∀ b ∈ values, p b = true → b = a) : values.find? p = some a := by
  obtain ⟨found, hfound⟩ : ∃ found, values.find? p = some found :=
    Option.isSome_iff_exists.mp (find?_isSome.mpr ⟨a, ha, hp⟩)
  rw [hfound, hunique found (mem_of_find?_eq_some hfound) (find?_some hfound)]

theorem filter_key_eq_singleton {κ : Type*} [DecidableEq κ] {key : α → κ}
    (hkeys : (values.map key).Nodup) (ha : a ∈ values) : values.filter (key · = key a) = [a] := by
  induction values with
  | nil => simp at ha
  | cons b values ih =>
    rw [map_cons, nodup_cons] at hkeys
    rcases mem_cons.mp ha with rfl | ha
    · have hrest : values.filter (key · = key a) = [] := by
        refine filter_eq_nil_iff.mpr fun c hc => ?_
        have hne : key c ≠ key a := fun h => hkeys.1 (h ▸ mem_map_of_mem hc)
        simpa using hne
      rw [filter_cons_of_pos (by simp), hrest]
    · have hne : key b ≠ key a := fun h => hkeys.1 (h ▸ mem_map_of_mem ha)
      rw [filter_cons_of_neg (by simpa using hne), ih hkeys.2 ha]

/-- A member that few are not behind is among the first ones of an ordered list. -/
theorem mem_take_of_countP {r : α → α → Prop} [DecidableRel r]
    {count : ℕ} (h : values.Pairwise r) (hrefl : r a a) (ha : a ∈ values)
    (hcount : values.countP (r · a) ≤ count) : a ∈ values.take count := by
  obtain ⟨before, after, rfl⟩ := append_of_mem ha
  have hbefore : before.countP (r · a) = before.length := by
    rw [countP_eq_length]
    intro b hb
    simpa using (pairwise_append.mp h).2.2 b hb a (by simp)
  rw [countP_append, hbefore, countP_cons_of_pos (by simpa using hrefl)] at hcount
  rw [take_append, take_cons (by omega)]
  exact mem_append_right _ mem_cons_self

theorem nodup_eraseDups [BEq α] [LawfulBEq α] (values : List α) : values.eraseDups.Nodup := by
  induction hlength : values.length using Nat.strong_induction_on generalizing values with
  | _ n ih =>
    cases values with
    | nil => simp
    | cons a values =>
      rw [eraseDups_cons, nodup_cons]
      have hshort : (values.filter fun b => !b == a).length < n := by
        have hle := length_filter_le (fun b => !b == a) values
        rw [length_cons] at hlength
        omega
      exact ⟨by simp [mem_eraseDups], ih _ hshort _ rfl⟩

/-- The sorted list does not depend on how the elements of the set are listed. -/
def sortedNames (names : Finset String) : List String :=
  Quot.liftOn names.val (fun l => l.insertionSort (· ≤ ·)) fun l l' h =>
    List.Perm.eq_of_pairwise (fun _ _ _ _ => le_antisymm) (pairwise_insertionSort _ l)
      (pairwise_insertionSort _ l')
      (((perm_insertionSort _ l).trans h).trans (perm_insertionSort _ l').symm)

@[simp] theorem mem_sortedNames {n : String} : n ∈ sortedNames names ↔ n ∈ names := by
  obtain ⟨⟨l⟩, hl⟩ := names
  exact mem_insertionSort _

theorem nodup_sortedNames (names : Finset String) : (sortedNames names).Nodup := by
  obtain ⟨⟨l⟩, hl⟩ := names
  exact (perm_insertionSort _ l).nodup_iff.mpr hl

theorem sortedNames_injective : Function.Injective sortedNames := by
  intro s t h
  ext n
  rw [← mem_sortedNames, h, mem_sortedNames]

@[simp] theorem sortedNames_eq_nil : sortedNames names = [] ↔ names = ∅ := by
  constructor
  · intro h
    apply sortedNames_injective
    rw [h]
    rfl
  · rintro rfl
    rfl

theorem pairwise_sortedNames (names : Finset String) : (sortedNames names).Pairwise (· ≤ ·) := by
  obtain ⟨⟨l⟩, hl⟩ := names
  exact pairwise_insertionSort _ l

/-- The head of the sorted names is the smallest one. -/
theorem isLeast_headD_sortedNames (h : names.Nonempty) (d : String) :
    IsLeast (names : Set String) ((sortedNames names).headD d) := by
  cases hsorted : sortedNames names with
  | nil =>
    rw [sortedNames_eq_nil] at hsorted
    exact absurd h (by simp [hsorted])
  | cons a rest =>
    have hmem : ∀ n, n ∈ names ↔ n ∈ a :: rest := by
      intro n
      rw [← hsorted, mem_sortedNames]
    constructor
    · exact (hmem a).mpr (by simp)
    · intro n hn
      rcases mem_cons.mp ((hmem n).mp hn) with rfl | hrest
      · exact le_rfl
      · have hpairwise := pairwise_sortedNames names
        rw [hsorted] at hpairwise
        exact (pairwise_cons.mp hpairwise).1 n hrest

end SqlTide.Foundations
