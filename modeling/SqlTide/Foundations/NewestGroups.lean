import Mathlib.Data.Finset.Card
import Mathlib.Data.List.Sort
import Mathlib.Tactic

/-!
# The newest groups of a window

Items fall into groups by a key, at most `m` in each. Of a list with the greatest keys first, the
first `m * n` items hold all items of the `n` greatest keys, whatever the order in a group.
-/

namespace SqlTide.Foundations

open List

variable {α κ : Type*} [LinearOrder κ] (key : α → κ)

/-- The keys beyond a key. -/
def newerKeys (items : List α) (k : κ) : Finset κ :=
  (items.map key).toFinset.filter (k < ·)

variable {key} {items : List α} {item : α} {k k' : κ} {m n window : ℕ}

theorem mem_newerKeys : k' ∈ newerKeys key items k ↔ (∃ item ∈ items, key item = k') ∧ k < k' := by
  simp [newerKeys]

theorem newerKeys_subset (h : k ≤ k') : newerKeys key items k' ⊆ newerKeys key items k := by
  intro newer hnewer
  obtain ⟨hitem, hlt⟩ := mem_newerKeys.mp hnewer
  exact mem_newerKeys.mpr ⟨hitem, h.trans_lt hlt⟩

theorem newerKeys_congr {items' : List α}
    (h : ∀ k, (∃ item ∈ items, key item = k) ↔ ∃ item ∈ items', key item = k) :
    newerKeys key items k = newerKeys key items' k := by
  ext newer
  rw [mem_newerKeys, mem_newerKeys, h]

/-- Groups of at most `m` items. -/
def GroupsOf (key : α → κ) (m : ℕ) (items : List α) : Prop :=
  ∀ k, items.countP (key · = k) ≤ m

theorem GroupsOf.countP_le (h : GroupsOf key m items) {p : α → Bool} (keys : Finset κ)
    (hp : ∀ item ∈ items, p item = true → key item ∈ keys) : items.countP p ≤ m * keys.card := by
  induction keys using Finset.induction generalizing p with
  | empty =>
    rw [countP_eq_zero.mpr fun item hitem hpitem => absurd (hp item hitem hpitem) (by simp)]
    exact Nat.zero_le _
  | insert k keys hk ih =>
    have hrest : items.countP (fun item => p item && !decide (key item = k)) ≤ m * keys.card := by
      apply ih
      intro item hitem hpitem
      rw [Bool.and_eq_true, Bool.not_eq_true', decide_eq_false_iff_not] at hpitem
      exact (Finset.mem_insert.mp (hp item hitem hpitem.1)).resolve_left hpitem.2
    have hsplit : items.countP p ≤ items.countP (key · = k) +
        items.countP fun item => p item && !decide (key item = k) := by
      clear h ih hp hrest
      induction items with
      | nil => simp
      | cons item items ih =>
        simp only [countP_cons]
        by_cases hpitem : p item = true <;> by_cases hkey : key item = k <;>
          simp [hpitem, hkey] <;> omega
    calc items.countP p ≤ _ := hsplit
      _ ≤ m + m * keys.card := Nat.add_le_add (h k) hrest
      _ = m * (insert k keys).card := by rw [Finset.card_insert_of_notMem hk]; ring

/-- The greatest keys first. -/
def NewestFirst (key : α → κ) (items : List α) : Prop :=
  items.Pairwise fun item item' => key item' ≤ key item

instance : Decidable (NewestFirst key items) := inferInstanceAs (Decidable (List.Pairwise _ _))

theorem NewestFirst.le_of_mem_drop (h : NewestFirst key items) {item' : α}
    (hitem : item ∈ items.take window) (hitem' : item' ∈ items.drop window) :
    key item' ≤ key item := by
  rw [NewestFirst, ← take_append_drop window items, pairwise_append] at h
  exact h.2.2 item hitem item' hitem'

/-- With fewer than `n` keys beyond its own, an item is in the window. -/
theorem NewestFirst.mem_take (h : NewestFirst key items) (hgroups : GroupsOf key m items)
    (hitem : item ∈ items) (hnewer : (newerKeys key items (key item)).card < n) :
    item ∈ items.take (m * n) := by
  by_contra hout
  have hdrop : item ∈ items.drop (m * n) := by
    rw [← take_append_drop (m * n) items] at hitem
    exact (mem_append.mp hitem).resolve_left hout
  have hlength : (items.take (m * n)).length = m * n := by
    have hpositive := length_pos_of_mem hdrop
    rw [length_drop] at hpositive
    rw [length_take]
    omega
  -- the window and the item itself are as many items with at most `n` keys
  have hcount : items.countP (fun item' => decide (key item ≤ key item')) ≤
      m * (insert (key item) (newerKeys key items (key item))).card := by
    apply hgroups.countP_le
    intro item' hitem' hle
    rcases (of_decide_eq_true hle).eq_or_lt with heq | hlt
    · rw [← heq]
      exact Finset.mem_insert_self _ _
    · exact Finset.mem_insert_of_mem (mem_newerKeys.mpr ⟨⟨item', hitem', rfl⟩, hlt⟩)
  have hwindow : (items.take (m * n)).countP (fun item' => decide (key item ≤ key item')) =
      m * n := by
    rw [countP_eq_length.mpr fun item' hitem' =>
      decide_eq_true (h.le_of_mem_drop hitem' hdrop), hlength]
  have hbehind : 0 < (items.drop (m * n)).countP (fun item' => decide (key item ≤ key item')) :=
    countP_pos_iff.mpr ⟨item, hdrop, decide_eq_true le_rfl⟩
  have hall : items.countP (fun item' => decide (key item ≤ key item')) =
      (items.take (m * n)).countP (fun item' => decide (key item ≤ key item')) +
        (items.drop (m * n)).countP (fun item' => decide (key item ≤ key item')) := by
    rw [← countP_append, take_append_drop]
  have hcard := Finset.card_insert_le (key item) (newerKeys key items (key item))
  have hbound : m * (insert (key item) (newerKeys key items (key item))).card ≤ m * n :=
    Nat.mul_le_mul_left m (by omega)
  omega

theorem NewestFirst.newerKeys_take (h : NewestFirst key items) (hitem : item ∈ items.take window) :
    newerKeys key (items.take window) (key item) = newerKeys key items (key item) := by
  ext newer
  rw [mem_newerKeys, mem_newerKeys]
  refine and_congr_left fun hlt => ⟨?_, ?_⟩
  · rintro ⟨item', hitem', rfl⟩
    exact ⟨item', mem_of_mem_take hitem', rfl⟩
  · rintro ⟨item', hitem', rfl⟩
    refine ⟨item', ?_, rfl⟩
    by_contra hout
    rw [← take_append_drop window items] at hitem'
    have hdrop := (mem_append.mp hitem').resolve_left hout
    exact absurd (h.le_of_mem_drop hitem hdrop) (not_le.mpr hlt)

/-- Without two items of one key, the first `n` items are those with fewer than `n` newer ones. -/
theorem mem_take_iff_newerKeys (h : items.Pairwise fun item item' => key item' < key item)
    (hitem : item ∈ items) : item ∈ items.take n ↔ (newerKeys key items (key item)).card < n := by
  induction items generalizing n with
  | nil => simp at hitem
  | cons first items ih =>
    obtain ⟨hfirst, hrest⟩ := pairwise_cons.mp h
    rcases mem_cons.mp hitem with rfl | hmem
    · have hnone : newerKeys key (item :: items) (key item) = ∅ := by
        ext newer
        rw [mem_newerKeys]
        refine iff_of_false ?_ (Finset.notMem_empty newer)
        rintro ⟨⟨item', hitem', rfl⟩, hlt⟩
        rcases mem_cons.mp hitem' with rfl | hitem'
        · exact lt_irrefl _ hlt
        · exact lt_asymm hlt (hfirst item' hitem')
      rw [hnone, Finset.card_empty]
      cases n <;> simp
    · have hlt := hfirst item hmem
      have hnewer : newerKeys key (first :: items) (key item) =
          insert (key first) (newerKeys key items (key item)) := by
        ext newer
        simp only [newerKeys, map_cons, toFinset_cons, Finset.filter_insert, if_pos hlt]
      have hnot : key first ∉ newerKeys key items (key item) := by
        rw [mem_newerKeys]
        rintro ⟨⟨item', hitem', heq⟩, -⟩
        exact absurd (heq ▸ hfirst item' hitem') (lt_irrefl _)
      have hne : item ≠ first := fun heq => lt_irrefl _ (heq ▸ hlt)
      rw [hnewer, Finset.card_insert_of_notMem hnot]
      cases n with
      | zero => simp
      | succ n =>
        rw [take_succ_cons, mem_cons, or_iff_right hne, ih hrest hmem]
        omega

end SqlTide.Foundations
