import Mathlib.Data.List.Dedup
import Mathlib.Data.Multiset.Count
import SqlTide.Foundations.Sql

/-!
# Differences of bags

Two bags are compared by their groups: each group of one bag is joined with the same group of the
other, and what one count is above the other is the difference of the bags.
-/

namespace SqlTide.Sql

open List

variable {α β : Type}

theorem holding_length_le_one {right : List β} {predicate : β → Truth}
    (hunique : right.Pairwise fun r r' => ¬ (predicate r = some true ∧ predicate r' = some true)) :
    (holding right predicate).length ≤ 1 := by
  have hkept : (holding right predicate).Pairwise fun _ _ => False := by
    rw [holding, pairwise_filter]
    apply hunique.imp
    intro r r' hnot hr hr'
    exact hnot ⟨by simpa using hr, by simpa using hr'⟩
  rcases hmatches : holding right predicate with _ | ⟨r, _ | ⟨r', rest⟩⟩
  · simp
  · simp
  · rw [hmatches] at hkept
    exact absurd ((pairwise_cons.mp hkept).1 r' (by simp)) id

/-- Where at most one row matches, each row of the left side comes out of a left join once. -/
theorem leftJoin_of_unique {left : List α} {right : List β} {on : α → β → Truth} {missing : β}
    (hunique : ∀ l, right.Pairwise fun r r' => ¬ (on l r = some true ∧ on l r' = some true)) :
    leftJoin left right on missing =
      left.map fun l => (l, (holding right (on l)).headD missing) := by
  rw [leftJoin, map_eq_flatMap]
  apply flatMap_congr
  intro l _
  have hlength := holding_length_le_one (hunique l)
  rcases hmatches : holding right (on l) with _ | ⟨r, _ | ⟨r', rest⟩⟩
  · rfl
  · rfl
  · rw [hmatches] at hlength
    simp at hlength

theorem map_filter_congr {f g : α → β} {p q : α → Bool} {items : List α}
    (hp : ∀ item ∈ items, p item = q item) (hf : ∀ item ∈ items, q item = true → f item = g item) :
    (items.filter p).map f = (items.filter q).map g := by
  rw [filter_congr hp]
  apply map_congr_left
  intro item hitem
  obtain ⟨hmem, hq⟩ := mem_filter.mp hitem
  exact hf item hmem hq

section Groups

variable [DecidableEq α]

def occurrences (rows : List α) (row : α) : ℕ := rows.count row

theorem occurrences_of_notMem {rows : List α} {row : α} (h : row ∉ rows) :
    occurrences rows row = 0 :=
  count_eq_zero_of_not_mem h

/-- `count() .. GROUP BY`: each row once, with how often it occurs. -/
def groupedCounts (rows : List α) : List (α × ℕ) :=
  rows.dedup.map fun row => (row, occurrences rows row)

theorem mem_groupedCounts {rows : List α} {group : α × ℕ} :
    group ∈ groupedCounts rows ↔ group.1 ∈ rows ∧ group.2 = occurrences rows group.1 := by
  obtain ⟨row, count⟩ := group
  simp only [groupedCounts, mem_map, mem_dedup, Prod.mk.injEq]
  constructor
  · rintro ⟨row, hrow, rfl, rfl⟩
    exact ⟨hrow, rfl⟩
  · rintro ⟨hrow, hcount⟩
    exact ⟨row, hrow, rfl, hcount.symm⟩

/-- What a bag has more of than another one, group by group. -/
def groupedDifference (primary secondary : List α) : List (α × ℕ) :=
  ((groupedCounts primary).filter fun group => occurrences secondary group.1 < group.2).map
    fun group => (group.1, group.2 - occurrences secondary group.1)

theorem groupedDifference_nil (rows : List α) : groupedDifference rows [] = groupedCounts rows := by
  have hall : ∀ group ∈ groupedCounts rows, decide (occurrences [] group.1 < group.2) = true := by
    intro group hgroup
    obtain ⟨hmem, hcount⟩ := mem_groupedCounts.mp hgroup
    rw [decide_eq_true_iff, occurrences_of_notMem not_mem_nil, hcount]
    exact count_pos_iff.mpr hmem
  rw [groupedDifference, filter_eq_self.mpr hall]
  conv_rhs => rw [← map_id (groupedCounts rows)]
  apply map_congr_left
  intro group _
  rw [occurrences_of_notMem not_mem_nil]
  rfl

/-- The rows of groups, each as often as its group says. -/
def expandGroups (groups : List (α × ℕ)) : List α :=
  groups.flatMap fun group => replicate group.2 group.1

theorem count_expandGroups_map {rows : List α} (hrows : rows.Nodup) (count : α → ℕ) (row : α) :
    (expandGroups (rows.map fun row => (row, count row))).count row =
      if row ∈ rows then count row else 0 := by
  induction rows with
  | nil => simp [expandGroups]
  | cons first rows ih =>
    obtain ⟨hfirst, hrest⟩ := nodup_cons.mp hrows
    have hsplit : expandGroups ((first :: rows).map fun row => (row, count row)) =
        replicate (count first) first ++
          expandGroups (rows.map fun row => (row, count row)) := rfl
    rw [hsplit, count_append, ih hrest, count_replicate]
    by_cases heq : first = row
    · subst heq
      simp [hfirst]
    · simp [heq, Ne.symm heq]

/-- The groups of a difference are those of the difference of the bags. -/
theorem expandGroups_groupedDifference (primary secondary : List α) :
    (expandGroups (groupedDifference primary secondary) : Multiset α) =
      (primary : Multiset α) - (secondary : Multiset α) := by
  have hgroups : groupedDifference primary secondary =
      (primary.dedup.filter fun row => occurrences secondary row < occurrences primary row).map
        fun row => (row, occurrences primary row - occurrences secondary row) := by
    rw [groupedDifference, groupedCounts, filter_map, map_map]
    rfl
  rw [hgroups]
  ext row
  rw [Multiset.coe_count, count_expandGroups_map ((nodup_dedup _).filter _),
    Multiset.count_sub, Multiset.coe_count, Multiset.coe_count]
  split_ifs with hmem
  · rfl
  · simp only [mem_filter, mem_dedup, decide_eq_true_eq, not_and, not_lt] at hmem
    by_cases hprimary : row ∈ primary
    · have hle : primary.count row ≤ secondary.count row := hmem hprimary
      omega
    · rw [count_eq_zero_of_not_mem hprimary]
      omega

end Groups

end SqlTide.Sql
