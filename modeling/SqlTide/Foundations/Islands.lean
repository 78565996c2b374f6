import Mathlib.Data.Int.Interval
import Mathlib.Tactic
import SqlTide.Foundations.Sorting

/-!
# Runs of consecutive offsets

The offsets of each partition, numbered in their order, stay at the same distance from their
numbers along a run of consecutive offsets, and get further away behind each gap. Grouping by
this distance takes the offsets apart into their maximal runs.
-/

namespace SqlTide.Foundations.Islands

open List

variable {κ : Type} [DecidableEq κ]

/-- `row_number() OVER (PARTITION BY partition ORDER BY offset)` of distinct positions. -/
def rowNumber (positions : List (κ × ℤ)) (position : κ × ℤ) : ℕ :=
  (positions.countP fun other => other.1 = position.1 && other.2 < position.2) + 1

def sequenceGroup (positions : List (κ × ℤ)) (position : κ × ℤ) : κ × ℤ :=
  (position.1, position.2 - rowNumber positions position)

structure Range (κ : Type) where
  partition : κ
  lower : ℤ
  upper : ℤ
  deriving DecidableEq, Repr

def offsetsOf (positions : List (κ × ℤ)) (group : κ × ℤ) : List ℤ :=
  (positions.filter fun position => sequenceGroup positions position = group).map (·.2)

/-- The least and the greatest offset of a group. -/
def rangeOf (positions : List (κ × ℤ)) (group : κ × ℤ) : Range κ :=
  { partition := group.1
    lower := (offsetsOf positions group).min?.getD 0
    upper := (offsetsOf positions group).max?.getD 0 }

def islands (positions : List (κ × ℤ)) : List (Range κ) :=
  (positions.map (sequenceGroup positions)).eraseDups.map (rangeOf positions)

def Range.Contains (range : Range κ) (partition : κ) (offset : ℤ) : Prop :=
  range.partition = partition ∧ range.lower ≤ offset ∧ offset ≤ range.upper

/-- Ranges that are the maximal runs of consecutive positions. -/
structure MaximalRuns (positions : κ → ℤ → Prop) (ranges : List (Range κ)) : Prop where
  nonempty : ∀ range ∈ ranges, range.lower ≤ range.upper
  filled : ∀ range ∈ ranges, ∀ partition offset, range.Contains partition offset →
    positions partition offset
  maximal : ∀ range ∈ ranges, ¬ positions range.partition (range.lower - 1) ∧
    ¬ positions range.partition (range.upper + 1)
  covers : ∀ partition offset, positions partition offset →
    ∃ range ∈ ranges, range.Contains partition offset
  apart : ranges.Pairwise fun a b => ∀ partition offset,
    ¬ (a.Contains partition offset ∧ b.Contains partition offset)

section

variable {positions : List (κ × ℤ)} {p : κ} {x y : ℤ}

/-- The offsets of a partition from `x` up to `y`. -/
def between (positions : List (κ × ℤ)) (p : κ) (x y : ℤ) : Finset ℤ :=
  ((positions.filter fun other => other.1 = p && x ≤ other.2 && other.2 < y).map (·.2)).toFinset

theorem mem_between {z : ℤ} : z ∈ between positions p x y ↔ (p, z) ∈ positions ∧ x ≤ z ∧ z < y := by
  simp only [between, mem_toFinset, mem_map, mem_filter, Bool.and_eq_true, decide_eq_true_eq]
  constructor
  · rintro ⟨⟨q, z⟩, ⟨hmem, ⟨rfl, hx⟩, hy⟩, rfl⟩
    exact ⟨hmem, hx, hy⟩
  · rintro ⟨hmem, hx, hy⟩
    exact ⟨(p, z), ⟨hmem, ⟨rfl, hx⟩, hy⟩, rfl⟩

theorem card_between (hnodup : positions.Nodup) :
    (between positions p x y).card =
      positions.countP fun other => other.1 = p && x ≤ other.2 && other.2 < y := by
  have hdistinct : ((positions.filter fun other =>
      other.1 = p && x ≤ other.2 && other.2 < y).map (·.2)).Nodup := by
    refine (hnodup.filter _).map_on ?_
    intro a ha b hb heq
    simp only [mem_filter, Bool.and_eq_true, decide_eq_true_eq] at ha hb
    exact Prod.ext (ha.2.1.1.trans hb.2.1.1.symm) heq
  rw [between, toFinset_card_of_nodup hdistinct, length_map, countP_eq_length_filter]

theorem rowNumber_eq (hnodup : positions.Nodup) (hxy : x ≤ y) :
    rowNumber positions (p, y) =
      rowNumber positions (p, x) + (between positions p x y).card := by
  have hsplit := countP_eq_countP_filter_add positions
    (fun other => other.1 = p && decide (other.2 < y)) (fun other => other.2 < x)
  simp only [countP_filter] at hsplit
  have hbelow : (positions.countP fun other =>
      decide (other.1 = p) && decide (other.2 < y) && decide (other.2 < x)) =
        positions.countP fun other => decide (other.1 = p) && decide (other.2 < x) := by
    refine countP_congr fun other _ => ?_
    simp only [Bool.and_eq_true, decide_eq_true_eq]
    constructor
    · rintro ⟨⟨hp, -⟩, hx⟩
      exact ⟨hp, hx⟩
    · rintro ⟨hp, hx⟩
      exact ⟨⟨hp, by omega⟩, hx⟩
  have habove : (positions.countP fun other =>
      decide (other.1 = p) && decide (other.2 < y) && !decide (other.2 < x)) =
        positions.countP fun other =>
          decide (other.1 = p) && decide (x ≤ other.2) && decide (other.2 < y) := by
    refine countP_congr fun other _ => ?_
    simp only [Bool.and_eq_true, decide_eq_true_eq, Bool.not_eq_true', decide_eq_false_iff_not,
      not_lt]
    tauto
  rw [card_between hnodup]
  unfold rowNumber
  dsimp only
  omega

theorem between_subset : between positions p x y ⊆ Finset.Ico x y := by
  intro z hz
  exact Finset.mem_Ico.mpr (mem_between.mp hz).2

/-- Two positions are in one group just if everything between them is there. -/
theorem sequenceGroup_eq_iff (hnodup : positions.Nodup) (hy : (p, y) ∈ positions) (hxy : x ≤ y) :
    sequenceGroup positions (p, x) = sequenceGroup positions (p, y) ↔
      ∀ z, x ≤ z → z ≤ y → (p, z) ∈ positions := by
  have hnumber := rowNumber_eq (p := p) hnodup hxy
  have hcard : (Finset.Ico x y).card = (y - x).toNat := Int.card_Ico x y
  have hdistance : sequenceGroup positions (p, x) = sequenceGroup positions (p, y) ↔
      (between positions p x y).card = (Finset.Ico x y).card := by
    simp only [sequenceGroup, Prod.mk.injEq, true_and, hnumber, hcard]
    omega
  rw [hdistance]
  constructor
  · intro heq z hxz hzy
    have hall := Finset.eq_of_subset_of_card_le between_subset heq.ge
    rcases hzy.lt_or_eq with hlt | rfl
    · have hmem : z ∈ between positions p x y := by
        rw [hall]
        exact Finset.mem_Ico.mpr ⟨hxz, hlt⟩
      exact (mem_between.mp hmem).1
    · exact hy
  · intro hall
    refine congrArg Finset.card (Finset.Subset.antisymm between_subset ?_)
    intro z hz
    obtain ⟨hxz, hzy⟩ := Finset.mem_Ico.mp hz
    exact mem_between.mpr ⟨hall z hxz hzy.le, hxz, hzy⟩

variable {group : κ × ℤ} {offset : ℤ}

theorem mem_offsetsOf :
    offset ∈ offsetsOf positions group ↔
      (group.1, offset) ∈ positions ∧ sequenceGroup positions (group.1, offset) = group := by
  simp only [offsetsOf, mem_map, mem_filter, decide_eq_true_eq]
  constructor
  · rintro ⟨⟨q, z⟩, ⟨hmem, hgroup⟩, rfl⟩
    obtain rfl : q = group.1 := congrArg Prod.fst hgroup
    exact ⟨hmem, hgroup⟩
  · rintro ⟨hmem, hgroup⟩
    exact ⟨(group.1, offset), ⟨hmem, hgroup⟩, rfl⟩

/-- The bounds of a group that is there are its least and its greatest offset. -/
theorem rangeOf_bounds (hgroup : group ∈ positions.map (sequenceGroup positions)) :
    (rangeOf positions group).lower ∈ offsetsOf positions group ∧
      (rangeOf positions group).upper ∈ offsetsOf positions group ∧
      ∀ offset ∈ offsetsOf positions group, (rangeOf positions group).lower ≤ offset ∧
        offset ≤ (rangeOf positions group).upper := by
  obtain ⟨⟨q, z⟩, hmem, rfl⟩ := mem_map.mp hgroup
  have hsome : z ∈ offsetsOf positions (sequenceGroup positions (q, z)) :=
    mem_offsetsOf.mpr ⟨hmem, rfl⟩
  obtain ⟨least, hleast⟩ : ∃ least,
      (offsetsOf positions (sequenceGroup positions (q, z))).min? = some least :=
    Option.ne_none_iff_exists'.mp (mt min?_eq_none_iff.mp (ne_nil_of_mem hsome))
  obtain ⟨greatest, hgreatest⟩ : ∃ greatest,
      (offsetsOf positions (sequenceGroup positions (q, z))).max? = some greatest :=
    Option.ne_none_iff_exists'.mp (mt max?_eq_none_iff.mp (ne_nil_of_mem hsome))
  simp only [rangeOf, hleast, hgreatest, Option.getD_some]
  obtain ⟨hleastMem, hleastLe⟩ := min?_eq_some_iff.mp hleast
  obtain ⟨hgreatestMem, hgreatestLe⟩ := max?_eq_some_iff.mp hgreatest
  exact ⟨hleastMem, hgreatestMem, fun offset h => ⟨hleastLe offset h, hgreatestLe offset h⟩⟩

/-- The range of a group holds the offsets of the group, and no others. -/
theorem contains_rangeOf_iff (hnodup : positions.Nodup)
    (hgroup : group ∈ positions.map (sequenceGroup positions)) :
    (rangeOf positions group).Contains p offset ↔
      p = group.1 ∧ offset ∈ offsetsOf positions group := by
  obtain ⟨hlower, hupper, hbounds⟩ := rangeOf_bounds hgroup
  obtain ⟨hlowerMem, hlowerGroup⟩ := mem_offsetsOf.mp hlower
  obtain ⟨hupperMem, hupperGroup⟩ := mem_offsetsOf.mp hupper
  constructor
  · rintro ⟨rfl, hle, hge⟩
    refine ⟨rfl, ?_⟩
    have hall := (sequenceGroup_eq_iff hnodup hupperMem (hle.trans hge)).mp
      (hlowerGroup.trans hupperGroup.symm)
    have hmem : (group.1, offset) ∈ positions := hall offset hle hge
    refine mem_offsetsOf.mpr ⟨hmem, ?_⟩
    rw [← (sequenceGroup_eq_iff hnodup hmem hle).mpr fun z hz hz' => hall z hz (hz'.trans hge)]
    exact hlowerGroup
  · rintro ⟨rfl, hmem⟩
    exact ⟨rfl, hbounds offset hmem⟩

/-- Next to a range there is no position of its partition. -/
theorem rangeOf_maximal (hnodup : positions.Nodup)
    (hgroup : group ∈ positions.map (sequenceGroup positions)) :
    (group.1, (rangeOf positions group).lower - 1) ∉ positions ∧
      (group.1, (rangeOf positions group).upper + 1) ∉ positions := by
  obtain ⟨hlower, hupper, hbounds⟩ := rangeOf_bounds hgroup
  obtain ⟨hlowerMem, hlowerGroup⟩ := mem_offsetsOf.mp hlower
  obtain ⟨hupperMem, hupperGroup⟩ := mem_offsetsOf.mp hupper
  constructor
  · intro hmem
    have heq := (sequenceGroup_eq_iff (x := (rangeOf positions group).lower - 1) hnodup hlowerMem
      (by omega)).mpr (by
        intro z hz hz'
        rcases (show z = (rangeOf positions group).lower - 1 ∨
          z = (rangeOf positions group).lower by omega) with rfl | rfl
        · exact hmem
        · exact hlowerMem)
    have hle := (hbounds _ (mem_offsetsOf.mpr ⟨hmem, heq.trans hlowerGroup⟩)).1
    omega
  · intro hmem
    have heq := (sequenceGroup_eq_iff (y := (rangeOf positions group).upper + 1) hnodup hmem
      (show (rangeOf positions group).upper ≤ _ by omega)).mpr (by
        intro z hz hz'
        rcases (show z = (rangeOf positions group).upper ∨
          z = (rangeOf positions group).upper + 1 by omega) with rfl | rfl
        · exact hupperMem
        · exact hmem)
    have hle := (hbounds _ (mem_offsetsOf.mpr ⟨hmem, heq.symm.trans hupperGroup⟩)).2
    omega

/-- The islands of distinct positions are their maximal runs. -/
theorem maximalRuns_islands (hnodup : positions.Nodup) :
    MaximalRuns (fun p offset => (p, offset) ∈ positions) (islands positions) := by
  have hgroups : ∀ range ∈ islands positions, ∃ group ∈ positions.map (sequenceGroup positions),
      range = rangeOf positions group := by
    intro range hrange
    obtain ⟨group, hgroup, rfl⟩ := mem_map.mp hrange
    exact ⟨group, mem_eraseDups.mp hgroup, rfl⟩
  refine ⟨?_, ?_, ?_, ?_, ?_⟩
  · intro range hrange
    obtain ⟨group, hgroup, rfl⟩ := hgroups range hrange
    obtain ⟨hlower, -, hbounds⟩ := rangeOf_bounds hgroup
    exact (hbounds _ hlower).2
  · intro range hrange p offset hcontains
    obtain ⟨group, hgroup, rfl⟩ := hgroups range hrange
    obtain ⟨rfl, hmem⟩ := (contains_rangeOf_iff hnodup hgroup).mp hcontains
    exact (mem_offsetsOf.mp hmem).1
  · intro range hrange
    obtain ⟨group, hgroup, rfl⟩ := hgroups range hrange
    exact rangeOf_maximal hnodup hgroup
  · intro p offset hmem
    have hgroup : sequenceGroup positions (p, offset) ∈
        positions.map (sequenceGroup positions) := mem_map_of_mem hmem
    refine ⟨_, mem_map_of_mem (mem_eraseDups.mpr hgroup), ?_⟩
    exact (contains_rangeOf_iff hnodup hgroup).mpr ⟨rfl, mem_offsetsOf.mpr ⟨hmem, rfl⟩⟩
  · refine pairwise_map.mpr ((nodup_eraseDups _).imp_of_mem ?_)
    intro group group' hmem hmem' hne p offset hboth
    obtain ⟨rfl, hoffset⟩ :=
      (contains_rangeOf_iff hnodup (mem_eraseDups.mp hmem)).mp hboth.1
    obtain ⟨heq, hoffset'⟩ :=
      (contains_rangeOf_iff hnodup (mem_eraseDups.mp hmem')).mp hboth.2
    have hgroup := (mem_offsetsOf.mp hoffset).2
    have hgroup' := (mem_offsetsOf.mp hoffset').2
    rw [← heq, hgroup] at hgroup'
    exact hne hgroup'

omit [DecidableEq κ] in
theorem MaximalRuns.perm {positions : κ → ℤ → Prop} {ranges ranges' : List (Range κ)}
    (h : MaximalRuns positions ranges) (hperm : ranges.Perm ranges') :
    MaximalRuns positions ranges' where
  nonempty range hrange := h.nonempty range (hperm.mem_iff.mpr hrange)
  filled range hrange := h.filled range (hperm.mem_iff.mpr hrange)
  maximal range hrange := h.maximal range (hperm.mem_iff.mpr hrange)
  covers p offset hmem := by
    obtain ⟨range, hrange, hcontains⟩ := h.covers p offset hmem
    exact ⟨range, hperm.mem_iff.mp hrange, hcontains⟩
  apart := by
    refine (hperm.pairwise_iff ?_).mp h.apart
    intro a b hab p offset hboth
    exact hab p offset ⟨hboth.2, hboth.1⟩

end

end SqlTide.Foundations.Islands
