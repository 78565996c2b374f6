import Mathlib.Data.List.Basic
import Mathlib.Data.List.Nodup

/-!
# Tables with a primary key

The rows of a table in the order of their insertion, no two of them with the same key. A row with a
key that is taken is not inserted, a change of the rows leaves their keys as they are.
-/

namespace SqlTide.Foundations

open List

structure KeyedTable (κ ρ : Type*) (key : ρ → κ) where
  rows : List ρ
  nodup : (rows.map key).Nodup

namespace KeyedTable

variable {κ ρ : Type*} {key : ρ → κ}

def empty : KeyedTable κ ρ key := ⟨[], nodup_nil⟩

/-- The rows that a DELETE does not match. -/
def filter (table : KeyedTable κ ρ key) (keep : ρ → Bool) : KeyedTable κ ρ key :=
  ⟨table.rows.filter keep, table.nodup.sublist (filter_sublist.map key)⟩

/-- An UPDATE, with the rows that it does not match among its values. -/
def modify (table : KeyedTable κ ρ key) (change : ρ → ρ)
    (hkey : ∀ row, key (change row) = key row) :
    KeyedTable κ ρ key :=
  ⟨table.rows.map change, by simpa [Function.comp_def, hkey] using table.nodup⟩

variable [DecidableEq κ] {table : KeyedTable κ ρ key} {row : ρ} {k : κ}

def find (table : KeyedTable κ ρ key) (k : κ) : Option ρ := table.rows.find? (key · = k)

/-- An INSERT of a row with a new key. -/
def insert (table : KeyedTable κ ρ key) (row : ρ) : KeyedTable κ ρ key :=
  if h : key row ∈ table.rows.map key then table
  else ⟨table.rows ++ [row], by
    rw [map_append, map_singleton]
    exact table.nodup.append (nodup_singleton _) (by simpa using h)⟩

theorem mem_rows : row ∈ table.rows ↔ table.find (key row) = some row := by
  refine ⟨fun h => ?_, mem_of_find?_eq_some⟩
  cases hfind : table.find (key row) with
  | none => simpa using find?_eq_none.mp hfind row h
  | some other =>
    have hkey : key other = key row := by simpa using find?_some hfind
    rw [inj_on_of_nodup_map table.nodup (mem_of_find?_eq_some hfind) h hkey]

theorem key_of_find (h : table.find k = some row) : key row = k := by
  simpa using find?_some h

theorem mem_of_find (h : table.find k = some row) : row ∈ table.rows := mem_of_find?_eq_some h

theorem find_eq_some : table.find k = some row ↔ row ∈ table.rows ∧ key row = k := by
  refine ⟨fun h => ⟨mem_of_find h, key_of_find h⟩, ?_⟩
  rintro ⟨hrow, rfl⟩
  exact mem_rows.mp hrow

theorem find_eq_none : table.find k = none ↔ ∀ row ∈ table.rows, key row ≠ k := by
  simp [find]

theorem find_modify {change : ρ → ρ} (hkey : ∀ row, key (change row) = key row) :
    (table.modify change hkey).find k = (table.find k).map change := by
  simp only [find, modify, find?_map]
  simp [Function.comp_def, hkey]

theorem find_insert (h : table.find (key row) = none) :
    (table.insert row).find k = if key row = k then some row else table.find k := by
  have hnew : key row ∉ table.rows.map key := by
    simpa using find_eq_none.mp h
  rw [insert, dif_neg hnew]
  simp only [find] at h ⊢
  rw [find?_append]
  split_ifs with hk
  · rw [← hk, h]
    simp
  · simp [hk]

theorem find_insert_of_ne (h : key row ≠ k) : (table.insert row).find k = table.find k := by
  unfold insert
  split_ifs
  · rfl
  · simp only [find]
    rw [find?_append]
    simp [h]

theorem find_insert_of_some {row' : ρ} (h : table.find k = some row') :
    (table.insert row).find k = some row' := by
  unfold insert
  split_ifs
  · exact h
  · simp only [find] at h ⊢
    rw [find?_append, h]
    rfl

theorem find_filter {keep : ρ → Bool} :
    (table.filter keep).find k = (table.find k).filter keep := by
  cases hfind : table.find k with
  | none =>
    rw [Option.filter_none, find_eq_none]
    intro row hrow
    exact find_eq_none.mp hfind row (mem_of_mem_filter hrow)
  | some row =>
    obtain ⟨hrow, rfl⟩ := find_eq_some.mp hfind
    cases hkeep : keep row with
    | true =>
      rw [Option.filter_some, if_pos hkeep, find_eq_some]
      exact ⟨mem_filter.mpr ⟨hrow, hkeep⟩, rfl⟩
    | false =>
      rw [Option.filter_some, if_neg (by simp [hkeep]), find_eq_none]
      intro other hother hkey
      obtain ⟨hother, hkept⟩ := mem_filter.mp hother
      rw [inj_on_of_nodup_map table.nodup hother hrow hkey, hkeep] at hkept
      exact absurd hkept (by simp)

end KeyedTable

end SqlTide.Foundations
