import Mathlib.Data.List.Basic
import SqlTide.Foundations.Sorting

/-!
# Dictionaries from pairs

`dict(items)` for a sequence of pairs with keys that may repeat, and with it `{**first, **second}`,
which is the dictionary of the pairs of both in turn.
-/

namespace SqlTide.Foundations

open List

variable {κ ν ν' : Type*} [DecidableEq κ] {items : List (κ × ν)} {key : κ}

/-- `dict(items).get(key)`: the last pair with the key counts. -/
def dictGet (items : List (κ × ν)) (key : κ) : Option ν :=
  (items.reverse.find? (·.1 = key)).map (·.2)

/-- `dict(items).items()`, in the order in which the keys first occur. -/
def dictItems (items : List (κ × ν)) : List (κ × ν) :=
  (items.map (·.1)).eraseDups.filterMap fun key => (dictGet items key).map fun value => (key, value)

/-- `dict(first) == dict(second)`. -/
def dictEq [DecidableEq ν] (first second : List (κ × ν)) : Bool :=
  (first.map (·.1) ++ second.map (·.1)).all fun key => dictGet first key = dictGet second key

theorem dictGet_append (first second : List (κ × ν)) (key : κ) :
    dictGet (first ++ second) key = (dictGet second key).or (dictGet first key) := by
  rw [dictGet, reverse_append, find?_append, Option.map_or]
  rfl

theorem dictGet_map (f : κ → ν → ν') (items : List (κ × ν)) (key : κ) :
    dictGet (items.map fun item => (item.1, f item.1 item.2)) key =
      (dictGet items key).map (f key) := by
  rw [dictGet, dictGet, ← map_reverse, find?_map, Option.map_map, Option.map_map]
  cases hfound : items.reverse.find? (·.1 = key) with
  | none => simp [Function.comp_def, hfound]
  | some item =>
    have hkey : item.1 = key := by simpa using find?_some hfound
    simp [Function.comp_def, hfound, hkey]

theorem dictGet_eq_none : dictGet items key = none ↔ key ∉ items.map (·.1) := by
  rw [dictGet, Option.map_eq_none_iff, find?_eq_none, mem_map]
  simp only [mem_reverse, decide_eq_true_eq, not_exists, not_and]

theorem dictGet_eq_some_of_nodup (h : (items.map (·.1)).Nodup) {value : ν} :
    dictGet items key = some value ↔ (key, value) ∈ items := by
  rw [dictGet, Option.map_eq_some_iff]
  constructor
  · rintro ⟨item, hfind, rfl⟩
    have hkey : item.1 = key := by simpa using find?_some hfind
    exact hkey ▸ mem_reverse.mp (mem_of_find?_eq_some hfind)
  · intro hmem
    refine ⟨(key, value), find?_eq_some_of_unique (mem_reverse.mpr hmem) (by simp) ?_, rfl⟩
    intro item hitem hkey
    have hkey : item.1 = key := by simpa using hkey
    exact inj_on_of_nodup_map h (mem_reverse.mp hitem) hmem hkey

theorem mem_dictItems {value : ν} :
    (key, value) ∈ dictItems items ↔ dictGet items key = some value := by
  simp only [dictItems, mem_filterMap, mem_eraseDups, Option.map_eq_some_iff, Prod.mk.injEq]
  constructor
  · rintro ⟨key', -, value', hget, rfl, rfl⟩
    exact hget
  · intro hget
    refine ⟨key, ?_, value, hget, rfl, rfl⟩
    by_contra hnone
    rw [dictGet_eq_none.mpr hnone] at hget
    cases hget

theorem nodup_dictItems (items : List (κ × ν)) : (dictItems items).Nodup := by
  apply List.Nodup.filterMap _ (nodup_eraseDups _)
  intro key key' item hitem hitem'
  obtain ⟨value, -, rfl⟩ := Option.map_eq_some_iff.mp hitem
  obtain ⟨value', -, heq⟩ := Option.map_eq_some_iff.mp hitem'
  exact (congrArg Prod.fst heq).symm

theorem dictEq_iff [DecidableEq ν] {first second : List (κ × ν)} :
    dictEq first second = true ↔ ∀ key, dictGet first key = dictGet second key := by
  rw [dictEq, all_eq_true]
  simp only [mem_append, decide_eq_true_eq]
  constructor
  · intro h key
    by_cases hkey : key ∈ first.map (·.1) ∨ key ∈ second.map (·.1)
    · exact h key hkey
    · rw [not_or] at hkey
      rw [dictGet_eq_none.mpr hkey.1, dictGet_eq_none.mpr hkey.2]
  · intro h key _
    exact h key

theorem perm_dictItems [DecidableEq ν] {first second : List (κ × ν)}
    (h : dictEq first second = true) : (dictItems first).Perm (dictItems second) := by
  rw [perm_ext_iff_of_nodup (nodup_dictItems first) (nodup_dictItems second)]
  rintro ⟨key, value⟩
  rw [mem_dictItems, mem_dictItems, dictEq_iff.mp h key]

theorem map_fst_dictItems (items : List (κ × ν)) :
    (dictItems items).map (·.1) = (items.map (·.1)).eraseDups := by
  rw [dictItems, map_filterMap]
  have hkey : ∀ key ∈ (items.map (·.1)).eraseDups,
      ((dictGet items key).map fun value => (key, value)).map (·.1) = some key := by
    intro key hkey
    rw [mem_eraseDups, ← not_not (a := key ∈ _), ← dictGet_eq_none] at hkey
    obtain ⟨value, hvalue⟩ := Option.ne_none_iff_exists'.mp hkey
    rw [hvalue]
    rfl
  rw [filterMap_congr hkey, filterMap_some]

theorem mem_map_fst_dictItems : key ∈ (dictItems items).map (·.1) ↔ key ∈ items.map (·.1) := by
  rw [map_fst_dictItems, mem_eraseDups]

theorem nodup_map_fst_dictItems (items : List (κ × ν)) : ((dictItems items).map (·.1)).Nodup := by
  rw [map_fst_dictItems]
  exact nodup_eraseDups _

theorem dictGet_append_singleton (items : List (κ × ν)) (key key' : κ) (value : ν) :
    dictGet (items ++ [(key, value)]) key' = if key = key' then some value else dictGet items
      key' := by
  rw [dictGet_append]
  by_cases h : key = key'
  · simp [dictGet, h]
  · simp [dictGet, h]

theorem dictItems_append_of_not_mem (h : key ∉ items.map (·.1)) (value : ν) :
    dictItems (items ++ [(key, value)]) = dictItems items ++ [(key, value)] := by
  have hnew : ([key] : List κ).removeAll (items.map (·.1)) = [key] := by
    simpa [removeAll] using h
  have hsame : ∀ key' ∈ (items.map (·.1)).eraseDups,
      ((dictGet (items ++ [(key, value)]) key').map fun value => (key', value)) =
        (dictGet items key').map fun value => (key', value) := by
    intro key' hkey'
    have hne : key ≠ key' := by
      rintro rfl
      exact h (mem_eraseDups.mp hkey')
    rw [dictGet_append_singleton, if_neg hne]
  rw [dictItems, map_append, eraseDups_append, map_singleton, hnew,
    filterMap_append, filterMap_congr hsame]
  simp [dictItems, dictGet_append_singleton, eraseDups_cons]

theorem dictItems_append_of_mem (h : key ∈ items.map (·.1)) (value : ν) :
    dictItems (items ++ [(key, value)]) =
      (dictItems items).map fun item => if item.1 = key then (key, value) else item := by
  have hold : ([key] : List κ).removeAll (items.map (·.1)) = [] := by
    simpa [removeAll] using h
  rw [dictItems, dictItems, map_append, eraseDups_append, map_singleton, hold,
    eraseDups_nil, append_nil, map_filterMap]
  apply filterMap_congr
  intro key' hkey'
  rw [dictGet_append_singleton]
  by_cases hkey : key = key'
  · subst hkey
    rw [mem_eraseDups, ← not_not (a := key ∈ _), ← dictGet_eq_none] at hkey'
    obtain ⟨value', hvalue'⟩ := Option.ne_none_iff_exists'.mp hkey'
    simp [hvalue']
  · rw [if_neg hkey]
    cases dictGet items key' with
    | none => rfl
    | some value' => simp [Ne.symm hkey]

end SqlTide.Foundations
