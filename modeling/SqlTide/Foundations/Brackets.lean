import Mathlib.Tactic

/-!
# Bracketed lists

Some elements of a list open and close brackets. A balanced list closes what it opens, and nothing
else. A reader that wants what stands outside of all brackets counts the depth, which stays at zero
where a bracket is closed that was not opened.
-/

namespace SqlTide.Foundations

open List

inductive Bracket
  | opening
  | closing
  deriving DecidableEq, Repr

variable {α : Type*} (bracket : α → Option Bracket)

def depthAt (depth : ℕ) (a : α) : ℕ :=
  match bracket a with
  | some .opening => depth + 1
  | some .closing => depth - 1
  | none => depth

def depthAfter (depth : ℕ) (items : List α) : ℕ := items.foldl (depthAt bracket) depth

/-- The depth after a list that closes only what is open. -/
def nesting (depth : ℕ) : List α → Option ℕ
  | [] => some depth
  | a :: items =>
    if bracket a = some .closing ∧ depth = 0 then none else nesting (depthAt bracket depth a) items

def Balanced (items : List α) : Prop := nesting bracket 0 items = some 0

instance (items : List α) : Decidable (Balanced bracket items) :=
  inferInstanceAs (Decidable (_ = _))

/-- What stands outside of all brackets. -/
def outside (depth : ℕ) : List α → List α
  | [] => []
  | a :: items =>
    if depth = 0 ∧ bracket a = none then a :: outside (depthAt bracket depth a) items
    else outside (depthAt bracket depth a) items

variable {bracket} {depth : ℕ} {items before after : List α} {a : α}

@[simp] theorem depthAfter_nil : depthAfter bracket depth [] = depth := rfl

@[simp] theorem depthAfter_cons :
    depthAfter bracket depth (a :: items) = depthAfter bracket (depthAt bracket depth a)
      items := rfl

theorem depthAfter_append : depthAfter bracket depth (before ++ after) =
    depthAfter bracket (depthAfter bracket depth before) after :=
  foldl_append

theorem nesting_append : nesting bracket depth (before ++ after) =
    (nesting bracket depth before).bind (nesting bracket · after) := by
  induction before generalizing depth with
  | nil => rfl
  | cons a before ih =>
    rw [cons_append, nesting, nesting]
    split_ifs
    · rfl
    · exact ih

/-- Up to where a list closes only what is open, the depth is the one that is counted. -/
theorem nesting_left (h : nesting bracket depth (before ++ after) ≠ none) :
    nesting bracket depth before = some (depthAfter bracket depth before) := by
  induction before generalizing depth with
  | nil => rfl
  | cons a before ih =>
    rw [cons_append, nesting] at h
    rw [nesting, depthAfter_cons]
    split_ifs at h ⊢ with hclosing
    · exact absurd rfl h
    · exact ih h

theorem Balanced.depthAfter_eq (h : Balanced bracket items) : depthAfter bracket 0 items = 0 := by
  have hleft : nesting bracket 0 items = some (depthAfter bracket 0 items) :=
    nesting_left (by rw [append_nil, h]; simp)
  exact (Option.some.inj (h.symm.trans hleft)).symm

theorem Balanced.append (hbefore : Balanced bracket before) (hafter : Balanced bracket after) :
    Balanced bracket (before ++ after) := by
  rw [Balanced, nesting_append, hbefore]
  exact hafter

theorem balanced_of_none (h : ∀ a ∈ items, bracket a = none) : Balanced bracket items := by
  induction items with
  | nil => rfl
  | cons a items ih =>
    have ha := h a mem_cons_self
    rw [Balanced, nesting, if_neg (by simp [ha]), depthAt, ha]
    exact ih fun a' ha' => h a' (mem_cons_of_mem _ ha')

theorem outside_append : outside bracket depth (before ++ after) =
    outside bracket depth before ++ outside bracket (depthAfter bracket depth before) after := by
  induction before generalizing depth with
  | nil => rfl
  | cons a before ih =>
    rw [cons_append, outside, outside, depthAfter_cons, ih]
    split_ifs <;> rfl

theorem mem_outside_left (h : a ∈ outside bracket depth before) :
    a ∈ outside bracket depth (before ++ after) := by
  rw [outside_append]
  exact mem_append_left _ h

theorem mem_outside_right (hdepth : depthAfter bracket depth before = 0)
    (h : a ∈ outside bracket 0 after) : a ∈ outside bracket depth (before ++ after) := by
  rw [outside_append, hdepth]
  exact mem_append_right _ h

theorem mem_outside_append_cons (hdepth : depthAfter bracket depth before = 0)
    (ha : bracket a = none) : a ∈ outside bracket depth (before ++ a :: after) := by
  rw [outside_append, hdepth, outside, if_pos ⟨rfl, ha⟩]
  simp

theorem depthAfter_of_none (h : ∀ a ∈ items, bracket a = none) :
    depthAfter bracket depth items = depth := by
  induction items with
  | nil => rfl
  | cons a items ih =>
    rw [depthAfter_cons, depthAt, h a mem_cons_self]
    exact ih fun a' ha' => h a' (mem_cons_of_mem _ ha')

theorem outside_of_none (h : ∀ a ∈ items, bracket a = none) (hdepth : depth ≠ 0) :
    outside bracket depth items = [] := by
  induction items with
  | nil => rfl
  | cons a items ih =>
    rw [outside, if_neg fun hzero => hdepth hzero.1, depthAt, h a mem_cons_self]
    exact ih fun a' ha' => h a' (mem_cons_of_mem _ ha')

theorem mem_of_mem_outside (h : a ∈ outside bracket depth items) : a ∈ items := by
  induction items generalizing depth with
  | nil => exact absurd h not_mem_nil
  | cons first items ih =>
    rw [outside] at h
    split_ifs at h
    · rcases mem_cons.mp h with rfl | h
      · exact mem_cons_self
      · exact mem_cons_of_mem _ (ih h)
    · exact mem_cons_of_mem _ (ih h)

/-- Where a list starts over after its first element, the first element is what comes behind it. -/
theorem eq_of_shift {d : α} (h : a :: (items ++ before) = items ++ d :: after) : a = d := by
  induction items with
  | nil => exact (List.cons.inj h).1
  | cons first items ih =>
    obtain ⟨rfl, hrest⟩ := List.cons.inj h
    exact ih hrest

/-- A list is cut in one way only before its first element outside of the brackets that is taken
for a mark. -/
theorem cut_unique {mark : α → Prop} {before' after' : List α}
    (hsame : before ++ after = before' ++ after') (hmark : ∀ a, mark a → bracket a = none)
    (hbefore : ∀ a ∈ outside bracket 0 before, ¬ mark a)
    (hbefore' : ∀ a ∈ outside bracket 0 before', ¬ mark a)
    (hdepth : depthAfter bracket 0 before = 0) (hdepth' : depthAfter bracket 0 before' = 0)
    (hafter : ∀ a ∈ after.head?, mark a) (hafter' : ∀ a ∈ after'.head?, mark a) :
    before = before' ∧ after = after' := by
  rcases append_eq_append_iff.mp hsame with ⟨more, rfl, rfl⟩ | ⟨more, rfl, rfl⟩
  · cases more with
    | nil => simp
    | cons a more =>
      have ha : mark a := hafter a (by simp)
      exact absurd ha (hbefore' a (mem_outside_append_cons hdepth (hmark a ha)))
  · cases more with
    | nil => simp
    | cons a more =>
      have ha : mark a := hafter' a (by simp)
      exact absurd ha (hbefore a (mem_outside_append_cons hdepth' (hmark a ha)))

end SqlTide.Foundations
