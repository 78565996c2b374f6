import Mathlib.Data.List.Infix

/-!
# Replaced substrings

`text.replace(old, new)`: the occurrences of a nonempty text are replaced from the left. A character
that the replaced text does not have keeps what is before it apart from what is behind it.
-/

namespace SqlTide.Foundations

open List

variable {α : Type*} [DecidableEq α]

/-- The next characters may belong to an occurrence that is already replaced. -/
def replaceAllFrom (old new : List α) : ℕ → List α → List α
  | _, [] => []
  | skip + 1, _ :: rest => replaceAllFrom old new skip rest
  | 0, c :: rest =>
    if old <+: c :: rest then new ++ replaceAllFrom old new (old.length - 1) rest
    else c :: replaceAllFrom old new 0 rest

/-- `str.replace`. -/
def replaceAll (old new text : List α) : List α := replaceAllFrom old new 0 text

variable {old new text before after : List α} {separator : α}

theorem replaceAll_of_absent (h : ¬ old <:+: text) : replaceAll old new text = text := by
  induction text with
  | nil => rfl
  | cons c text ih =>
    have hstart : ¬ old <+: c :: text := fun hold => h hold.isInfix
    rw [replaceAll, replaceAllFrom, if_neg hstart]
    exact congrArg (c :: ·) (ih fun hold => h (infix_cons hold))

theorem replaceAllFrom_eq_drop (skip : ℕ) (text : List α) :
    replaceAllFrom old new skip text = replaceAll old new (text.drop skip) := by
  induction text generalizing skip with
  | nil => simp [replaceAll, replaceAllFrom]
  | cons c text ih =>
    cases skip with
    | zero => rfl
    | succ skip => exact ih skip

theorem replaceAll_append (h : old ≠ []) (after : List α) :
    replaceAll old new (old ++ after) = new ++ replaceAll old new after := by
  cases old with
  | nil => exact absurd rfl h
  | cons c old =>
    rw [cons_append, replaceAll, replaceAllFrom, if_pos ⟨after, rfl⟩, replaceAllFrom_eq_drop]
    simp

theorem replaceAll_self (h : old ≠ []) : replaceAll old new old = new := by
  have hall : replaceAll old new (old ++ []) = new ++ replaceAll old new [] :=
    replaceAll_append h []
  simpa [replaceAll, replaceAllFrom] using hall

theorem replaceAll_of_infix (new : List α) (hne : old ≠ []) (h : old <:+: text) :
    ∃ before after, text = before ++ old ++ after ∧
      replaceAll old new text = before ++ new ++ replaceAll old new after := by
  induction text with
  | nil => exact absurd (infix_nil.mp h) hne
  | cons c text ih =>
    by_cases hstart : old <+: c :: text
    · obtain ⟨after, hafter⟩ := hstart
      exact ⟨[], after, by simpa using hafter.symm, by
        rw [← hafter, replaceAll_append hne, nil_append]⟩
    · obtain ⟨before, after, htext, hreplaced⟩ :=
        ih ((infix_cons_iff.mp h).resolve_left hstart)
      refine ⟨c :: before, after, by rw [htext]; rfl, ?_⟩
      rw [replaceAll, replaceAllFrom, if_neg hstart]
      exact congrArg (c :: ·) hreplaced

omit [DecidableEq α] in
/-- An occurrence does not reach over a separator. -/
theorem prefix_append_separator (h : separator ∉ old) (before after : List α) :
    old <+: before ++ separator :: after ↔ old <+: before := by
  constructor
  · intro hold
    rcases le_or_gt old.length before.length with hle | hlt
    · exact prefix_of_prefix_length_le hold (prefix_append _ _) hle
    · have hlonger : before ++ [separator] <+: old := by
        apply prefix_of_prefix_length_le _ hold
        · rw [length_append, length_singleton]
          exact hlt
        · exact ⟨after, by simp⟩
      exact absurd (hlonger.subset (by simp)) h
  · intro hold
    exact hold.trans (prefix_append _ _)

theorem replaceAllFrom_append_separator (hne : old ≠ []) (h : separator ∉ old) (skip : ℕ)
    (hskip : skip ≤ before.length) :
    replaceAllFrom old new skip (before ++ separator :: after) =
      replaceAllFrom old new skip before ++ separator :: replaceAll old new after := by
  induction before generalizing skip with
  | nil =>
    obtain rfl : skip = 0 := by simpa using hskip
    have hstart : ¬ old <+: separator :: after := by
      have hsame := prefix_append_separator h [] after
      simpa [hne] using hsame
    simp only [nil_append, replaceAllFrom, if_neg hstart, replaceAll]
  | cons c before ih =>
    rw [cons_append]
    cases skip with
    | succ skip => exact ih skip (by simpa using hskip)
    | zero =>
      have hsame := prefix_append_separator h (c :: before) after
      rw [cons_append] at hsame
      rw [replaceAllFrom, replaceAllFrom]
      by_cases hold : old <+: c :: before
      · rw [if_pos hold, if_pos (hsame.mpr hold), append_assoc]
        have hlength := hold.length_le
        rw [ih _ (by simp only [length_cons] at hlength; omega)]
      · rw [if_neg hold, if_neg (hold ∘ hsame.mp), ih 0 (Nat.zero_le _), cons_append]

theorem replaceAll_append_separator (hne : old ≠ []) (h : separator ∉ old) :
    replaceAll old new (before ++ separator :: after) =
      replaceAll old new before ++ separator :: replaceAll old new after :=
  replaceAllFrom_append_separator hne h 0 (Nat.zero_le _)

theorem replaceAll_singleton (c : α) (new text : List α) :
    replaceAll [c] new text = text.flatMap fun d => if d = c then new else [d] := by
  induction text with
  | nil => rfl
  | cons d text ih =>
    rw [flatMap_cons, ← ih, replaceAll, replaceAllFrom]
    by_cases hd : d = c
    · subst hd
      rw [if_pos ⟨text, rfl⟩, if_pos rfl]
      rfl
    · have hstart : ¬ [c] <+: d :: text := by
        rw [singleton_prefix_cons_iff]
        exact fun h => hd h.symm
      rw [if_neg hstart, if_neg hd]
      rfl

theorem replaceAll_ne_nil (hnew : new ≠ []) (h : text ≠ []) : replaceAll old new text ≠ [] := by
  cases text with
  | nil => exact absurd rfl h
  | cons c text =>
    rw [replaceAll, replaceAllFrom]
    split_ifs
    · simp [hnew]
    · simp

end SqlTide.Foundations
