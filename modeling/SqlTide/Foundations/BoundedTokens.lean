import Mathlib.Data.List.Infix
import Mathlib.Tactic

/-!
# Replacing bounded tokens

A token is replaced wherever it occurs and is no part of a longer word. The text is searched from
the left, each occurrence from where the one before it has ended.
-/

namespace SqlTide.Foundations.BoundedTokens

open List

variable {α : Type*}

/-- The last symbol before the end of a text. -/
def lastOf (before : Option α) (text : List α) : Option α := text.getLast?.or before

@[simp] theorem lastOf_nil (before : Option α) : lastOf before [] = before := rfl

theorem lastOf_append (before : Option α) (text text' : List α) :
    lastOf before (text ++ text') = lastOf (lastOf before text) text' := by
  simp [lastOf, getLast?_append, Option.or_assoc]

variable (inWord : α → Bool)

/-- What begins between these symbols is no part of a longer word. -/
def bounded (before after : Option α) : Bool :=
  before.all (fun symbol => !inWord symbol) && after.all (fun symbol => !inWord symbol)

variable [DecidableEq α] (token replacement : List α)

/-- Where a token first occurs. -/
def find (token : List α) : List α → Option ℕ
  | [] => if token = [] then some 0 else none
  | symbol :: rest =>
    if token.isPrefixOf (symbol :: rest) then some 0 else (find token rest).map (· + 1)

/-- The loop of the search: each iteration goes on by a token. -/
def replaceLoop : ℕ → Option α → List α → List α
  | 0, _, rest => rest
  | fuel + 1, before, rest =>
    match find token rest with
    | none => rest
    | some offset =>
      let after := rest.drop (offset + token.length)
      let between := rest.take offset
      between ++
        (if bounded inWord (lastOf before between) after.head? then replacement else token) ++
        replaceLoop fuel (lastOf before (between ++ token)) after

/-- The text after a symbol, with the token replaced. -/
def replaceFrom (before : Option α) (text : List α) : List α :=
  replaceLoop inWord token replacement text.length before text

variable {inWord token replacement} {text rest piece : List α} {before : Option α} {symbol : α}

theorem find_of_prefix (h : token <+: text) : find token text = some 0 := by
  cases text with
  | nil =>
    have hnil : token = [] := prefix_nil.mp h
    simp [find, hnil]
  | cons symbol text => simp [find, isPrefixOf_iff_prefix.mpr h]

theorem find_of_not_prefix (h : ¬ token <+: symbol :: text) :
    find token (symbol :: text) = (find token text).map (· + 1) := by
  have hprefix : token.isPrefixOf (symbol :: text) = false := by
    rw [← Bool.not_eq_true]
    exact fun htrue => h <| isPrefixOf_iff_prefix.mp htrue
  simp [find, hprefix]

theorem replaceLoop_fuel (hne : token ≠ []) (fuel : ℕ) : ∀ (fuel' : ℕ) (before : Option α)
    (text : List α), text.length ≤ fuel → text.length ≤ fuel' →
    replaceLoop inWord token replacement fuel before text =
      replaceLoop inWord token replacement fuel' before text := by
  induction fuel with
  | zero =>
    intro fuel' before text hfuel _
    obtain rfl := eq_nil_of_length_eq_zero (Nat.le_zero.mp hfuel)
    cases fuel' with
    | zero => rfl
    | succ fuel' => simp [replaceLoop, find, hne]
  | succ fuel ih =>
    intro fuel' before text hfuel hfuel'
    cases fuel' with
    | zero =>
      obtain rfl := eq_nil_of_length_eq_zero (Nat.le_zero.mp hfuel')
      simp [replaceLoop, find, hne]
    | succ fuel' =>
      rw [replaceLoop, replaceLoop]
      cases find token text with
      | none => rfl
      | some offset =>
        have hpositive := length_pos_of_ne_nil hne
        have hlength : (text.drop (offset + token.length)).length ≤ text.length - 1 := by
          rw [length_drop]
          omega
        dsimp only
        rw [ih fuel' _ _ (by omega) (by omega)]

theorem replaceFrom_cons (hne : token ≠ []) (h : ¬ token <+: symbol :: text) :
    replaceFrom inWord token replacement before (symbol :: text) =
      symbol :: replaceFrom inWord token replacement (some symbol) text := by
  have hfuel : replaceLoop inWord token replacement text.length (some symbol) text =
      replaceLoop inWord token replacement (text.length + 1) (some symbol) text :=
    replaceLoop_fuel hne _ _ _ _ le_rfl (Nat.le_succ _)
  unfold replaceFrom
  rw [hfuel, length_cons, replaceLoop, replaceLoop, find_of_not_prefix h]
  cases find token text with
  | none => rfl
  | some offset =>
    have hdrop : (symbol :: text).drop (offset + 1 + token.length) =
        text.drop (offset + token.length) := by
      rw [Nat.add_right_comm, drop_succ_cons]
    have hlast : ∀ more : List α, lastOf before (symbol :: more) = lastOf (some symbol) more := by
      intro more
      rw [← singleton_append, lastOf_append]
      rfl
    simp only [Option.map_some, take_succ_cons, hdrop, cons_append, hlast]

theorem replaceFrom_token (hne : token ≠ []) :
    replaceFrom inWord token replacement before (token ++ rest) =
      (if bounded inWord before rest.head? then replacement else token) ++
        replaceFrom inWord token replacement (lastOf before token) rest := by
  obtain ⟨fuel, hlength⟩ : ∃ fuel, (token ++ rest).length = fuel + 1 := by
    have := length_pos_of_ne_nil hne
    exact ⟨(token ++ rest).length - 1, by simp; omega⟩
  have hrest : rest.length ≤ fuel := by
    have := length_pos_of_ne_nil hne
    rw [length_append] at hlength
    omega
  unfold replaceFrom
  rw [hlength, replaceLoop, find_of_prefix (prefix_append token rest)]
  simp only [Nat.zero_add, drop_left, take_zero, nil_append, lastOf_nil]
  rw [replaceLoop_fuel hne fuel rest.length _ _ hrest le_rfl]

/-- A token that occurs in a piece ends in it, and it is part of a longer word. -/
def Harmless (inWord : α → Bool) (token : List α) (before : Option α)
    (piece rest : List α) : Prop :=
  ∀ left right, piece = left ++ right → right ≠ [] → token <+: right ++ rest →
    ∃ after, right = token ++ after ∧ bounded inWord (lastOf before left)
    (after ++ rest).head? = false

omit [DecidableEq α] in
theorem Harmless.of_none (h : ∀ left right, piece = left ++ right → right ≠ [] →
    ¬ token <+: right ++ rest) : Harmless inWord token before piece rest :=
  fun left right hpiece hright htoken => absurd htoken (h left right hpiece hright)

omit [DecidableEq α] in
theorem Harmless.drop {left : List α} (h : Harmless inWord token before (left ++ piece) rest) :
    Harmless inWord token (lastOf before left) piece rest := by
  intro left' right hpiece hright htoken
  rw [← lastOf_append]
  exact h (left ++ left') right (by rw [hpiece, append_assoc]) hright htoken

theorem replaceFrom_harmless (hne : token ≠ []) (n : ℕ) : ∀ {before : Option α} {piece : List α},
    piece.length ≤ n → Harmless inWord token before piece rest →
    replaceFrom inWord token replacement before (piece ++ rest) =
      piece ++ replaceFrom inWord token replacement (lastOf before piece) rest := by
  induction n with
  | zero =>
    intro before piece hlength _
    obtain rfl := eq_nil_of_length_eq_zero (Nat.le_zero.mp hlength)
    rfl
  | succ n ih =>
    intro before piece hlength h
    cases piece with
    | nil => rfl
    | cons symbol piece =>
      by_cases htoken : token <+: (symbol :: piece) ++ rest
      · obtain ⟨after, hafter, hbounded⟩ := h [] (symbol :: piece) rfl (by simp) htoken
        rw [hafter] at h hlength ⊢
        have hpositive := length_pos_of_ne_nil hne
        rw [length_append] at hlength
        rw [lastOf_nil] at hbounded
        rw [append_assoc, replaceFrom_token hne, hbounded, ih (by omega) h.drop]
        simp [lastOf_append]
      · have hsplit : Harmless inWord token before ([symbol] ++ piece) rest := h
        have hdrop : Harmless inWord token (some symbol) piece rest := hsplit.drop
        have hlast : lastOf before (symbol :: piece) = lastOf (some symbol) piece := by
          rw [← singleton_append, lastOf_append]
          rfl
        have hcons : ¬ token <+: symbol :: (piece ++ rest) := htoken
        rw [cons_append, replaceFrom_cons hne hcons, ih (by simpa using hlength) hdrop, hlast]
        rfl

end SqlTide.Foundations.BoundedTokens
