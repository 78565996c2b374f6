import SqlTide.SqlText.Scanning

/-!
# Scans over code

The scans go over a text character by character and pass over comments and quoted text. They share
one loop, which shows every other character to a body. What the body keeps up holds at the end.
-/

namespace SqlTide.SqlText

open Foundations List

/-- `skip_non_code`: the index after the comment or quoted text that starts here, if one does. -/
def skipNonCode (sql : List Char) (index : ℕ) : ScanResult (Option ℕ) :=
  match sql.drop index with
  | [] => .ok none
  | character :: rest =>
    if isLineCommentStart (character :: rest) then .ok (some (skipLineComment sql index))
    else if isBlockCommentStart (character :: rest) then (skipBlockComment sql index).map some
    else if isQuote character then (skipQuotedText sql index character).map some
    else .ok none

/-- What the body of a scan does with a character of code. -/
inductive Visit (σ α : Type)
  | goOn (index : ℕ) (state : σ)
  | done (result : α)

/-- The loop that the scans share, up to an index: each iteration goes on by a character at
least. -/
def scanCode {σ α : Type} (sql : List Char) (stop : ℕ)
    (visit : ℕ → Char → σ → ScanResult (Visit σ α)) (atEnd : σ → ScanResult α) :
    ℕ → ℕ → σ → ScanResult α
  | 0, _, state => atEnd state
  | fuel + 1, index, state =>
    if stop ≤ index then atEnd state
    else do
      match ← skipNonCode sql index, sql[index]? with
      | some next, _ => scanCode sql stop visit atEnd fuel next state
      | none, none => atEnd state
      | none, some character =>
        match ← visit index character state with
        | .goOn index state => scanCode sql stop visit atEnd fuel index state
        | .done result => .ok result

def findMatchingParenthesis (sql : List Char) (openIndex : ℕ) (context : String) : ScanResult ℕ :=
  scanCode sql sql.length
    (fun index character depth =>
      if character = '(' then .ok (.goOn (index + 1) (depth + 1))
      else if character = ')' then
        if depth - 1 = 0 then .ok (.done index) else .ok (.goOn (index + 1) (depth - 1))
      else .ok (.goOn (index + 1) depth))
    (fun _ => .error
      (.located sql (context ++ " contains an unclosed parenthesis") openIndex sql.length))
    (sql.length - openIndex) (openIndex + 1) 1

def findNextUnquotedCharacter (sql : List Char) (target : Char) (start : ℕ) :
    ScanResult (Option ℕ) :=
  scanCode sql sql.length
    (fun index character _ =>
      if character = target then .ok (.done (some index)) else .ok (.goOn (index + 1) ()))
    (fun _ => .ok none) (sql.length - start) start ()

variable {tables : PythonTables} {sql text rest : List Char} {ls : List Lexeme}
  {index stop start next length : ℕ} {character quote : Char} {σ α : Type}

theorem Advances.rest_eq (h : Advances tables (sql.drop index) length ls rest) :
    rest = sql.drop (index + length) := by
  obtain ⟨piece, hpiece, rfl, -⟩ := h
  rw [← drop_drop, hpiece, drop_left]

theorem skipQuotedText_ok (hquote : isQuote quote = true)
    (h : skipQuotedText sql index quote = .ok next) (hindex : sql.drop index = quote :: text) :
    ∃ quoted length rest, next = index + length ∧ 0 < length ∧
      Advances tables (sql.drop index) length [.quoted quoted] rest := by
  have hdrop : sql.drop (index + 1) = text := by
    rw [← drop_drop, hindex]
    rfl
  unfold skipQuotedText at h
  rw [hdrop] at h
  cases hlength : quotedLength quote text with
  | none => simp [hlength] at h
  | some length =>
    rw [hlength] at h
    cases h
    obtain ⟨quoted, rest, hadvances⟩ := @advances_quoted tables _ _ _ hquote hlength
    exact ⟨quoted, 1 + length, rest, by omega, by omega, hindex ▸ hadvances⟩

theorem skipBlockComment_ok (h : skipBlockComment sql index = .ok next)
    (hindex : isBlockCommentStart (sql.drop index) = true) :
    ∃ comment length rest, next = index + length ∧ 0 < length ∧
      Advances tables (sql.drop index) length [.blockComment comment] rest := by
  obtain ⟨text, htext⟩ := isPrefixOf_iff_prefix.mp hindex
  have hdrop : sql.drop (index + 2) = text := by
    rw [← drop_drop, ← htext]
    rfl
  unfold skipBlockComment at h
  rw [hdrop] at h
  cases hlength : blockLength text with
  | none => simp [hlength] at h
  | some length =>
    rw [hlength] at h
    cases h
    obtain ⟨comment, rest, hadvances⟩ := @advances_blockComment tables _ _ hlength
    exact ⟨comment, 2 + length, rest, by omega, by omega, htext ▸ hadvances⟩

theorem skipLineComment_ok (hindex : isLineCommentStart (sql.drop index) = true) :
    ∃ comment length rest, skipLineComment sql index = index + length ∧ 0 < length ∧
      Advances tables (sql.drop index) length [.lineComment comment] rest := by
  have hlength : (sql.take index).length = index := by
    have hne : sql.drop index ≠ [] := by
      intro hnil
      rw [hnil] at hindex
      exact absurd hindex (by decide)
    rw [length_take, Nat.min_eq_left]
    exact (Nat.lt_of_not_le fun hle => hne (drop_of_length_le hle)).le
  obtain ⟨length, comment, rest, hskip, hpositive, hadvances⟩ :=
    @skipLineComment_advances tables _ (sql.take index) hindex
  rw [take_append_drop, hlength] at hskip
  exact ⟨comment, length, rest, hskip, hpositive, hadvances⟩

variable (tables) in
theorem skipNonCode_some (h : skipNonCode sql index = .ok (some next)) :
    ∃ l length, parenthesis l = none ∧ next = index + length ∧ 0 < length ∧ next ≤ sql.length ∧
      Advances tables (sql.drop index) length [l] (sql.drop next) := by
  suffices ∃ l length rest, parenthesis l = none ∧ next = index + length ∧ 0 < length ∧
      Advances tables (sql.drop index) length [l] rest by
    obtain ⟨l, length, rest, hl, rfl, hpositive, hadvances⟩ := this
    have hrest := hadvances.rest_eq
    have hlength := hadvances.length_eq
    rw [length_drop] at hlength
    exact ⟨l, length, hl, rfl, hpositive, by omega, hrest ▸ hadvances⟩
  unfold skipNonCode at h
  cases hindex : sql.drop index with
  | nil => simp [hindex] at h
  | cons character text =>
    rw [hindex] at h
    dsimp only at h
    rw [← hindex] at h ⊢
    split_ifs at h with hline hblock hquote
    · obtain ⟨comment, length, rest, hskip, hpositive, hadvances⟩ :=
        @skipLineComment_ok tables _ _ hline
      obtain rfl := Option.some.inj (Except.ok.inj h)
      exact ⟨_, length, rest, rfl, hskip, hpositive, hadvances⟩
    · obtain ⟨_, hskip, hnext⟩ := map_eq_ok.mp h
      cases hnext
      obtain ⟨comment, length, rest, hend, hpositive, hadvances⟩ :=
        @skipBlockComment_ok tables _ _ _ hskip hblock
      exact ⟨_, length, rest, rfl, hend, hpositive, hadvances⟩
    · obtain ⟨_, hskip, hnext⟩ := map_eq_ok.mp h
      cases hnext
      obtain ⟨quoted, length, rest, hend, hpositive, hadvances⟩ :=
        @skipQuotedText_ok tables _ _ _ _ _ hquote hskip hindex
      exact ⟨_, length, rest, rfl, hend, hpositive, hadvances⟩
    · simp at h

theorem lt_of_skipNonCode (h : skipNonCode sql index = .ok (some next)) : index < next := by
  unfold skipNonCode at h
  cases hindex : sql.drop index with
  | nil => simp [hindex] at h
  | cons character text =>
    rw [hindex] at h
    dsimp only at h
    split_ifs at h with hline hblock hquote
    · obtain rfl := Option.some.inj (Except.ok.inj h)
      have hlength := congrArg List.length hindex
      rw [length_drop, length_cons] at hlength
      unfold skipLineComment
      split <;> omega
    · obtain ⟨_, hskip, hnext⟩ := map_eq_ok.mp h
      cases hnext
      unfold skipBlockComment at hskip
      split at hskip
      · have := Except.ok.inj hskip
        omega
      · simp at hskip
    · obtain ⟨_, hskip, hnext⟩ := map_eq_ok.mp h
      cases hnext
      unfold skipQuotedText at hskip
      split at hskip
      · have := Except.ok.inj hskip
        omega
      · simp at hskip
    · simp at h

theorem skipNonCode_none (h : skipNonCode sql index = .ok none) (hindex : sql.drop index = text) :
    isLineCommentStart text = false ∧ isBlockCommentStart text = false ∧
      ∀ character ∈ text.head?, isQuote character = false := by
  subst hindex
  unfold skipNonCode at h
  cases hindex : sql.drop index with
  | nil => simp [isLineCommentStart, isBlockCommentStart]
  | cons character text =>
    rw [hindex] at h
    dsimp only at h
    split_ifs at h with hline hblock hquote
    · simp at h
    · obtain ⟨_, _, hnext⟩ := map_eq_ok.mp h
      exact absurd hnext (by simp)
    · obtain ⟨_, _, hnext⟩ := map_eq_ok.mp h
      exact absurd hnext (by simp)
    · refine ⟨by simpa using hline, by simpa using hblock, fun _ hcharacter => ?_⟩
      cases hcharacter
      simpa using hquote

/-- The scan goes on where the invariant holds, or its result is as it should be. -/
def Visit.Meets (I : ℕ → σ → Prop) (Q : α → Prop) (index : ℕ) : Visit σ α → Prop
  | .goOn next state => index < next ∧ I next state
  | .done result => Q result

variable {visit : ℕ → Char → σ → ScanResult (Visit σ α)} {atEnd : σ → ScanResult α}
  {I : ℕ → σ → Prop} {Q : α → Prop}

/-- What the pieces passed over and the body keep up holds of the result. -/
theorem scanCode_induction
    (hskip : ∀ index state next, I index state → index < stop →
      skipNonCode sql index = .ok (some next) → I next state)
    (hvisit : ∀ index state character part, I index state → index < stop →
      skipNonCode sql index = .ok none → sql[index]? = some character →
      visit index character state = .ok part → part.Meets I Q index)
    (hend : ∀ index state result, I index state → (stop ≤ index ∨ sql.length ≤ index) →
      atEnd state = .ok result → Q result)
    (fuel : ℕ) : ∀ {index : ℕ} {state : σ} {result : α}, stop ≤ index + fuel →
      I index state → scanCode sql stop visit atEnd fuel index state = .ok result →
      Q result := by
  induction fuel with
  | zero =>
    intro index state result hfuel hstate h
    exact hend index state result hstate (Or.inl hfuel) h
  | succ fuel ih =>
    intro index state result hfuel hstate h
    rw [scanCode] at h
    split_ifs at h with hstop
    · exact hend index state result hstate (Or.inl hstop) h
    · have hlt : index < stop := Nat.lt_of_not_le hstop
      obtain ⟨skipped, hskipped, h⟩ := bind_eq_ok.mp h
      cases skipped with
      | some next =>
        have hnext := hskip index state next hstate hlt hskipped
        have hprogress := lt_of_skipNonCode hskipped
        exact ih (by omega) hnext h
      | none =>
        cases hcharacter : sql[index]? with
        | none =>
          rw [hcharacter] at h
          exact hend index state result hstate (Or.inr (getElem?_eq_none_iff.mp hcharacter)) h
        | some character =>
          rw [hcharacter] at h
          obtain ⟨part, hpart, h⟩ := bind_eq_ok.mp h
          have hmeets := hvisit index state character part hstate hlt hskipped hcharacter hpart
          cases part with
          | goOn next state => exact ih (by have := hmeets.1; omega) hmeets.2 h
          | done result' => exact Except.ok.inj h ▸ hmeets

end SqlTide.SqlText
