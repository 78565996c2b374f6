import SqlTide.SqlText.Names

/-!
# The delimiter of a statement

The last character of a statement that is neither white space nor in a comment is taken away where
it is a semicolon.
-/

namespace SqlTide.SqlText

open Foundations List

/-- The loop of `normalized_statement_sql`: each iteration goes on by a character at least. -/
def lastSignificantLoop (sql : List Char) : ℕ → ℕ → Option ℕ → ScanResult (Option ℕ)
  | 0, _, lastSignificant => .ok lastSignificant
  | fuel + 1, index, lastSignificant =>
    match sql.drop index with
    | [] => .ok lastSignificant
    | character :: rest =>
      if isLineCommentStart (character :: rest) then
        lastSignificantLoop sql fuel (skipLineComment sql index) lastSignificant
      else if isBlockCommentStart (character :: rest) then do
        let index ← skipBlockComment sql index
        lastSignificantLoop sql fuel index lastSignificant
      else if isQuote character then do
        let index ← skipQuotedText sql index character
        lastSignificantLoop sql fuel index (some (index - 1))
      else
        lastSignificantLoop sql fuel (index + 1)
          (if pythonIsspace character then lastSignificant else some index)

def normalizedStatementSql (sql : List Char) : ScanResult (List Char) := do
  match ← lastSignificantLoop sql sql.length 0 none with
  | some delimiter =>
    if sql[delimiter]? = some ';' then .ok (sql.take delimiter ++ sql.drop (delimiter + 1))
    else .ok sql
  | none => .ok sql

/-- White space and comments. -/
def Trivia (tables : PythonTables) (text rest : List Char) : Prop :=
  ∃ comments, Reads tables text comments rest ∧ ∀ l ∈ comments, l.isComment = true

/-- The text, or the text without a semicolon that only white space and comments follow. -/
def NormalForm (tables : PythonTables) (sql normalized : List Char) : Prop :=
  normalized = sql ∨ ∃ before after, sql = before ++ ';' :: after ∧ normalized = before ++ after ∧
    Trivia tables after []

variable {tables : PythonTables} {sql text piece rest normalized : List Char}
  {index fuel : ℕ} {lastSignificant : Option ℕ}

theorem Trivia.nil : Trivia tables [] rest := ⟨[], Reads.nil, by simp⟩

theorem Trivia.append (h : Trivia tables text (piece ++ rest)) (h' : Trivia tables piece rest) :
    Trivia tables (text ++ piece) rest := by
  obtain ⟨comments, hreads, hcomments⟩ := h
  obtain ⟨comments', hreads', hcomments'⟩ := h'
  refine ⟨comments ++ comments', hreads.append hreads', fun l hl => ?_⟩
  rcases mem_append.mp hl with hl | hl
  · exact hcomments l hl
  · exact hcomments' l hl

theorem trivia_of_isspace {character : Char} (h : pythonIsspace character = true) :
    Trivia tables [character] rest := by
  have hstart : startLexeme tables character = ([], .code) := by simp [startLexeme, h]
  obtain ⟨piece, hpiece, hlength, hreads⟩ : Advances tables (character :: rest) 1 [] rest :=
    advances_character hstart
  obtain ⟨only, rfl⟩ := length_eq_one_iff.mp hlength
  obtain ⟨rfl, -⟩ := List.cons.inj hpiece
  exact ⟨[], hreads, by simp⟩

/-- After the last significant character, up to an index, there is only trivia. -/
def SignificantUpTo (tables : PythonTables) (sql : List Char) (index : ℕ)
    (lastSignificant : Option ℕ) : Prop :=
  index ≤ sql.length ∧ ∀ delimiter ∈ lastSignificant, delimiter + 1 ≤ index ∧
    Trivia tables ((sql.take index).drop (delimiter + 1)) (sql.drop index)

theorem SignificantUpTo.grow (h : SignificantUpTo tables sql index lastSignificant)
    (hpiece : sql.drop index = piece ++ rest) (htrivia : Trivia tables piece rest) :
    SignificantUpTo tables sql (index + piece.length) lastSignificant := by
  obtain ⟨hstop, htail⟩ := h
  have hlength := congrArg List.length hpiece
  rw [length_drop, length_append] at hlength
  have hrest : sql.drop (index + piece.length) = rest := by
    rw [← drop_drop, hpiece, drop_left]
  refine ⟨by omega, fun delimiter hdelimiter => ?_⟩
  obtain ⟨hle, htrivia'⟩ := htail delimiter hdelimiter
  rw [range_append hle hstop hpiece, hrest]
  rw [hpiece] at htrivia'
  exact ⟨by omega, htrivia'.append htrivia⟩

theorem significantUpTo_last (hstop : index + 1 ≤ sql.length) :
    SignificantUpTo tables sql (index + 1) (some index) := by
  refine ⟨hstop, fun delimiter hdelimiter => ?_⟩
  cases hdelimiter
  have hempty : (sql.take (index + 1)).drop (index + 1) = [] := drop_of_length_le (by simp)
  rw [hempty]
  exact ⟨le_rfl, Trivia.nil⟩

theorem lastSignificantLoop_ok (fuel : ℕ) : ∀ {index : ℕ} {lastSignificant result : Option ℕ},
    sql.length ≤ index + fuel → SignificantUpTo tables sql index lastSignificant →
    lastSignificantLoop sql fuel index lastSignificant = .ok result →
    SignificantUpTo tables sql sql.length result := by
  induction fuel with
  | zero =>
    intro index lastSignificant result hfuel h hloop
    cases hloop
    have hindex : index = sql.length := by
      have := h.1
      omega
    exact hindex ▸ h
  | succ fuel ih =>
    intro index lastSignificant result hfuel h hloop
    rw [lastSignificantLoop] at hloop
    cases htext : sql.drop index with
    | nil =>
      rw [htext] at hloop
      cases hloop
      have hindex : index = sql.length := by
        have := h.1
        have := drop_eq_nil_iff.mp htext
        omega
      exact hindex ▸ h
    | cons character text =>
      rw [htext] at hloop
      dsimp only at hloop
      rw [← htext] at hloop
      have hlength := congrArg List.length htext
      rw [length_drop, length_cons] at hlength
      split_ifs at hloop with hline hblock hquote hspace
      · obtain ⟨comment, length, rest, hskip, hpositive, piece, hpiece, rfl, hreads⟩ :=
          @skipLineComment_ok tables _ _ hline
        rw [hskip] at hloop
        exact ih (by omega) (h.grow hpiece ⟨_, hreads, by simp [Lexeme.isComment]⟩) hloop
      · obtain ⟨next, hskip, hloop⟩ := bind_eq_ok.mp hloop
        obtain ⟨comment, length, rest, rfl, hpositive, piece, hpiece, rfl, hreads⟩ :=
          @skipBlockComment_ok tables _ _ _ hskip hblock
        exact ih (by omega) (h.grow hpiece ⟨_, hreads, by simp [Lexeme.isComment]⟩) hloop
      · obtain ⟨next, hskip, hloop⟩ := bind_eq_ok.mp hloop
        obtain ⟨quoted, length, rest, rfl, hpositive, hadvances⟩ :=
          @skipQuotedText_ok tables _ _ _ _ _ hquote hskip htext
        have hstop := hadvances.length_eq
        rw [length_drop] at hstop
        obtain ⟨last, hlast⟩ : ∃ last, index + length = last + 1 := ⟨index + length - 1, by omega⟩
        rw [hlast] at hloop
        exact ih (by omega) (significantUpTo_last (by omega)) hloop
      · have hgrow : SignificantUpTo tables sql (index + 1) lastSignificant :=
          h.grow htext (trivia_of_isspace hspace)
        exact ih (by omega) hgrow hloop
      · exact ih (by omega) (significantUpTo_last (by omega)) hloop

/-- At most the terminal delimiter is taken away. -/
theorem normalizedStatementSql_ok (h : normalizedStatementSql sql = .ok normalized) :
    NormalForm tables sql normalized := by
  obtain ⟨lastSignificant, hloop, h⟩ := bind_eq_ok.mp h
  have hstart : SignificantUpTo tables sql 0 none := ⟨Nat.zero_le _, by simp⟩
  obtain ⟨-, htail⟩ := lastSignificantLoop_ok sql.length (by omega) hstart hloop
  cases lastSignificant with
  | none => exact Or.inl (Except.ok.inj h).symm
  | some delimiter =>
    dsimp only at h
    split_ifs at h with hdelimiter
    · cases h
      obtain ⟨-, htrivia⟩ := htail delimiter rfl
      rw [take_length, drop_length] at htrivia
      refine Or.inr ⟨sql.take delimiter, sql.drop (delimiter + 1), ?_, rfl, htrivia⟩
      rw [← drop_eq_cons hdelimiter, take_append_drop]
    · exact Or.inl (Except.ok.inj h).symm

theorem exists_lastSignificantLoop (hclosed : lexemes tables sql ≠ none) (fuel : ℕ) :
    ∀ {index : ℕ} (lastSignificant : Option ℕ), CodeRead tables sql 0 index →
      ∃ result, lastSignificantLoop sql fuel index lastSignificant = .ok result := by
  induction fuel with
  | zero => exact fun lastSignificant _ => ⟨lastSignificant, rfl⟩
  | succ fuel ih =>
    intro index lastSignificant h
    have hrest : lexemes tables (sql.drop index) ≠ none := by
      have hcode := h.code
      rw [drop_zero] at hcode
      exact hcode.lexemes_rest (by rwa [take_append_drop])
    have hlength : (sql.take index).length = index := by
      rw [length_take, Nat.min_eq_left h.stop]
    rw [lastSignificantLoop]
    cases htext : sql.drop index with
    | nil => exact ⟨lastSignificant, rfl⟩
    | cons character text =>
      dsimp only
      have hcharacter : sql[index]? = some character := by
        rw [← head?_drop, htext]
        rfl
      rw [htext] at hrest
      have hvisit : isLineCommentStart (character :: text) ≠ true →
          isBlockCommentStart (character :: text) ≠ true → isQuote character ≠ true →
          CodeRead tables sql 0 (index + 1) := by
        intro hline hblock hquote
        refine h.visit (codeStart_of_skipNonCode ?_) hcharacter
        rw [skipNonCode, htext]
        dsimp only
        rw [if_neg hline, if_neg hblock, if_neg hquote]
      split_ifs with hline hblock hquote
      · refine ih lastSignificant (h.skip ?_)
        rw [skipNonCode, htext]
        exact if_pos hline
      · obtain ⟨length, comment, rest, hskip, -, -⟩ :=
          @skipBlockComment_advances tables _ (sql.take index) hblock hrest
        rw [← htext, take_append_drop, hlength] at hskip
        have hskipped : skipNonCode sql index = .ok (some (index + length)) := by
          rw [skipNonCode, htext]
          dsimp only
          rw [if_neg hline, if_pos hblock, hskip]
          rfl
        obtain ⟨result, hresult⟩ := ih lastSignificant (h.skip hskipped)
        rw [hskip]
        exact ⟨result, hresult⟩
      · obtain ⟨length, quoted, rest, hskip, -, -⟩ :=
          @skipQuotedText_advances tables _ (sql.take index) _ hquote hrest
        rw [← htext, take_append_drop, hlength] at hskip
        have hskipped : skipNonCode sql index = .ok (some (index + length)) := by
          rw [skipNonCode, htext]
          dsimp only
          rw [if_neg hline, if_neg hblock, if_pos hquote, hskip]
          rfl
        obtain ⟨result, hresult⟩ := ih (some (index + length - 1)) (h.skip hskipped)
        rw [hskip]
        exact ⟨result, hresult⟩
      · exact ih _ (hvisit hline hblock hquote)
      · exact ih _ (hvisit hline hblock hquote)

theorem exists_normalizedStatementSql (hclosed : lexemes tables sql ≠ none) :
    ∃ normalized, normalizedStatementSql sql = .ok normalized := by
  obtain ⟨lastSignificant, hloop⟩ :=
    exists_lastSignificantLoop hclosed sql.length none (CodeRead.refl (Nat.zero_le _))
  unfold normalizedStatementSql
  rw [hloop]
  cases lastSignificant with
  | none => exact ⟨sql, rfl⟩
  | some delimiter =>
    by_cases hdelimiter : sql[delimiter]? = some ';'
    · exact ⟨_, if_pos hdelimiter⟩
    · exact ⟨_, if_neg hdelimiter⟩

end SqlTide.SqlText
