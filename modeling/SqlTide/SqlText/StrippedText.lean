import SqlTide.SqlText.Scanning

/-!
# Stripped texts

What is left of a text when the white space around it is stripped reads the same, unless the text
ends with a line comment: its line break is gone, and the comment takes in what is put behind it.
-/

namespace SqlTide.SqlText

open Foundations List Transducer

/-- What comes after the first line break. -/
def afterLine (text : List Char) : List Char := (text.dropWhile (· ≠ '\n')).drop 1

variable {tables : PythonTables} {text rest before after : List Char} {ls : List Lexeme}
  {mode : Mode}

/-- A line break ends everything that can end. -/
theorem endsBefore_newline (hclosed : mode.closed = true)
    (hmode : ∀ quote ∈ mode.delimiter, isQuote quote = true) :
    mode.EndsBefore tables ('\n' :: rest) := by
  cases hline : mode.isLine with
  | false =>
    exact endsBefore_of_separator hclosed hline hmode
      (not_isIdentifierCharacter_of_isspace (by decide)) rfl (by decide) (by decide)
  | true =>
    cases mode with
    | line text =>
      refine ⟨rfl, fun character hcharacter => ?_⟩
      cases hcharacter
      rfl
    | code | word | number | quoted | escaped | closing | dash | slash | block | star =>
      exact absurd hline (by simp [Mode.isLine])

variable {space : List Char} {c : Char}

section

variable (h : ∀ c ∈ space, pythonIsspace c = true)

include h

theorem run_isspace : (lexer tables).run .code space = ([], .code) := by
  induction space with
  | nil => rfl
  | cons c space ih =>
    have hstart : startLexeme tables c = ([], .code) := by
      simp [startLexeme, h c mem_cons_self]
    rw [run_cons, lexer_step, readCharacter, hstart, ih fun c' hc => h c' (mem_cons_of_mem _ hc)]
    rfl

theorem closed_of_run_isspace (hmode : ∀ quote ∈ mode.delimiter, isQuote quote = true)
    (hclosed : ((lexer tables).run mode space).2.closed = true) : mode.closed = true := by
  induction space generalizing mode with
  | nil => exact hclosed
  | cons c space ih =>
    have hspace := h c mem_cons_self
    have hrest :=
      @ih (readCharacter tables mode c).2 (fun c' hc => h c' (mem_cons_of_mem _ hc))
      (fun quote => delimiter_readCharacter hmode) hclosed
    cases mode with
    | code | word | number | closing | dash | slash | line => rfl
    | quoted quote text =>
      have hother : c ≠ quote := by
        rintro rfl
        have hquote := hmode c rfl
        rw [not_isQuote_of_isspace hspace] at hquote
        exact absurd hquote (by simp)
      have hescape : c ≠ '\\' := by
        rintro rfl
        exact absurd hspace (by decide)
      simp [readCharacter, hother, hescape, Mode.closed] at hrest
    | escaped quote text => simp [readCharacter, Mode.closed] at hrest
    | block text =>
      have hstar : c ≠ '*' := by
        rintro rfl
        exact absurd hspace (by decide)
      simp [readCharacter, hstar, Mode.closed] at hrest
    | star text =>
      have hstar : c ≠ '*' := by
        rintro rfl
        exact absurd hspace (by decide)
      have hslash : c ≠ '/' := by
        rintro rfl
        exact absurd hspace (by decide)
      simp [readCharacter, hstar, hslash, Mode.closed] at hrest

/-- White space adds nothing to what has been read, unless it is part of a line comment. -/
theorem flush_run_isspace (hmode : ∀ quote ∈ mode.delimiter, isQuote quote = true)
    (hclosed : mode.closed = true) (hline : mode.isLine = false) :
    ((lexer tables).run mode space).1 ++ ((lexer tables).run mode space).2.flush = mode.flush := by
  cases space with
  | nil => simp
  | cons c space =>
    have hspace := h c mem_cons_self
    have hends : mode.EndsBefore tables (c :: space) := by
      apply endsBefore_of_separator hclosed hline hmode
        (not_isIdentifierCharacter_of_isspace hspace) (not_isQuote_of_isspace hspace)
      · rintro rfl
        exact absurd hspace (by decide)
      · rintro rfl
        exact absurd hspace (by decide)
    rw [run_of_endsBefore hends, run_isspace h]
    simp [Mode.flush]

/-- At the end of a line comment white space only goes on with it. -/
theorem flush_run_line (text : List Char) :
    ∃ comment, ((lexer tables).run (.line text) space).1 ++
      ((lexer tables).run (.line text) space).2.flush = [.lineComment comment] := by
  induction space generalizing text with
  | nil => exact ⟨text, rfl⟩
  | cons c space ih =>
    have hrest := fun c' hc => h c' (mem_cons_of_mem _ hc)
    by_cases hbreak : c = '\n'
    · refine ⟨text, ?_⟩
      rw [run_cons, lexer_step, readCharacter, if_pos hbreak, run_isspace hrest]
      rfl
    · obtain ⟨comment, hcomment⟩ := ih hrest (text ++ [c])
      refine ⟨comment, ?_⟩
      rw [run_cons, lexer_step, readCharacter, if_neg hbreak]
      exact hcomment

end

/-- The last of the lexemes is no line comment. -/
def EndsPlain (ls : List Lexeme) : Prop := ∃ l, ls.getLast? = some l ∧ l.isLineComment = false

theorem EndsPlain.append (h : EndsPlain ls) (before : List Lexeme) : EndsPlain (before ++ ls) := by
  obtain ⟨l, hlast, hplain⟩ := h
  exact ⟨l, by rw [getLast?_append, hlast, Option.some_or], hplain⟩

theorem endsPlain_startLexeme (hspace : pythonIsspace c = false)
    (hclosed : (startLexeme tables c).2.closed = true)
    (hline : (startLexeme tables c).2.isLine = false) :
    EndsPlain ((startLexeme tables c).1 ++ (startLexeme tables c).2.flush) := by
  unfold startLexeme at hclosed hline ⊢
  split_ifs at hclosed hline ⊢ with hspace' hhash hdash hslash hquote hstart hidentifier
  · rw [hspace] at hspace'
    cases hspace'
  · cases hline
  · exact ⟨_, rfl, rfl⟩
  · exact ⟨_, rfl, rfl⟩
  · cases hclosed
  · exact ⟨_, rfl, rfl⟩
  · exact ⟨_, rfl, rfl⟩
  · exact ⟨_, rfl, rfl⟩

theorem endsPlain_endLexeme (hspace : pythonIsspace c = false)
    (hclosed : (endLexeme tables mode c).2.closed = true)
    (hline : (endLexeme tables mode c).2.isLine = false) :
    EndsPlain ((endLexeme tables mode c).1 ++ (endLexeme tables mode c).2.flush) := by
  rw [endLexeme, append_assoc]
  exact (endsPlain_startLexeme hspace hclosed hline).append _

/-- A character that is no white space is part of a lexeme. -/
theorem endsPlain_readCharacter (hspace : pythonIsspace c = false)
    (hclosed : (readCharacter tables mode c).2.closed = true)
    (hline : (readCharacter tables mode c).2.isLine = false) :
    EndsPlain ((readCharacter tables mode c).1 ++ (readCharacter tables mode c).2.flush) := by
  cases mode with
  | code => exact endsPlain_startLexeme hspace hclosed hline
  | word text =>
    rw [readCharacter] at hclosed hline ⊢
    split_ifs at hclosed hline ⊢
    · exact ⟨_, rfl, rfl⟩
    · exact endsPlain_endLexeme hspace hclosed hline
  | number text =>
    rw [readCharacter] at hclosed hline ⊢
    split_ifs at hclosed hline ⊢
    · exact ⟨_, rfl, rfl⟩
    · exact endsPlain_endLexeme hspace hclosed hline
  | quoted quote text =>
    rw [readCharacter] at hclosed hline ⊢
    split_ifs at hclosed hline ⊢
    · cases hclosed
    · exact ⟨_, rfl, rfl⟩
    · cases hclosed
  | escaped quote text => cases hclosed
  | closing quote text =>
    rw [readCharacter] at hclosed hline ⊢
    split_ifs at hclosed hline ⊢
    · cases hclosed
    · exact endsPlain_endLexeme hspace hclosed hline
  | dash =>
    rw [readCharacter] at hclosed hline ⊢
    split_ifs at hclosed hline ⊢
    · cases hline
    · exact endsPlain_endLexeme hspace hclosed hline
  | slash =>
    rw [readCharacter] at hclosed hline ⊢
    split_ifs at hclosed hline ⊢
    · cases hclosed
    · exact endsPlain_endLexeme hspace hclosed hline
  | line text =>
    rw [readCharacter] at hclosed hline ⊢
    split_ifs at hclosed hline ⊢ with hbreak
    · subst hbreak
      exact absurd hspace (by decide)
    · cases hline
  | block text =>
    rw [readCharacter] at hclosed hline ⊢
    split_ifs at hclosed hline ⊢
    · cases hclosed
    · cases hclosed
  | star text =>
    rw [readCharacter] at hclosed hline ⊢
    split_ifs at hclosed hline ⊢
    · exact ⟨_, rfl, rfl⟩
    · cases hclosed
    · cases hclosed

/-- A text that does not end in white space ends with a line comment only if it ends inside it. -/
theorem endsPlain_of_not_isspace (hlast : ∀ c ∈ text.getLast?, pythonIsspace c = false)
    (hclosed : ((lexer tables).run .code text).2.closed = true)
    (hline : ((lexer tables).run .code text).2.isLine = false) :
    ∀ l ∈ (((lexer tables).run .code text).1 ++
      ((lexer tables).run .code text).2.flush).getLast?, l.isLineComment = false := by
  rcases eq_nil_or_concat' text with rfl | ⟨before, c, rfl⟩
  · simp [Mode.flush]
  · rw [run_append] at hclosed hline ⊢
    have hspace : pythonIsspace c = false := hlast c (by simp)
    have hplain := @endsPlain_readCharacter tables _ c hspace hclosed hline
    have hrun : (lexer tables).run ((lexer tables).run .code before).2 [c] =
        readCharacter tables ((lexer tables).run .code before).2 c := by
      rw [run_cons, run_nil]
      simp
    rw [hrun, append_assoc]
    obtain ⟨last, hsome, hother⟩ := hplain.append ((lexer tables).run .code before).1
    intro l hl
    rw [hsome] at hl
    cases hl
    exact hother

/-- What stripping leaves of a text that has been read: it ends plainly and reads the same, or it
ends inside of a line comment. -/
inductive Stripped (tables : PythonTables) (text : List Char) (ls : List Lexeme) : Prop
  | plain (hreads : ((lexer tables).run .code text).1 ++
    ((lexer tables).run .code text).2.flush = ls)
      (hclosed : ((lexer tables).run .code text).2.closed = true)
      (hline : ((lexer tables).run .code text).2.isLine = false)
      (hlast : ∀ l ∈ ls.getLast?, l.isLineComment = false)
  | comment (comment text' : List Char)
      (hreads : ls = ((lexer tables).run .code text).1 ++ [.lineComment comment])
      (hline : ((lexer tables).run .code text).2 = .line text')

theorem exists_pythonStrip (text : List Char) : ∃ leading trailing,
    text = leading ++ pythonStrip text ++ trailing ∧
      (∀ c ∈ leading, pythonIsspace c = true) ∧ (∀ c ∈ trailing, pythonIsspace c = true) ∧
      ∀ c ∈ (pythonStrip text).getLast?, pythonIsspace c = false := by
  refine ⟨text.takeWhile pythonIsspace,
    (text.dropWhile pythonIsspace).rtakeWhile pythonIsspace, ?_, ?_, ?_, ?_⟩
  · rw [append_assoc, pythonStrip, rdropWhile_append_rtakeWhile, takeWhile_append_dropWhile]
  · exact fun c hc => mem_takeWhile_imp hc
  · exact fun c hc => mem_rtakeWhile_imp hc
  · intro c hc
    obtain ⟨hne, rfl⟩ := mem_getLast?_eq_getLast hc
    exact Bool.eq_false_of_not_eq_true
      (rdropWhile_last_not pythonIsspace (text.dropWhile pythonIsspace) hne)

theorem stripped_of_reads (h : Reads tables text ls rest) :
    Stripped tables (pythonStrip text) ls := by
  obtain ⟨leading, trailing, htext, hleading, htrailing, hlast⟩ := exists_pythonStrip text
  obtain ⟨hlexemes, hends⟩ := h
  rw [htext, append_assoc, run_append, run_isspace hleading] at hlexemes hends
  rw [run_append] at hlexemes hends
  dsimp only [nil_append] at hlexemes hends
  have hdelimiter := @delimiter_run_code tables (pythonStrip text)
  have hclosed := closed_of_run_isspace htrailing hdelimiter hends.1
  cases hline : ((lexer tables).run .code (pythonStrip text)).2.isLine with
  | false =>
    have hflush := @flush_run_isspace tables _ _ htrailing hdelimiter hclosed hline
    rw [append_assoc, hflush] at hlexemes
    have hplain := endsPlain_of_not_isspace hlast hclosed hline
    rw [hlexemes] at hplain
    exact .plain hlexemes hclosed hline hplain
  | true =>
    cases hmode : ((lexer tables).run .code (pythonStrip text)).2 with
    | line text' =>
      rw [hmode, append_assoc] at hlexemes
      obtain ⟨comment, hcomment⟩ := @flush_run_line tables _ htrailing text'
      rw [hcomment] at hlexemes
      exact .comment comment text' hlexemes.symm hmode
    | code | word | number | quoted | escaped | closing | dash | slash | block | star =>
      rw [hmode] at hline
      cases hline

/-- A line comment takes in what follows, up to the line break. -/
theorem lexemes_line {text' : List Char} (hline : ((lexer tables).run .code text).2 = .line text')
    (rest : List Char) :
    ∃ comment, lexemes tables (text ++ rest) = (lexemes tables (afterLine rest)).map
      (((lexer tables).run .code text).1 ++ .lineComment comment :: ·) := by
  have hkeep : ∀ {line : List Char}, '\n' ∉ line → ∀ c ∈ line, decide (c ≠ '\n') = true := by
    intro line hnone c hc
    simp only [decide_eq_true_eq]
    rintro rfl
    exact hnone hc
  rcases newline_cases rest with ⟨hnone, -⟩ | ⟨line, more, rfl, hnone, -⟩
  · have hafter : afterLine rest = [] := by
      rw [afterLine, dropWhile_eq_nil_iff.mpr (hkeep hnone)]
      rfl
    have hempty : lexemes tables [] = some [] := rfl
    refine ⟨text' ++ rest, ?_⟩
    rw [hafter, hempty, lexemes, run_append, hline, run_line hnone]
    simp [Mode.closed, Mode.flush]
  · have hafter : afterLine (line ++ '\n' :: more) = more := by
      rw [afterLine, dropWhile_append_of_pos (hkeep hnone)]
      simp
    refine ⟨text' ++ line, ?_⟩
    have hbreak : readCharacter tables (.line (text' ++ line)) '\n' =
        ([.lineComment (text' ++ line)], .code) := rfl
    rw [hafter, lexemes, lexemes, run_append, hline, run_append,
      run_line hnone, run_cons, lexer_step, hbreak]
    dsimp only
    split_ifs with hclosed
    · simp
    · rfl

end SqlTide.SqlText
