import SqlTide.SqlText.Lexemes

/-!
# The scans read tokens and comments

What each of the primitives skips is one lexeme, and trivia is comments only. A scan stops where the
text that follows can be read on its own.
-/

namespace SqlTide.SqlText

open Foundations List Transducer

variable {tables : PythonTables} {text rest before : List Char} {ls ls' : List Lexeme} {mode : Mode}
  {character quote : Char} {length : ℕ}

@[simp] theorem lexer_step :
    (lexer tables).step mode character = readCharacter tables mode character := rfl

theorem isIdentifierCharacter_of_start (h : isIdentifierStart tables character = true) :
    isIdentifierCharacter tables character = true := by
  unfold isIdentifierStart pythonIsalpha at h
  unfold isIdentifierCharacter pythonIsalnum
  split_ifs at h ⊢
  · rcases Bool.or_eq_true_iff.mp h with h | h
    · simp [h]
    · simp [Char.isAlphanum, h]
  · rcases Bool.or_eq_true_iff.mp h with h | h
    · simp [h]
    · simp [tables.alnum_of_alpha _ h]

theorem not_isIdentifierCharacter_of_isspace (h : pythonIsspace character = true) :
    isIdentifierCharacter tables character = false := by
  have hascii : ∀ code < 128, pythonIsspace (Char.ofNat code) = true →
      (Char.ofNat code = '_' ∨ (Char.ofNat code).isAlphanum = true) → False := by decide
  unfold isIdentifierCharacter pythonIsalnum
  split_ifs with hcode
  · have hnone := hascii character.toNat hcode
    rw [Char.ofNat_toNat] at hnone
    simpa using hnone h
  · have hother : character ≠ '_' := by
      rintro rfl
      exact absurd h (by decide)
    simp [hother, tables.not_alnum_of_isspace _ h]

theorem not_isIdentifierStart_of_isspace (h : pythonIsspace character = true) :
    isIdentifierStart tables character = false := by
  cases hstart : isIdentifierStart tables character with
  | false => rfl
  | true =>
    have hidentifier := isIdentifierCharacter_of_start hstart
    rw [not_isIdentifierCharacter_of_isspace h] at hidentifier
    exact absurd hidentifier (by simp)

theorem not_isQuote_of_isspace (h : pythonIsspace character = true) :
    isQuote character = false := by
  cases hquote : isQuote character with
  | false => rfl
  | true =>
    rcases (by simpa [isQuote, or_assoc] using hquote :
      character = '\'' ∨ character = '"' ∨ character = '`') with rfl | rfl | rfl <;>
      exact absurd h (by decide)

theorem ne_of_isIdentifierStart (other : Char) (h : isIdentifierStart tables character = true)
    (hother : isIdentifierStart tables other = false) : character ≠ other := by
  rintro rfl
  rw [h] at hother
  exact absurd hother (by simp)

theorem not_isQuote_of_isIdentifierStart (h : isIdentifierStart tables character = true) :
    isQuote character = false := by
  simp [isQuote, ne_of_isIdentifierStart '\'' h rfl,
    ne_of_isIdentifierStart '"' h rfl, ne_of_isIdentifierStart '`' h rfl]

theorem delimiter_startLexeme (hquote : (startLexeme tables character).2.delimiter = some quote) :
    isQuote quote = true := by
  unfold startLexeme at hquote
  split_ifs at hquote with _ _ _ _ hisQuote
  all_goals simp_all [Mode.delimiter]

theorem delimiter_readCharacter (hmode : ∀ quote ∈ mode.delimiter, isQuote quote = true)
    (hquote : (readCharacter tables mode character).2.delimiter = some quote) :
    isQuote quote = true := by
  have hstart := @delimiter_startLexeme tables character quote
  cases mode with
  | code => exact hstart hquote
  | word text =>
    simp only [readCharacter] at hquote
    split_ifs at hquote
    · simp [Mode.delimiter] at hquote
    · exact hstart hquote
  | number text =>
    simp only [readCharacter] at hquote
    split_ifs at hquote
    · simp [Mode.delimiter] at hquote
    · exact hstart hquote
  | quoted quote' text =>
    simp only [readCharacter] at hquote
    split_ifs at hquote
    · exact hmode quote hquote
    · exact hmode quote hquote
    · exact hmode quote hquote
  | escaped quote' text => exact hmode quote hquote
  | closing quote' text =>
    simp only [readCharacter] at hquote
    split_ifs at hquote
    · exact hmode quote hquote
    · exact hstart hquote
  | dash =>
    simp only [readCharacter] at hquote
    split_ifs at hquote
    · simp [Mode.delimiter] at hquote
    · exact hstart hquote
  | slash =>
    simp only [readCharacter] at hquote
    split_ifs at hquote
    · simp [Mode.delimiter] at hquote
    · exact hstart hquote
  | line text =>
    simp only [readCharacter] at hquote
    split_ifs at hquote
    · simp [Mode.delimiter] at hquote
    · simp [Mode.delimiter] at hquote
  | block text =>
    simp only [readCharacter] at hquote
    split_ifs at hquote
    · simp [Mode.delimiter] at hquote
    · simp [Mode.delimiter] at hquote
  | star text =>
    simp only [readCharacter] at hquote
    split_ifs at hquote
    · simp [Mode.delimiter] at hquote
    · simp [Mode.delimiter] at hquote
    · simp [Mode.delimiter] at hquote

theorem delimiter_run (text : List Char) (hmode : ∀ quote ∈ mode.delimiter, isQuote quote = true) :
    ∀ quote ∈ ((lexer tables).run mode text).2.delimiter, isQuote quote = true := by
  induction text generalizing mode with
  | nil => exact hmode
  | cons character text ih => exact ih fun quote => delimiter_readCharacter hmode

theorem delimiter_run_code :
    ∀ quote ∈ ((lexer tables).run .code text).2.delimiter, isQuote quote = true :=
  delimiter_run text (by simp [Mode.delimiter])

/-- White space and parentheses end everything that can end but a line comment. -/
theorem endsBefore_of_separator (hclosed : mode.closed = true) (hline : mode.isLine = false)
    (hmode : ∀ quote ∈ mode.delimiter, isQuote quote = true)
    (hidentifier : isIdentifierCharacter tables character = false)
    (hquote : isQuote character = false) (hdash : character ≠ '-') (hstar : character ≠ '*') :
    mode.EndsBefore tables (character :: rest) := by
  refine ⟨hclosed, fun _ hcharacter => ?_⟩
  cases hcharacter
  cases mode with
  | code => rfl
  | word text => simp [readCharacter, hidentifier]
  | number text => simp [readCharacter, hidentifier]
  | closing quote text =>
    have hother : character ≠ quote := by
      rintro rfl
      rw [hmode character rfl] at hquote
      exact absurd hquote (by simp)
    simp [readCharacter, hother]
  | dash => simp [readCharacter, hdash]
  | slash => simp [readCharacter, hstar]
  | line text => simp [Mode.isLine] at hline
  | quoted quote text => simp [Mode.closed] at hclosed
  | escaped quote text => simp [Mode.closed] at hclosed
  | block text => simp [Mode.closed] at hclosed
  | star text => simp [Mode.closed] at hclosed

theorem startLexeme_of_identifierStart (h : isIdentifierStart tables character = true) :
    startLexeme tables character = ([], .word [character]) := by
  have hspace : pythonIsspace character = false := by
    cases hspace : pythonIsspace character with
    | false => rfl
    | true =>
      rw [not_isIdentifierStart_of_isspace hspace] at h
      exact absurd h (by simp)
  simp [startLexeme, hspace, not_isQuote_of_isIdentifierStart h, h, ne_of_isIdentifierStart '#' h
    rfl, ne_of_isIdentifierStart '-' h rfl, ne_of_isIdentifierStart '/' h rfl]

theorem endsBefore_word {word word' : Char} (h : mode.EndsBefore tables (word :: rest))
    (hmode : ∀ quote ∈ mode.delimiter, isQuote quote = true)
    (hword : isIdentifierStart tables word = true)
    (hword' : isIdentifierStart tables word' = true) : mode.EndsBefore tables (word' :: text) := by
  refine ⟨h.1, fun _ hcharacter => ?_⟩
  cases hcharacter
  have hread := h.2 word rfl
  cases mode with
  | code => rfl
  | word text =>
    simp [readCharacter, isIdentifierCharacter_of_start hword, endLexeme, Mode.flush] at hread
  | number text => simp [readCharacter, hword']
  | closing quote text =>
    have hother : word' ≠ quote := by
      rintro rfl
      have hquote := hmode word' rfl
      rw [not_isQuote_of_isIdentifierStart hword'] at hquote
      exact absurd hquote (by simp)
    simp [readCharacter, hother]
  | dash => simp [readCharacter, ne_of_isIdentifierStart '-' hword' rfl]
  | slash => simp [readCharacter, ne_of_isIdentifierStart '*' hword' rfl]
  | line text =>
    simp [readCharacter, ne_of_isIdentifierStart '\n' hword rfl, endLexeme, Mode.flush] at hread
  | quoted quote text => exact absurd h.1 (by simp [Mode.closed])
  | escaped quote text => exact absurd h.1 (by simp [Mode.closed])
  | block text => exact absurd h.1 (by simp [Mode.closed])
  | star text => exact absurd h.1 (by simp [Mode.closed])

/-- A scan that goes on by this length reads these lexemes, before the rest. -/
def Advances (tables : PythonTables) (text : List Char) (length : ℕ) (ls : List Lexeme)
    (rest : List Char) : Prop :=
  ∃ piece, text = piece ++ rest ∧ piece.length = length ∧ Reads tables piece ls rest

theorem Advances.refl : Advances tables text 0 [] text := ⟨[], rfl, rfl, Reads.nil⟩

theorem Advances.trans {length' : ℕ} {between : List Char}
    (h : Advances tables text length ls between) (h' : Advances tables between length' ls' rest) :
    Advances tables text (length + length') (ls ++ ls') rest := by
  obtain ⟨piece, rfl, rfl, hreads⟩ := h
  obtain ⟨piece', rfl, rfl, hreads'⟩ := h'
  exact ⟨piece ++ piece', by simp, by simp, hreads.append hreads'⟩

theorem Advances.length_eq (h : Advances tables text length ls rest) :
    text.length = length + rest.length := by
  obtain ⟨piece, rfl, rfl, -⟩ := h
  rw [length_append]

theorem Advances.exists_lexemes {all : List Lexeme} (h : Advances tables text length ls rest)
    (hall : lexemes tables text = some all) :
    ∃ more, lexemes tables rest = some more ∧ all = ls ++ more := by
  obtain ⟨piece, rfl, -, hreads⟩ := h
  rw [hreads.lexemes_append, Option.map_eq_some_iff] at hall
  obtain ⟨more, hmore, rfl⟩ := hall
  exact ⟨more, hmore, rfl⟩

theorem advances_character (hstart : startLexeme tables character = (ls, .code)) :
    Advances tables (character :: rest) 1 ls rest := by
  refine ⟨[character], rfl, rfl, ?_⟩
  have hrun : (lexer tables).run .code [character] = (ls, .code) := by
    rw [run_cons, lexer_step, readCharacter, hstart]
    simp
  rw [Reads, hrun]
  exact ⟨by simp [Mode.flush], code_endsBefore⟩

variable (tables) in
theorem quotedLength_eq_some (hquote : isQuote quote = true)
    (h : quotedLength quote text = some length) :
    ∃ piece rest, text = piece ++ rest ∧ piece.length = length ∧ rest.head? ≠ some quote ∧
      ∀ before, (lexer tables).run (.quoted quote before) piece =
        ([], .closing quote (before ++ piece)) := by
  have hescape : quote ≠ '\\' := by
    rintro rfl
    exact absurd hquote (by decide)
  fun_induction quotedLength quote text generalizing length with
  | case1 => simp at h
  | case2 =>
    cases h
    refine ⟨[quote], [], rfl, rfl, by simp, fun before => ?_⟩
    simp [run_cons, lexer_step, readCharacter, hescape]
  | case3 => simp at h
  | case4 next rest ih =>
    obtain ⟨length, hlength, rfl⟩ := Option.map_eq_some_iff.mp h
    obtain ⟨piece, rest, rfl, rfl, hrest, hrun⟩ := ih hlength
    refine ⟨'\\' :: next :: piece, rest, rfl, rfl, hrest, fun before => ?_⟩
    simp [run_cons, lexer_step, readCharacter, hrun]
  | case5 rest _ ih =>
    obtain ⟨length, hlength, rfl⟩ := Option.map_eq_some_iff.mp h
    obtain ⟨piece, rest, rfl, rfl, hrest, hrun⟩ := ih hlength
    refine ⟨quote :: quote :: piece, rest, rfl, rfl, hrest, fun before => ?_⟩
    simp [run_cons, lexer_step, readCharacter, hescape, hrun]
  | case6 next rest hnext =>
    cases h
    refine ⟨[quote], next :: rest, rfl, rfl, by simpa using hnext, fun before => ?_⟩
    simp [run_cons, lexer_step, readCharacter, hescape]
  | case7 character next rest hcharacter hother ih =>
    obtain ⟨length, hlength, rfl⟩ := Option.map_eq_some_iff.mp h
    obtain ⟨piece, rest', hsplit, rfl, hrest, hrun⟩ := ih hlength
    refine ⟨character :: piece, rest', by rw [hsplit]; rfl, rfl, hrest, fun before => ?_⟩
    simp [run_cons, lexer_step, readCharacter, hcharacter, hother, hrun]

variable (tables) in
theorem quotedLength_eq_none (h : quotedLength quote text = none) (before : List Char) :
    ((lexer tables).run (.quoted quote before) text).2.closed = false := by
  fun_induction quotedLength quote text generalizing before with
  | case1 => rfl
  | case2 => simp at h
  | case3 character hother =>
    by_cases hescape : character = '\\' <;>
      simp [run_cons, lexer_step, readCharacter, hescape, hother, Mode.closed]
  | case4 next rest ih =>
    simpa [run_cons, lexer_step, readCharacter] using
      ih (Option.map_eq_none_iff.mp h) (before ++ ['\\', next])
  | case5 rest hescape ih =>
    simpa [run_cons, lexer_step, readCharacter, hescape] using
      ih (Option.map_eq_none_iff.mp h) (before ++ [quote, quote])
  | case6 => simp at h
  | case7 character next rest hescape hother ih =>
    simpa [run_cons, lexer_step, readCharacter, hescape, hother] using
      ih (Option.map_eq_none_iff.mp h) (before ++ [character])

theorem run_star (before : List Char) (h : character ≠ '/') :
    (lexer tables).run (.star before) (character :: rest) =
      (lexer tables).run (.block before) (character :: rest) := by
  rw [run_cons, run_cons, lexer_step, lexer_step]
  simp [readCharacter, h]

theorem run_block (before : List Char) (h : ¬ (character = '*' ∧ text.head? = some '/'))
    (hne : text ≠ []) :
    (lexer tables).run (.block before) (character :: text) =
      (lexer tables).run (.block (before ++ [character])) text := by
  obtain ⟨next, rest, rfl⟩ := exists_cons_of_ne_nil hne
  rw [run_cons, lexer_step]
  by_cases hstar : character = '*'
  · have hnext : next ≠ '/' := fun hslash => h ⟨hstar, by rw [hslash]; rfl⟩
    simp [readCharacter, hstar, run_star _ hnext]
  · simp [readCharacter, hstar]

variable (tables) in
theorem blockLength_eq_some (h : blockLength text = some length) :
    ∃ piece rest, text = piece ++ rest ∧ piece.length = length ∧ piece ≠ [] ∧
      ∀ before, (lexer tables).run (.block before) piece =
        ([.blockComment (before ++ piece)], .code) := by
  fun_induction blockLength text generalizing length with
  | case1 => simp at h
  | case2 => simp at h
  | case3 character next rest hclosing =>
    obtain ⟨rfl, rfl⟩ := hclosing
    cases h
    refine ⟨['*', '/'], rest, rfl, rfl, by simp, fun before => ?_⟩
    simp [run_cons, readCharacter]
  | case4 character next rest hclosing ih =>
    obtain ⟨length, hlength, rfl⟩ := Option.map_eq_some_iff.mp h
    obtain ⟨piece, rest', hsplit, rfl, hne, hrun⟩ := ih hlength
    refine ⟨character :: piece, rest', by rw [hsplit]; rfl, rfl, by simp, fun before => ?_⟩
    have hhead : piece.head? = some next := by
      have hheads := congrArg head? hsplit
      rw [head?_append_of_ne_nil _ hne] at hheads
      exact hheads.symm
    rw [run_block before (by simpa [hhead] using hclosing) hne, hrun, append_assoc]
    rfl

variable (tables) in
theorem blockLength_eq_none (h : blockLength text = none)
    (before : List Char) : ((lexer tables).run (.block before) text).2.closed = false := by
  fun_induction blockLength text generalizing before with
  | case1 => rfl
  | case2 character =>
    by_cases hstar : character = '*' <;>
      simp [run_cons, readCharacter, hstar, Mode.closed]
  | case3 => simp at h
  | case4 character next rest hclosing ih =>
    rw [run_block before (by simpa using hclosing) (by simp)]
    exact ih (Option.map_eq_none_iff.mp h) _

theorem run_line (h : '\n' ∉ text) (before : List Char) :
    (lexer tables).run (.line before) text = ([], .line (before ++ text)) := by
  induction text generalizing before with
  | nil => simp
  | cons character text ih =>
    obtain ⟨hcharacter, htext⟩ := ne_and_not_mem_of_not_mem_cons h
    simp [run_cons, readCharacter, Ne.symm hcharacter, ih htext]

theorem newline_cases (text : List Char) :
    ('\n' ∉ text ∧ text.findIdx? (· = '\n') = none) ∨
      ∃ line rest, text = line ++ '\n' :: rest ∧ '\n' ∉ line ∧
        text.findIdx? (· = '\n') = some line.length := by
  induction text with
  | nil => exact Or.inl ⟨not_mem_nil, rfl⟩
  | cons character text ih =>
    by_cases hnewline : character = '\n'
    · refine Or.inr ⟨[], text, by rw [hnewline]; rfl, not_mem_nil, ?_⟩
      simp [findIdx?_cons, hnewline]
    · rcases ih with ⟨hnone, hindex⟩ | ⟨line, rest, rfl, hnone, hindex⟩
      · refine Or.inl ⟨not_mem_cons_of_ne_of_not_mem (Ne.symm hnewline) hnone, ?_⟩
        simp [findIdx?_cons, hnewline, hindex]
      · refine Or.inr ⟨character :: line, rest, rfl,
          not_mem_cons_of_ne_of_not_mem (Ne.symm hnewline) hnone, ?_⟩
        simp [findIdx?_cons, hnewline, hindex]

variable (tables) in
theorem exists_mark (h : isLineCommentStart text = true) : ∃ mark rest, text = mark ++ rest ∧
    '\n' ∉ mark ∧ (lexer tables).run .code mark = ([], .line mark) := by
  rcases Bool.or_eq_true_iff.mp h with h | h
  · obtain ⟨rest, rfl⟩ := isPrefixOf_iff_prefix.mp h
    exact ⟨['-', '-'], rest, rfl, by decide, rfl⟩
  · obtain ⟨rest, rfl⟩ := isPrefixOf_iff_prefix.mp h
    exact ⟨['#'], rest, rfl, by decide, rfl⟩

theorem skipLineComment_advances (h : isLineCommentStart text = true) :
    ∃ length comment rest,
      skipLineComment (before ++ text) before.length = before.length + length ∧ 0 < length ∧
        Advances tables text length [.lineComment comment] rest := by
  obtain ⟨mark, text, rfl, hmark, hrun⟩ := exists_mark tables h
  have hpositive : 0 < mark.length := by
    refine length_pos_of_ne_nil ?_
    rintro rfl
    simp at hrun
  rcases newline_cases (mark ++ text) with ⟨hnone, hindex⟩ | ⟨line, rest, hsplit, hnone, hindex⟩
  · refine ⟨(mark ++ text).length, mark ++ text, [], ?_, by simp; omega, mark ++ text, by simp, rfl,
      ?_⟩
    · rw [skipLineComment, drop_left, hindex]
      simp
    · have hall : (lexer tables).run .code (mark ++ text) = ([], .line (mark ++ text)) := by
        rw [run_append, hrun, run_line (fun hmem => hnone (mem_append_right _ hmem))]
        rfl
      rw [Reads, hall]
      exact ⟨rfl, rfl, by simp⟩
  · have hread : (lexer tables).run .code line = ([], .line line) := by
      rcases append_eq_append_iff.mp hsplit with ⟨more, rfl, htext⟩ | ⟨more, rfl, htext⟩
      · rw [run_append, hrun, run_line (fun hmem => hnone (mem_append_right _ hmem))]
        rfl
      · -- the mark of the comment has no newline
        cases more with
        | nil => simpa using hrun
        | cons character more =>
          obtain ⟨rfl, -⟩ := List.cons.inj htext
          exact absurd (by simp) hmark
    have hline : (lexer tables).run .code (line ++ ['\n']) = ([.lineComment line], .code) := by
      rw [run_append, hread]
      simp [run_cons, readCharacter]
    refine ⟨line.length + 1, line, rest, ?_, by omega, line ++ ['\n'],
      by simp [hsplit], by simp, ?_⟩
    · rw [skipLineComment, drop_left, hindex]
      rfl
    · rw [Reads, hline]
      exact ⟨rfl, code_endsBefore⟩

theorem startLexeme_of_isQuote (h : isQuote quote = true) :
    startLexeme tables quote = ([], .quoted quote [quote]) := by
  rcases (by simpa [isQuote, or_assoc] using h : quote = '\'' ∨ quote = '"' ∨ quote = '`') with
    rfl | rfl | rfl <;> rfl

theorem advances_quoted (hquote : isQuote quote = true)
    (hlength : quotedLength quote text = some length) :
    ∃ quoted rest, Advances tables (quote :: text) (1 + length) [.quoted quoted] rest := by
  have hstart := @startLexeme_of_isQuote tables _ hquote
  obtain ⟨piece, rest, rfl, rfl, hrest, hrun⟩ := quotedLength_eq_some tables hquote hlength
  have hread : (lexer tables).run .code (quote :: piece) =
      ([], .closing quote ([quote] ++ piece)) := by
    rw [run_cons, lexer_step, readCharacter, hstart, hrun]
    rfl
  refine ⟨[quote] ++ piece, rest, quote :: piece, rfl, by simp [Nat.add_comm], ?_⟩
  rw [Reads, hread]
  refine ⟨rfl, rfl, fun character hcharacter => ?_⟩
  have hother : character ≠ quote := by
    rintro rfl
    exact hrest hcharacter
  simp [readCharacter, hother]

theorem skipQuotedText_advances (hquote : isQuote quote = true)
    (hclosed : lexemes tables (quote :: text) ≠ none) :
    ∃ length quoted rest,
      skipQuotedText (before ++ quote :: text) before.length quote = .ok (before.length + length) ∧
        0 < length ∧ Advances tables (quote :: text) length [.quoted quoted] rest := by
  have hstart := @startLexeme_of_isQuote tables _ hquote
  have hdrop : (before ++ quote :: text).drop (before.length + 1) = text := by simp
  cases hlength : quotedLength quote text with
  | none =>
    refine absurd ?_ hclosed
    have hopen := quotedLength_eq_none tables hlength [quote]
    simp [lexemes, run_cons, readCharacter, hstart, hopen]
  | some length =>
    obtain ⟨quoted, rest, hadvances⟩ := @advances_quoted tables _ _ _ hquote hlength
    refine ⟨1 + length, quoted, rest, ?_, by omega, hadvances⟩
    rw [skipQuotedText, hdrop, hlength]
    exact congrArg Except.ok (by omega)

theorem advances_blockComment (hlength : blockLength text = some length) :
    ∃ comment rest, Advances tables (['/', '*'] ++ text) (2 + length) [.blockComment comment]
    rest := by
  have hmark : (lexer tables).run .code ['/', '*'] = ([], .block ['/', '*']) := rfl
  obtain ⟨piece, rest, rfl, rfl, -, hrun⟩ := blockLength_eq_some tables hlength
  have hread : (lexer tables).run .code (['/', '*'] ++ piece) =
      ([.blockComment (['/', '*'] ++ piece)], .code) := by
    rw [run_append, hmark, hrun]
    rfl
  refine ⟨['/', '*'] ++ piece, rest, ['/', '*'] ++ piece, by simp, by simp; omega, ?_⟩
  rw [Reads, hread]
  exact ⟨rfl, code_endsBefore⟩

theorem skipBlockComment_advances (h : isBlockCommentStart text = true)
    (hclosed : lexemes tables text ≠ none) :
    ∃ length comment rest,
      skipBlockComment (before ++ text) before.length = .ok (before.length + length) ∧
        0 < length ∧ Advances tables text length [.blockComment comment] rest := by
  obtain ⟨text, rfl⟩ := isPrefixOf_iff_prefix.mp h
  have hdrop : (before ++ (['/', '*'] ++ text)).drop (before.length + 2) = text := by simp
  have hmark : (lexer tables).run .code ['/', '*'] = ([], .block ['/', '*']) := rfl
  cases hlength : blockLength text with
  | none =>
    refine absurd ?_ hclosed
    have hopen := blockLength_eq_none tables hlength ['/', '*']
    rw [lexemes, run_append, hmark]
    simp [hopen]
  | some length =>
    obtain ⟨comment, rest, hadvances⟩ := @advances_blockComment tables _ _ hlength
    refine ⟨2 + length, comment, rest, ?_, by omega, hadvances⟩
    rw [skipBlockComment, hdrop, hlength]
    exact congrArg Except.ok (by omega)

/-- The text goes on with neither white space nor a comment. -/
def StartsCode (text : List Char) : Prop :=
  (∀ character ∈ text.head?, pythonIsspace character = false) ∧
    isLineCommentStart text = false ∧ isBlockCommentStart text = false

theorem skipTriviaLoop_advances (fuel : ℕ) : ∀ {before text : List Char}, text.length ≤ fuel →
    lexemes tables text ≠ none →
    ∃ length comments rest,
      skipTriviaLoop (before ++ text) fuel before.length = .ok (before.length + length) ∧
        Advances tables text length comments rest ∧ (∀ l ∈ comments, l.isComment = true) ∧
        StartsCode rest := by
  induction fuel with
  | zero =>
    intro before text hfuel _
    obtain rfl := eq_nil_of_length_eq_zero (Nat.le_zero.mp hfuel)
    exact ⟨0, [], [], rfl, Advances.refl, by simp, by simp [StartsCode, isLineCommentStart,
      isBlockCommentStart]⟩
  | succ fuel ih =>
    intro before text hfuel hclosed
    -- what is read before the rest of the trivia
    have hgo : ∀ {length comments rest}, 0 < length → Advances tables text length comments rest →
        (∀ l ∈ comments, l.isComment = true) →
        ∃ length' comments' rest',
          skipTriviaLoop (before ++ text) fuel (before.length + length) =
            .ok (before.length + length') ∧
            Advances tables text length' comments' rest' ∧
            (∀ l ∈ comments', l.isComment = true) ∧ StartsCode rest' := by
      rintro length comments rest hpositive hadvances hcomments
      obtain ⟨piece, rfl, rfl, hreads⟩ := hadvances
      have hrest : lexemes tables rest ≠ none := by
        intro hnone
        rw [hreads.lexemes_append, hnone] at hclosed
        exact hclosed rfl
      rw [length_append] at hfuel
      obtain ⟨length', comments', rest', hloop, hadvances', hcomments', hcode⟩ :=
        @ih (before ++ piece) rest (by omega) hrest
      rw [append_assoc, length_append] at hloop
      refine ⟨piece.length + length', comments ++ comments', rest', ?_,
        Advances.trans ⟨piece, rfl, rfl, hreads⟩ hadvances', ?_, hcode⟩
      · rw [hloop, Nat.add_assoc]
      · intro l hl
        rcases mem_append.mp hl with hl | hl
        · exact hcomments l hl
        · exact hcomments' l hl
    rw [skipTriviaLoop, drop_left]
    cases text with
    | nil =>
      exact ⟨0, [], [], rfl, Advances.refl, by simp, by simp [StartsCode, isLineCommentStart,
        isBlockCommentStart]⟩
    | cons character text =>
      dsimp only
      split_ifs with hspace hline hblock
      · refine @hgo 1 [] text Nat.one_pos (advances_character ?_) (by simp)
        simp [startLexeme, hspace]
      · obtain ⟨length, comment, rest, hskip, hpositive, hadvances⟩ :=
          @skipLineComment_advances tables _ before hline
        rw [hskip]
        exact hgo hpositive hadvances (by simp [Lexeme.isComment])
      · obtain ⟨length, comment, rest, hskip, hpositive, hadvances⟩ :=
          @skipBlockComment_advances tables _ before hblock hclosed
        rw [hskip]
        exact hgo hpositive hadvances (by simp [Lexeme.isComment])
      · refine ⟨0, [], character :: text, rfl, Advances.refl, by simp, ?_, ?_, ?_⟩
        · simpa using hspace
        · simpa using hline
        · simpa using hblock

theorem skipTrivia_advances (hclosed : lexemes tables text ≠ none) :
    ∃ length comments rest, skipTrivia (before ++ text) before.length = .ok
    (before.length + length) ∧
      Advances tables text length comments rest ∧ (∀ l ∈ comments, l.isComment = true) ∧
      StartsCode rest :=
  skipTriviaLoop_advances _ (by simp) hclosed

theorem skipTrivia_of_startsCode (h : StartsCode (character :: rest)) :
    skipTrivia (before ++ character :: rest) before.length = .ok before.length := by
  have hlength : (before ++ character :: rest).length - before.length = rest.length + 1 := by simp
  rw [skipTrivia, hlength, skipTriviaLoop, drop_left]
  simp [h.1 character rfl, h.2.1, h.2.2]

theorem run_word (h : ∀ c ∈ text, isIdentifierCharacter tables c = true)
    (before : List Char) : (lexer tables).run (.word before) text =
    ([], .word (before ++ text)) := by
  induction text generalizing before with
  | nil => simp
  | cons character text ih =>
    have htext := ih fun c hc => h c (mem_cons_of_mem _ hc)
    simp [run_cons, readCharacter, h character mem_cons_self, htext]

theorem run_number (h : ∀ c ∈ text, isIdentifierCharacter tables c = true ∧
    isIdentifierStart tables c = false) (before : List Char) :
    (lexer tables).run (.number before) text = ([], .number (before ++ text)) := by
  induction text generalizing before with
  | nil => simp
  | cons character text ih =>
    have htext := ih fun c hc => h c (mem_cons_of_mem _ hc)
    obtain ⟨hidentifier, hstart⟩ := h character mem_cons_self
    simp [run_cons, readCharacter, hidentifier, hstart, htext]

theorem advances_word (h : isIdentifierStart tables character = true) :
    Advances tables (character :: rest)
      (1 + (rest.takeWhile (isIdentifierCharacter tables)).length)
      [.word (character :: rest.takeWhile (isIdentifierCharacter tables))]
      (rest.dropWhile (isIdentifierCharacter tables)) := by
  refine ⟨character :: rest.takeWhile (isIdentifierCharacter tables), ?_, ?_, ?_⟩
  · rw [cons_append, takeWhile_append_dropWhile]
  · rw [length_cons, Nat.add_comm]
  · have hread : (lexer tables).run .code
        (character :: rest.takeWhile (isIdentifierCharacter tables)) =
          ([], .word (character :: rest.takeWhile (isIdentifierCharacter tables))) := by
      rw [run_cons, lexer_step, readCharacter, startLexeme_of_identifierStart h,
        run_word fun c hc => mem_takeWhile_imp hc]
      rfl
    rw [Reads, hread]
    refine ⟨rfl, rfl, fun next hnext => ?_⟩
    have hother : isIdentifierCharacter tables next = false := by
      have hhead := head?_dropWhile_not (isIdentifierCharacter tables) rest
      rw [Option.mem_def.mp hnext] at hhead
      simpa using hhead
    simp [readCharacter, hother]

def isDigit (tables : PythonTables) (character : Char) : Bool :=
  isIdentifierCharacter tables character && !isIdentifierStart tables character

theorem isDigit_iff : isDigit tables character = true ↔
    isIdentifierCharacter tables character = true ∧ isIdentifierStart tables character = false := by
  simp [isDigit]

theorem ne_of_isIdentifierCharacter (other : Char)
    (h : isIdentifierCharacter tables character = true)
    (hother : isIdentifierCharacter tables other = false) : character ≠ other := by
  rintro rfl
  rw [h] at hother
  exact absurd hother (by simp)

theorem startLexeme_of_isDigit (rest : List Char) (h : isDigit tables character = true) :
    startLexeme tables character = ([], .number [character]) ∧ isQuote character = false ∧
      StartsCode (character :: rest) := by
  obtain ⟨hidentifier, hstart⟩ := isDigit_iff.mp h
  have hspace : pythonIsspace character = false := by
    cases hspace : pythonIsspace character with
    | false => rfl
    | true =>
      rw [not_isIdentifierCharacter_of_isspace hspace] at hidentifier
      exact absurd hidentifier (by simp)
  have hhash := ne_of_isIdentifierCharacter '#' hidentifier rfl
  have hdash := ne_of_isIdentifierCharacter '-' hidentifier rfl
  have hslash := ne_of_isIdentifierCharacter '/' hidentifier rfl
  have hquote : isQuote character = false := by
    simp [isQuote, ne_of_isIdentifierCharacter '\'' hidentifier rfl, ne_of_isIdentifierCharacter '"'
      hidentifier rfl, ne_of_isIdentifierCharacter '`' hidentifier rfl]
  refine ⟨?_, hquote, ?_, ?_, ?_⟩
  · simp [startLexeme, hspace, hquote, hhash, hdash, hslash, hstart, hidentifier]
  · simpa using hspace
  · simp [isLineCommentStart, isPrefixOf, Ne.symm hdash, Ne.symm hhash]
  · simp [isBlockCommentStart, isPrefixOf, Ne.symm hslash]

theorem advances_number (h : isDigit tables character = true) :
    Advances tables (character :: rest) (1 + (rest.takeWhile (isDigit tables)).length)
      [.number (character :: rest.takeWhile (isDigit tables))]
      (rest.dropWhile (isDigit tables)) := by
  refine ⟨character :: rest.takeWhile (isDigit tables), ?_, ?_, ?_⟩
  · rw [cons_append, takeWhile_append_dropWhile]
  · rw [length_cons, Nat.add_comm]
  · have hread : (lexer tables).run .code (character :: rest.takeWhile (isDigit tables)) =
          ([], .number (character :: rest.takeWhile (isDigit tables))) := by
      rw [run_cons, lexer_step, readCharacter,
        (startLexeme_of_isDigit rest h).1,
        run_number fun c hc => isDigit_iff.mp (mem_takeWhile_imp hc)]
      rfl
    rw [Reads, hread]
    refine ⟨rfl, rfl, fun next hnext => ?_⟩
    have hother : isDigit tables next = false := by
      have hhead := head?_dropWhile_not (isDigit tables) rest
      rw [Option.mem_def.mp hnext] at hhead
      simpa using hhead
    have hbranch : (isIdentifierCharacter tables next && !isIdentifierStart tables next) = false :=
      hother
    simp [readCharacter, hbranch]

theorem advances_symbol (hcode : StartsCode (character :: rest))
    (hquote : isQuote character = false)
    (hidentifier : isIdentifierCharacter tables character = false) :
    Advances tables (character :: rest) 1 [.symbol character] rest := by
  have hspace : pythonIsspace character = false := hcode.1 character rfl
  by_cases hdash : character = '-'
  · subst hdash
    have hnext : ∀ next ∈ rest.head?, next ≠ '-' := by
      rintro next hnext rfl
      obtain ⟨rest, rfl⟩ := head?_eq_some_iff.mp hnext
      exact absurd hcode.2.1 (by simp [isLineCommentStart])
    refine ⟨['-'], rfl, rfl, rfl, rfl, fun next hmem => ?_⟩
    have hother := hnext next hmem
    show readCharacter tables .dash next = endLexeme tables .dash next
    simp [readCharacter, hother]
  · by_cases hslash : character = '/'
    · subst hslash
      have hnext : ∀ next ∈ rest.head?, next ≠ '*' := by
        rintro next hnext rfl
        obtain ⟨rest, rfl⟩ := head?_eq_some_iff.mp hnext
        exact absurd hcode.2.2 (by simp [isBlockCommentStart])
      refine ⟨['/'], rfl, rfl, rfl, rfl, fun next hmem => ?_⟩
      have hother := hnext next hmem
      show readCharacter tables .slash next = endLexeme tables .slash next
      simp [readCharacter, hother]
    · have hhash : character ≠ '#' := by
        rintro rfl
        exact absurd hcode.2.1 (by simp [isLineCommentStart])
      have hstart : isIdentifierStart tables character = false := by
        cases hstart : isIdentifierStart tables character with
        | false => rfl
        | true =>
          rw [isIdentifierCharacter_of_start hstart] at hidentifier
          exact absurd hidentifier (by simp)
      refine advances_character ?_
      simp [startLexeme, hspace, hhash, hdash, hslash, hquote, hstart, hidentifier]

end SqlTide.SqlText
