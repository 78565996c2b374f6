import Mathlib.Data.Char
import SqlTide.Foundations.Transducers

/-!
# ClickHouse tokens

The lexical rules of ClickHouse, read character by character: string literals and quoted
identifiers with backslash escapes and doubled quotes, and comments. What is outside of quotes and
comments is kept as single characters, so texts with the same tokens here have the same tokens in
any grouping of these characters into words, numbers and operators.
-/

namespace SqlTide.Foundations.ClickHouse

open List Transducer

inductive Token
  | plain (c : Char)
  | quoted (quote : Char) (value : List Char)
  deriving DecidableEq, Repr

/-- Quoted text is read with its value so far. -/
inductive LexState
  | code
  | pending (c : Char)
  | lineComment
  | blockComment
  | blockCommentStar
  | quoted (quote : Char) (value : List Char)
  | escaped (quote : Char) (value : List Char)
  | hex (quote : Char) (value : List Char)
  | hexDigit (quote : Char) (value : List Char) (digit : Char)
  | closing (quote : Char) (value : List Char)
  deriving DecidableEq, Repr

def isQuote (c : Char) : Bool := c = '\'' || c = '"' || c = '`'

def isHexDigit (c : Char) : Bool :=
  c.isDigit || ('a' ≤ c && c ≤ 'f') || ('A' ≤ c && c ≤ 'F')

def hexDigitValue (c : Char) : ℕ :=
  if c.isDigit then c.toNat - '0'.toNat
  else if 'a' ≤ c then c.toNat - 'a'.toNat + 10
  else c.toNat - 'A'.toNat + 10

/-- What an escape stands for. An unknown one keeps its backslash. -/
def escapedText (c : Char) : List Char :=
  match c with
  | 'a' => ['\x07']
  | 'b' => ['\x08']
  | 'e' => ['\x1b']
  | 'f' => ['\x0c']
  | 'n' => ['\n']
  | 'r' => ['\r']
  | 't' => ['\t']
  | 'v' => ['\x0b']
  | '0' => ['\x00']
  | 'N' => []
  | c => if c ∈ ['\\', '\'', '"', '`', '/', '='] ∨ c.toNat < 32 then [c] else ['\\', c]

/-- A character outside of quotes and comments. -/
def stepCode (c : Char) : List Token × LexState :=
  if isQuote c then ([], .quoted c [])
  else if c = '-' ∨ c = '/' ∨ c = '#' then ([], .pending c)
  else ([.plain c], .code)

/-- A character that may start a comment with the one before it. -/
def stepPending (before c : Char) : List Token × LexState :=
  if before = '-' ∧ c = '-' then ([], .lineComment)
  else if before = '/' ∧ c = '*' then ([], .blockComment)
  else if before = '#' ∧ (c = ' ' ∨ c = '!') then ([], .lineComment)
  else (.plain before :: (stepCode c).1, (stepCode c).2)

def stepQuoted (quote : Char) (value : List Char) (c : Char) : LexState :=
  if c = '\\' then .escaped quote value
  else if c = quote then .closing quote value
  else .quoted quote (value ++ [c])

def lexer : Transducer LexState Char Token where
  step
    | .code, c => stepCode c
    | .pending before, c => stepPending before c
    | .lineComment, c => if c = '\n' then ([.plain c], .code) else ([], .lineComment)
    | .blockComment, c => ([], if c = '*' then .blockCommentStar else .blockComment)
    | .blockCommentStar, c =>
      if c = '/' then ([.plain ' '], .code)
      else ([], if c = '*' then .blockCommentStar else .blockComment)
    | .quoted quote value, c => ([], stepQuoted quote value c)
    | .escaped quote value, c =>
      ([], if c = 'x' then .hex quote value else .quoted quote (value ++ escapedText c))
    | .hex quote value, c =>
      ([], if isHexDigit c then .hexDigit quote value c
        else stepQuoted quote (value ++ ['\\', 'x']) c)
    | .hexDigit quote value digit, c =>
      ([], if isHexDigit c then
          .quoted quote (value ++ [Char.ofNat (hexDigitValue digit * 16 + hexDigitValue c)])
        else stepQuoted quote (value ++ ['\\', 'x', digit]) c)
    | .closing quote value, c =>
      -- A doubled quote does not end the text.
      if c = quote then ([], .quoted quote (value ++ [c]))
      else (.quoted quote value :: (stepCode c).1, (stepCode c).2)

/-- What is read at the end of a text, where nothing is left open. -/
def LexState.finish : LexState → Option (List Token)
  | .code | .lineComment => some []
  | .pending c => some [.plain c]
  | .closing quote value => some [.quoted quote value]
  | _ => none

def tokens (text : List Char) : Option (List Token) :=
  (lexer.run .code text).2.finish.map ((lexer.run .code text).1 ++ ·)

variable {quote c : Char} {value text : List Char}

/-- Between quotes, the text is read as one value, which is `value`. -/
def Denotes (quote : Char) (text value : List Char) : Prop :=
  lexer.run (.quoted quote []) (text ++ [quote]) = ([], .closing quote value)

instance : Decidable (Denotes quote text value) := inferInstanceAs (Decidable (_ = _))

theorem run_quoted_plain (hplain : ∀ c ∈ text, c ≠ '\\' ∧ c ≠ quote) (value : List Char) :
    lexer.run (.quoted quote value) text = ([], .quoted quote (value ++ text)) := by
  induction text generalizing value with
  | nil => simp
  | cons c text ih =>
    rw [forall_mem_cons] at hplain
    have hstep : stepQuoted quote value c = .quoted quote (value ++ [c]) := by
      rw [stepQuoted, if_neg hplain.1.1, if_neg hplain.1.2]
    rw [run_cons]
    simp only [lexer] at ih ⊢
    rw [hstep, ih hplain.2]
    simp

/-- A text without its quote and without backslashes stands for itself. -/
theorem Denotes.plain (hquote : quote ≠ '\\') (hplain : ∀ c ∈ text, c ≠ '\\' ∧ c ≠ quote) :
    Denotes quote text text := by
  rw [Denotes, run_append, run_quoted_plain hplain]
  simp [run, lexer, stepQuoted, hquote]

/-- A quoted text is one token, whatever comes before it that is not quoted. -/
theorem run_literal {state : LexState} {read : List Token}
    (hopen : lexer.step state quote = (read, .quoted quote [])) (h : Denotes quote text value) :
    lexer.run state (quote :: text ++ [quote]) = (read, .closing quote value) := by
  rw [cons_append, run_cons, hopen, show lexer.run _ _ = _ from h]
  simp

theorem run_closing (hnext : text.head? ≠ some quote) (hne : text ≠ []) :
    lexer.run (.closing quote value) text =
      (.quoted quote value :: (lexer.run .code text).1, (lexer.run .code text).2) := by
  cases text with
  | nil => exact absurd rfl hne
  | cons c text =>
    have hc : c ≠ quote := by simpa using hnext
    simp only [run_cons, lexer, if_neg hc, cons_append]

/-- How many characters a state has read of a quoted text at least. -/
def LexState.size : LexState → ℕ
  | .quoted _ value => value.length
  | .escaped _ value | .closing _ value => value.length + 1
  | .hex _ value => value.length + 2
  | .hexDigit _ value _ => value.length + 3
  | _ => 0

inductive InQuotes (quote : Char) : LexState → Prop
  | quoted (value : List Char) : InQuotes quote (.quoted quote value)
  | escaped (value : List Char) : InQuotes quote (.escaped quote value)
  | hex (value : List Char) : InQuotes quote (.hex quote value)
  | hexDigit (value : List Char) (digit : Char) : InQuotes quote (.hexDigit quote value digit)
  | closing (value : List Char) : InQuotes quote (.closing quote value)

theorem length_escapedText_le (c : Char) : (escapedText c).length ≤ 2 := by
  unfold escapedText
  split <;> try simp
  split_ifs <;> simp

theorem stepQuoted_inQuotes (quote : Char) (value : List Char) (c : Char) :
    InQuotes quote (stepQuoted quote value c) ∧
      (stepQuoted quote value c).size ≤ value.length + 1 := by
  unfold stepQuoted
  split_ifs
  · exact ⟨.escaped value, le_rfl⟩
  · exact ⟨.closing value, le_rfl⟩
  · exact ⟨.quoted _, by simp [LexState.size]⟩

/-- A step inside of quotes stays there, unless it reads the value. -/
theorem step_inQuotes {state : LexState} (h : InQuotes quote state) (c : Char) :
    ((lexer.step state c).1 = [] ∧ InQuotes quote (lexer.step state c).2 ∧
      (lexer.step state c).2.size ≤ state.size + 1) ∨
    ∃ value more, (lexer.step state c).1 = .quoted quote value :: more ∧
      value.length + 1 = state.size := by
  cases h with
  | quoted value => exact .inl ⟨rfl, stepQuoted_inQuotes quote value c⟩
  | escaped value =>
    left
    have hlength := length_escapedText_le c
    simp only [lexer]
    split_ifs
    · exact ⟨trivial, .hex value, le_rfl⟩
    · refine ⟨trivial, .quoted _, ?_⟩
      simp only [LexState.size, length_append]
      omega
  | hex value =>
    left
    simp only [lexer]
    split_ifs
    · exact ⟨trivial, .hexDigit value c, le_rfl⟩
    · obtain ⟨hinside, hsize⟩ := stepQuoted_inQuotes quote (value ++ ['\\', 'x']) c
      exact ⟨trivial, hinside, by simpa [LexState.size] using hsize⟩
  | hexDigit value digit =>
    left
    simp only [lexer]
    split_ifs
    · exact ⟨trivial, .quoted _, by simp [LexState.size]⟩
    · obtain ⟨hinside, hsize⟩ := stepQuoted_inQuotes quote (value ++ ['\\', 'x', digit]) c
      exact ⟨trivial, hinside, by simpa [LexState.size] using hsize⟩
  | closing value =>
    simp only [lexer]
    split_ifs
    · exact .inl ⟨rfl, .quoted _, by simp [LexState.size]⟩
    · exact .inr ⟨value, _, rfl, rfl⟩

theorem run_inQuotes {state : LexState} (h : InQuotes quote state) (text : List Char) :
    ((lexer.run state text).1 = [] ∧ InQuotes quote (lexer.run state text).2 ∧
      (lexer.run state text).2.size ≤ state.size + text.length) ∨
    ∃ value more, (lexer.run state text).1 = .quoted quote value :: more ∧
      value.length + 2 ≤ state.size + text.length := by
  induction text generalizing state with
  | nil => exact .inl ⟨rfl, h, le_rfl⟩
  | cons c text ih =>
    rw [run_cons, length_cons]
    rcases step_inQuotes h c with ⟨hread, hinside, hsize⟩ | ⟨value, more, hread, hsize⟩
    · rw [hread, nil_append]
      dsimp only
      rcases ih hinside with ⟨hread', hinside', hsize'⟩ | ⟨value, more, hread', hsize'⟩
      · exact .inl ⟨hread', hinside', by omega⟩
      · exact .inr ⟨value, more, hread', by omega⟩
    · rw [hread]
      exact .inr ⟨value, more ++ _, rfl, by omega⟩

/-- A text that is read as one quoted value, namely as itself, is not ended by a part of it. -/
theorem Denotes.of_read (h : (lexer.run (.quoted quote []) (text ++ [quote])).2.finish.map
      ((lexer.run (.quoted quote []) (text ++ [quote])).1 ++ ·) = some [.quoted quote text]) :
    Denotes quote text text := by
  obtain ⟨last, hlast, htokens⟩ := Option.map_eq_some_iff.mp h
  rcases run_inQuotes (InQuotes.quoted [] : InQuotes quote _) (text ++ [quote]) with
    ⟨hread, hinside, -⟩ | ⟨value, more, hread, hsize⟩
  · rw [hread, nil_append] at htokens
    subst htokens
    unfold Denotes
    generalize hrun : lexer.run (.quoted quote []) (text ++ [quote]) = result at *
    obtain ⟨read, state⟩ := result
    dsimp only at *
    cases hinside with
    | closing value =>
      simp only [LexState.finish, Option.some.injEq, List.cons.injEq, Token.quoted.injEq] at hlast
      rw [hread, hlast.1.2]
    | _ => simp [LexState.finish] at hlast
  · rw [hread, cons_append, List.cons.injEq, Token.quoted.injEq] at htokens
    obtain ⟨⟨-, rfl⟩, -⟩ := htokens
    simp only [LexState.size, length_nil, length_append, length_singleton] at hsize
    omega

end SqlTide.Foundations.ClickHouse
