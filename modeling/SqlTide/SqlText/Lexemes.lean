import SqlTide.Foundations.Brackets
import SqlTide.Foundations.Transducers
import SqlTide.SqlText.Primitives

/-!
# Tokens and comments

A text is read as a sequence of tokens and comments by a transducer over its characters, which
looks one character ahead. White space is dropped. Where a text is read to its end before what
follows it, the two can be read on their own.
-/

namespace SqlTide.SqlText

open Foundations Transducer

inductive Lexeme
  | word (text : List Char)
  | number (text : List Char)
  | quoted (text : List Char)
  | symbol (character : Char)
  | lineComment (text : List Char)
  | blockComment (text : List Char)
  deriving DecidableEq, Repr

def Lexeme.isComment : Lexeme → Bool
  | .lineComment _ | .blockComment _ => true
  | _ => false

def Lexeme.isLineComment : Lexeme → Bool
  | .lineComment _ => true
  | _ => false

def parenthesis : Lexeme → Option Bracket
  | .symbol '(' => some .opening
  | .symbol ')' => some .closing
  | _ => none

/-- What has been read of a lexeme. A character that may begin a comment, and a quote that may be
doubled, wait for the next character. -/
inductive Mode
  | code
  | word (text : List Char)
  | number (text : List Char)
  | quoted (quote : Char) (text : List Char)
  | escaped (quote : Char) (text : List Char)
  | closing (quote : Char) (text : List Char)
  | dash
  | slash
  | line (text : List Char)
  | block (text : List Char)
  | star (text : List Char)
  deriving DecidableEq, Repr

/-- The lexeme that has been read. -/
def Mode.flush : Mode → List Lexeme
  | .word text => [.word text]
  | .number text => [.number text]
  | .closing _ text => [.quoted text]
  | .dash => [.symbol '-']
  | .slash => [.symbol '/']
  | .line text => [.lineComment text]
  | .code | .quoted _ _ | .escaped _ _ | .block _ | .star _ => []

/-- Whether a text can end here. -/
def Mode.closed : Mode → Bool
  | .quoted _ _ | .escaped _ _ | .block _ | .star _ => false
  | _ => true

def Mode.isLine : Mode → Bool
  | .line _ => true
  | _ => false

/-- The quote of quoted text. -/
def Mode.delimiter : Mode → Option Char
  | .quoted quote _ | .escaped quote _ | .closing quote _ => some quote
  | _ => none

variable (tables : PythonTables)

/-- The first character of a lexeme. -/
def startLexeme (character : Char) : List Lexeme × Mode :=
  if pythonIsspace character then ([], .code)
  else if character = '#' then ([], .line ['#'])
  else if character = '-' then ([], .dash)
  else if character = '/' then ([], .slash)
  else if isQuote character then ([], .quoted character [character])
  else if isIdentifierStart tables character then ([], .word [character])
  else if isIdentifierCharacter tables character then ([], .number [character])
  else ([.symbol character], .code)

/-- The lexeme that has been read is followed by this character. -/
def endLexeme (mode : Mode) (character : Char) : List Lexeme × Mode :=
  (mode.flush ++ (startLexeme tables character).1, (startLexeme tables character).2)

def readCharacter (mode : Mode) (character : Char) : List Lexeme × Mode :=
  match mode with
  | .code => startLexeme tables character
  | .word text =>
    if isIdentifierCharacter tables character then ([], .word (text ++ [character]))
    else endLexeme tables mode character
  | .number text =>
    if isIdentifierCharacter tables character && !isIdentifierStart tables character then
      ([], .number (text ++ [character]))
    else endLexeme tables mode character
  | .quoted quote text =>
    if character = '\\' then ([], .escaped quote (text ++ [character]))
    else if character = quote then ([], .closing quote (text ++ [character]))
    else ([], .quoted quote (text ++ [character]))
  | .escaped quote text => ([], .quoted quote (text ++ [character]))
  | .closing quote text =>
    if character = quote then ([], .quoted quote (text ++ [character]))
    else endLexeme tables mode character
  | .dash => if character = '-' then ([], .line ['-', '-']) else endLexeme tables mode character
  | .slash => if character = '*' then ([], .block ['/', '*']) else endLexeme tables mode character
  | .line text =>
    if character = '\n' then ([.lineComment text], .code) else ([], .line (text ++ [character]))
  | .block text =>
    if character = '*' then ([], .star (text ++ [character])) else
      ([], .block (text ++ [character]))
  | .star text =>
    if character = '/' then ([.blockComment (text ++ [character])], .code)
    else if character = '*' then ([], .star (text ++ [character]))
    else ([], .block (text ++ [character]))

def lexer : Transducer Mode Char Lexeme := ⟨readCharacter tables⟩

/-- The tokens and comments of a text, unless it leaves a quote or a block comment open. -/
def lexemes (text : List Char) : Option (List Lexeme) :=
  let read := (lexer tables).run .code text
  if read.2.closed then some (read.1 ++ read.2.flush) else none

/-- The mode comes to an end before what follows. -/
def Mode.EndsBefore (mode : Mode) (rest : List Char) : Prop :=
  mode.closed = true ∧
    ∀ character ∈ rest.head?, readCharacter tables mode character = endLexeme tables mode character

/-- Before the rest, a text is read as these lexemes. -/
def Reads (text : List Char) (ls : List Lexeme) (rest : List Char) : Prop :=
  ((lexer tables).run .code text).1 ++ ((lexer tables).run .code text).2.flush = ls ∧
    ((lexer tables).run .code text).2.EndsBefore tables rest

variable {tables} {text text' rest : List Char} {ls ls' : List Lexeme} {mode : Mode}
  {character : Char}

theorem run_of_endsBefore (h : mode.EndsBefore tables (character :: rest)) :
    (lexer tables).run mode (character :: rest) =
      (mode.flush ++ ((lexer tables).run .code (character :: rest)).1,
        ((lexer tables).run .code (character :: rest)).2) := by
  have hread : (lexer tables).step mode character = endLexeme tables mode character :=
    h.2 character rfl
  have hcode : (lexer tables).step .code character = startLexeme tables character := rfl
  rw [run_cons, run_cons, hread, hcode, endLexeme, List.append_assoc]

theorem Reads.lexemes_append (h : Reads tables text ls rest) :
    lexemes tables (text ++ rest) = (lexemes tables rest).map (ls ++ ·) := by
  obtain ⟨rfl, hends⟩ := h
  unfold lexemes
  rw [run_append]
  cases rest with
  | nil =>
    have hclosed : ((lexer tables).run .code text).2.closed = true := hends.1
    have hcode : Mode.code.closed = true := rfl
    rw [run_nil, run_nil, List.append_nil]
    dsimp only
    rw [if_pos hclosed, if_pos hcode]
    simp [Mode.flush]
  | cons character rest =>
    rw [run_of_endsBefore hends]
    dsimp only
    split_ifs
    · simp [List.append_assoc]
    · rfl

theorem Reads.append (h : Reads tables text ls (text' ++ rest)) (h' : Reads tables text' ls' rest) :
    Reads tables (text ++ text') (ls ++ ls') rest := by
  obtain ⟨rfl, hends⟩ := h
  obtain ⟨rfl, hends'⟩ := h'
  unfold Reads
  rw [run_append]
  cases text' with
  | nil => exact ⟨by simp [Mode.flush], hends⟩
  | cons character text' =>
    have hends : Mode.EndsBefore tables _ (character :: text') := hends
    rw [run_of_endsBefore hends]
    exact ⟨by simp [List.append_assoc], hends'⟩

theorem code_endsBefore : Mode.code.EndsBefore tables rest := ⟨rfl, fun _ _ => rfl⟩

theorem Reads.nil : Reads tables [] [] rest := ⟨rfl, code_endsBefore⟩

theorem Reads.lexemes_eq (h : Reads tables text ls []) : lexemes tables text = some ls := by
  have happend := h.lexemes_append
  have hnil : lexemes tables [] = some [] := rfl
  rw [List.append_nil, hnil] at happend
  simpa using happend

end SqlTide.SqlText
