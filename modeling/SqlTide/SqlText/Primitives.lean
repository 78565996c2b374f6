import Mathlib.Data.List.DropRight
import SqlTide.Foundations.Failures

/-!
# The primitives of the text scans

Characters are classified as Python does it. Comments, quoted text and white space are skipped by
their indices in the text.
-/

namespace SqlTide.SqlText

/-- `python_isspace`: the white space of Unicode and the four separator controls. -/
def pythonIsspace (character : Char) : Bool :=
  let code := character.toNat
  (9 ≤ code && code ≤ 13) || (28 ≤ code && code ≤ 32) || code = 0x85 || code = 0xa0 ||
    code = 0x1680 || (0x2000 ≤ code && code ≤ 0x200a) || code = 0x2028 || code = 0x2029 ||
    code = 0x202f || code = 0x205f || code = 0x3000

/-- The tables `PYTHON_ALPHA` and `PYTHON_ALNUM` of the characters beyond ASCII, and the upper case
of Unicode. -/
structure PythonTables where
  alpha : Char → Bool
  alnum : Char → Bool
  toUppercase : Char → List Char
  alnum_of_alpha : ∀ character, alpha character = true → alnum character = true
  not_alnum_of_isspace : ∀ character, pythonIsspace character = true → alnum character = false
  toUppercase_ascii : ∀ character, character.toNat < 128 →
    toUppercase character = [character.toUpper]

/-- The tables without the characters beyond ASCII. -/
def asciiTables : PythonTables where
  alpha _ := false
  alnum _ := false
  toUppercase character := [character.toUpper]
  alnum_of_alpha _ h := h
  not_alnum_of_isspace _ _ := rfl
  toUppercase_ascii _ _ := rfl

variable (tables : PythonTables)

def pythonIsalpha (character : Char) : Bool :=
  if character.toNat < 128 then character.isAlpha else tables.alpha character

def pythonIsalnum (character : Char) : Bool :=
  if character.toNat < 128 then character.isAlphanum else tables.alnum character

def pythonStrip (characters : List Char) : List Char :=
  (characters.dropWhile pythonIsspace).rdropWhile pythonIsspace

def pythonUpper (characters : List Char) : String :=
  String.ofList (characters.flatMap tables.toUppercase)

def isQuote (character : Char) : Bool := character = '\'' || character = '"' || character = '`'

def isIdentifierStart (character : Char) : Bool :=
  character = '_' || pythonIsalpha tables character

def isIdentifierCharacter (character : Char) : Bool :=
  character = '_' || pythonIsalnum tables character

/-- A half-open range of characters, with line and column numbers from 1 for both ends. -/
structure SourceSpan where
  start : ℕ
  stop : ℕ
  line : ℕ
  column : ℕ
  endLine : ℕ
  endColumn : ℕ
  deriving DecidableEq, Repr

inductive ScanErrorKind
  | analysis
  | missingWithClause
  deriving DecidableEq, Repr

structure ScanError where
  kind : ScanErrorKind
  message : String
  span : Option SourceSpan
  deriving DecidableEq, Repr

abbrev ScanResult (α : Type) := Except ScanError α

def lineAndColumn (sql : List Char) (offset : ℕ) : ℕ × ℕ :=
  let before := sql.take offset
  (before.count '\n' + 1,
    match before.reverse.findIdx? (· = '\n') with
    | none => offset + 1
    | some back => offset - (before.length - 1 - back))

def sourceSpan (sql : List Char) (start stop : ℕ) : SourceSpan :=
  ⟨start, stop, (lineAndColumn sql start).1, (lineAndColumn sql start).2,
    (lineAndColumn sql stop).1, (lineAndColumn sql stop).2⟩

/-- `ScanError::located`. -/
def ScanError.located (sql : List Char) (message : String) (start stop : ℕ) : ScanError :=
  ⟨.analysis, message, some (sourceSpan sql start stop)⟩

/-- `ScanError::unlocated`. -/
def ScanError.unlocated (message : String) : ScanError := ⟨.analysis, message, none⟩

def referenceContext : String := "SQL reference"

/-- `is_line_comment_start`, of the text from an index on. -/
def isLineCommentStart (sql : List Char) : Bool :=
  ['-', '-'].isPrefixOf sql || ['#'].isPrefixOf sql

def isBlockCommentStart (sql : List Char) : Bool := ['/', '*'].isPrefixOf sql

/-- How far quoted text goes beyond its opening quote: doubled and escaped delimiters do not close
it. -/
def quotedLength (quote : Char) : List Char → Option ℕ
  | [] => none
  | [character] => if character = quote then some 1 else none
  | character :: next :: rest =>
    if character = '\\' then (quotedLength quote rest).map (· + 2)
    else if character = quote then
      if next = quote then (quotedLength quote rest).map (· + 2) else some 1
    else (quotedLength quote (next :: rest)).map (· + 1)

def skipQuotedText (sql : List Char) (start : ℕ) (quote : Char) : ScanResult ℕ :=
  match quotedLength quote (sql.drop (start + 1)) with
  | some length => .ok (start + 1 + length)
  | none =>
    .error (.located sql (referenceContext ++ " contains unclosed quoted text") start sql.length)

/-- `skip_line_comment`: including the newline. -/
def skipLineComment (sql : List Char) (start : ℕ) : ℕ :=
  match (sql.drop start).findIdx? (· = '\n') with
  | some offset => start + offset + 1
  | none => sql.length

/-- How far a block comment goes beyond its opening. -/
def blockLength : List Char → Option ℕ
  | [] => none
  | [_] => none
  | character :: next :: rest =>
    if character = '*' ∧ next = '/' then some 2 else (blockLength (next :: rest)).map (· + 1)

def skipBlockComment (sql : List Char) (start : ℕ) : ScanResult ℕ :=
  match blockLength (sql.drop (start + 2)) with
  | some length => .ok (start + 2 + length)
  | none =>
    .error (.located sql (referenceContext ++ " contains an unclosed block comment") start
      sql.length)

/-- The loop of `skip_trivia`: each iteration goes on by a character at least. -/
def skipTriviaLoop (sql : List Char) : ℕ → ℕ → ScanResult ℕ
  | 0, index => .ok index
  | fuel + 1, index =>
    match sql.drop index with
    | [] => .ok index
    | character :: rest =>
      if pythonIsspace character then skipTriviaLoop sql fuel (index + 1)
      else if isLineCommentStart (character :: rest) then
        skipTriviaLoop sql fuel (skipLineComment sql index)
      else if isBlockCommentStart (character :: rest) then do
        let index ← skipBlockComment sql index
        skipTriviaLoop sql fuel index
      else .ok index

/-- `skip_trivia`: white space and comments. -/
def skipTrivia (sql : List Char) (start : ℕ) : ScanResult ℕ :=
  skipTriviaLoop sql (sql.length - start) start

end SqlTide.SqlText
