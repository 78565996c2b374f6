import Mathlib.Data.String.Basic

/-!
# Text operations of the Python standard library

`repr` of strings and of tuples of strings, as f-strings insert them into error
messages, and the case folding used before names are compared.
-/

namespace SqlTide.Foundations

open List

/-- Two lower case hexadecimal digits. -/
def hexByte (n : ℕ) : List Char := [Nat.digitChar (n / 16 % 16), Nat.digitChar (n % 16)]

/-- One character inside `repr(s)`. Above U+00FF every character counts as printable. -/
def reprChar (delimiter c : Char) : List Char :=
  if c = '\\' ∨ c = delimiter then ['\\', c]
  else if c = '\t' then ['\\', 't']
  else if c = '\n' then ['\\', 'n']
  else if c = '\r' then ['\\', 'r']
  else if c.toNat < 32 ∨ (127 ≤ c.toNat ∧ c.toNat ≤ 160) ∨ c.toNat = 173 then
    ['\\', 'x'] ++ hexByte c.toNat
  else [c]

/-- `repr(s)`: single quotes, unless only double quotes avoid an escape. -/
def pyRepr (s : String) : String :=
  let delimiter := if '\'' ∈ s.toList ∧ '"' ∉ s.toList then '"' else '\''
  String.ofList (delimiter :: (s.toList.flatMap (reprChar delimiter) ++ [delimiter]))

/-- `repr` of a tuple of strings; a tuple of one keeps its comma. -/
def pyReprTuple : List String → String
  | [] => "()"
  | [s] => "(" ++ pyRepr s ++ ",)"
  | ss => "(" ++ ", ".intercalate (ss.map pyRepr) ++ ")"

/-- Digits in groups of three, given from the last digit on. -/
def groupThousands : List Char → List Char
  | a :: b :: c :: d :: rest => a :: b :: c :: ',' :: groupThousands (d :: rest)
  | digits => digits

/-- `format(n, ",")`. -/
def commaFormat (n : Int) : String :=
  let digits := String.ofList (groupThousands (Nat.toDigits 10 n.natAbs).reverse).reverse
  if n < 0 then "-" ++ digits else digits

/-- The characters whose case folding consists of ASCII letters; any other
character folds to something that no ASCII text contains. -/
def casefoldChar (c : Char) : List Char :=
  match c with
  | 'ſ' => ['s']
  | '\u212a' => ['k']
  | 'ß' | 'ẞ' => ['s', 's']
  | 'ﬀ' => ['f', 'f']
  | 'ﬁ' => ['f', 'i']
  | 'ﬂ' => ['f', 'l']
  | 'ﬃ' => ['f', 'f', 'i']
  | 'ﬄ' => ['f', 'f', 'l']
  | 'ﬅ' | 'ﬆ' => ['s', 't']
  | c => [c.toLower]

/-- `s.casefold()`, as far as it can be compared with ASCII text. -/
def casefold (s : String) : String := String.ofList (s.toList.flatMap casefoldChar)

/-- `text.startswith(start)`. -/
def startsWith (text start : String) : Bool := start.toList.isPrefixOf text.toList

def replaceFirstChars (old new : List Char) : List Char → List Char
  | [] => if old = [] then new else []
  | c :: cs =>
    if old.isPrefixOf (c :: cs) then new ++ (c :: cs).drop old.length
    else c :: replaceFirstChars old new cs

/-- `text.replace(old, new, 1)`. -/
def replaceFirst (text old new : String) : String :=
  String.ofList (replaceFirstChars old.toList new.toList text.toList)

theorem startsWith_iff {text start : String} :
    startsWith text start = true ↔ ∃ rest, text = start ++ rest := by
  rw [startsWith, isPrefixOf_iff_prefix]
  constructor
  · rintro ⟨rest, hrest⟩
    refine ⟨String.ofList rest, String.toList_inj.mp ?_⟩
    rw [String.toList_append, String.toList_ofList, hrest]
  · rintro ⟨rest, rfl⟩
    rw [String.toList_append]
    exact prefix_append _ _

theorem startsWith_append (start rest : String) : startsWith (start ++ rest) start = true :=
  startsWith_iff.mpr ⟨rest, rfl⟩

theorem append_ne_append {a b : String} (hab : startsWith a b = false)
    (hba : startsWith b a = false) (x y : String) : a ++ x ≠ b ++ y := by
  intro h
  have ha : a.toList <+: (a ++ x).toList := by
    rw [String.toList_append]
    exact prefix_append _ _
  have hb : b.toList <+: (a ++ x).toList := by
    rw [h, String.toList_append]
    exact prefix_append _ _
  rcases prefix_or_prefix_of_prefix ha hb with hle | hle
  · rw [← isPrefixOf_iff_prefix] at hle
    simp [startsWith, hle] at hba
  · rw [← isPrefixOf_iff_prefix] at hle
    simp [startsWith, hle] at hab

theorem append_right_injective (start : String) : Function.Injective (start ++ ·) := by
  intro x y h
  have hchars : (start ++ x).toList = (start ++ y).toList := congrArg String.toList h
  rw [String.toList_append, String.toList_append] at hchars
  exact String.toList_inj.mp (append_cancel_left hchars)

theorem replaceFirst_append {old : String} (hold : old ≠ "") (rest new : String) :
    replaceFirst (old ++ rest) old new = new ++ rest := by
  have hstart : old.toList.isPrefixOf (old ++ rest).toList = true := startsWith_append old rest
  rw [replaceFirst, ← String.toList_inj, String.toList_ofList, String.toList_append (s := new)]
  cases htext : (old ++ rest).toList with
  | nil =>
    rw [String.toList_append] at htext
    exact absurd (String.toList_inj.mp (append_eq_nil_iff.mp htext).1) hold
  | cons c cs =>
    rw [htext] at hstart
    rw [replaceFirstChars, if_pos hstart, ← htext, String.toList_append, drop_left]

end SqlTide.Foundations
