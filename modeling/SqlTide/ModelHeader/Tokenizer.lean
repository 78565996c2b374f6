import SqlTide.SqlText.Primitives

/-!
# The tokens of a model header

The text of a header is split into words, quoted strings and symbols, each with its position. White
space is all that can stand between them.
-/

namespace SqlTide.ModelHeader

open Foundations List SqlText

/-- What is wrong with a header. -/
inductive HeaderError
  | braceMapping (position : ℕ)
  | quoteInsideWord (name : String) (position : ℕ)
  | unterminatedEscape (position : ℕ)
  | unterminatedString (name : String) (position : ℕ)
  | colonAfterKey (key : List Char)
  | missingValue (key : List Char)
  | expectedValue (position : ℕ)
  | tooDeep (position : ℕ)
  | expectedKey (position : ℕ)
  | expectedSymbol (symbol : Char) (position : ℕ)
  | unexpectedToken (value : List Char) (position : ℕ)
  deriving DecidableEq, Repr

def maxHeaderNestingDepth : ℕ := 128

def HeaderError.message : HeaderError → String
  | .braceMapping position =>
    "YAML-like brace mappings are not supported at position " ++ toString position ++
      "; use SQLBuild parenthesized mapping syntax"
  | .quoteInsideWord name position =>
    "unexpected " ++ name ++ " quote inside bare value at position " ++ toString position ++
      "; quote the whole value"
  | .unterminatedEscape position => "unterminated escape at position " ++ toString position
  | .unterminatedString name position =>
    "unterminated " ++ name ++ "-quoted string at position " ++ toString position
  | .colonAfterKey key =>
    "unexpected ':' after key '" ++ String.ofList key ++ "'; use SQLBuild syntax '" ++
      String.ofList key ++ " value'"
  | .missingValue key =>
    "unexpected token '" ++ String.ofList key ++ "' without a value; quote values with spaces"
  | .expectedValue position => "expected value at position " ++ toString position
  | .tooDeep position =>
    "nesting deeper than " ++ toString maxHeaderNestingDepth ++ " levels at position " ++
      toString position
  | .expectedKey position => "expected key at position " ++ toString position
  | .expectedSymbol symbol position =>
    "expected '" ++ String.singleton symbol ++ "' at position " ++ toString position
  | .unexpectedToken value position =>
    "unexpected token '" ++ String.ofList value ++ "' at position " ++ toString position

/-- The position that the message names. -/
def HeaderError.position : HeaderError → Option ℕ
  | .braceMapping position | .quoteInsideWord _ position | .unterminatedEscape position
  | .unterminatedString _ position | .expectedValue position | .tooDeep position
  | .expectedKey position | .expectedSymbol _ position | .unexpectedToken _ position =>
    some position
  | .colonAfterKey _ | .missingValue _ => none

/-- `End`, which a name here cannot be, is `stop`. -/
inductive TokenKind
  | stop
  | word
  | text
  | symbol
  deriving DecidableEq, Repr

structure Token where
  kind : TokenKind
  value : List Char
  position : ℕ
  deriving DecidableEq, Repr

def isSymbol (character : Char) : Bool :=
  character = '(' || character = ')' || character = '[' || character = ']' || character = ','

def isBrace (character : Char) : Bool := character = '\x7b' || character = '\x7d'

def quoteName (character : Char) : Option String :=
  if character = '\'' then some "single" else if character = '"' then some "double" else none

/-- What a word ends at in `word_end`. -/
def endsWord (character : Char) : Bool :=
  pythonIsspace character || isSymbol character || isBrace character || character = ':'

/-- `word_end`, as the length of the word that starts here. -/
def wordEnd (index : ℕ) : List Char → Except HeaderError ℕ
  | [] => .ok 0
  | character :: rest =>
    if endsWord character then .ok 0
    else match quoteName character with
      | some name => .error (.quoteInsideWord name index)
      | none => (wordEnd (index + 1) rest).map (· + 1)

/-- The loop of `read_quoted`, from an index behind the opening quote on: the value, and how far it
goes with its closing quote. -/
def readQuoted (quote : Char) (start index : ℕ) : List Char → Except HeaderError (List Char × ℕ)
  | [] => .error (.unterminatedString ((quoteName quote).getD "double") start)
  | character :: rest =>
    if character = '\\' then
      match rest with
      | [] => .error (.unterminatedEscape index)
      | escaped :: rest =>
        (readQuoted quote start (index + 2) rest).map fun (value, length) =>
          (escaped :: value, length + 2)
    else if character = quote then .ok ([], 1)
    else
      (readQuoted quote start (index + 1) rest).map fun (value, length) =>
        (character :: value, length + 1)

/-- The loop of `tokenize`, from an index on: each iteration goes on by a character at least. -/
def tokenizeLoop : ℕ → ℕ → List Char → Except HeaderError (List Token)
  | 0, index, _ => .ok [⟨.stop, [], index⟩]
  | _ + 1, index, [] => .ok [⟨.stop, [], index⟩]
  | fuel + 1, index, character :: rest =>
    if pythonIsspace character then tokenizeLoop fuel (index + 1) rest
    else if isBrace character then .error (.braceMapping index)
    else if isSymbol character || character = ':' then do
      let tokens ← tokenizeLoop fuel (index + 1) rest
      .ok (⟨.symbol, [character], index⟩ :: tokens)
    else if (quoteName character).isSome then do
      let (value, length) ← readQuoted character index (index + 1) rest
      let tokens ← tokenizeLoop fuel (index + 1 + length) (rest.drop length)
      .ok (⟨.text, value, index⟩ :: tokens)
    else do
      let length ← wordEnd index (character :: rest)
      let tokens ← tokenizeLoop fuel (index + length) ((character :: rest).drop length)
      .ok (⟨.word, (character :: rest).take length, index⟩ :: tokens)

def tokenize (characters : List Char) : Except HeaderError (List Token) :=
  tokenizeLoop characters.length 0 characters

variable {text rest value word : List Char} {quote character : Char} {index start length fuel : ℕ}
  {error : HeaderError} {tokens : List Token}

/-- Tokens with their End: it is the last one and the only one. -/
def Ended (tokens : List Token) : Prop :=
  ∃ before last, tokens = before ++ [last] ∧ last.kind = .stop ∧
    ∀ token ∈ before, token.kind ≠ .stop

variable {token : Token}

theorem Ended.cons (h : Ended tokens) (htoken : token.kind ≠ .stop) : Ended (token :: tokens) := by
  obtain ⟨before, last, rfl, hlast, hbefore⟩ := h
  refine ⟨token :: before, last, rfl, hlast, fun other hother => ?_⟩
  rcases mem_cons.mp hother with rfl | hother
  · exact htoken
  · exact hbefore other hother

theorem Ended.exists_cons (h : Ended tokens) : ∃ token rest, tokens = token :: rest := by
  obtain ⟨before, last, rfl, -⟩ := h
  cases before with
  | nil => exact ⟨last, [], rfl⟩
  | cons token before => exact ⟨token, before ++ [last], rfl⟩

theorem Ended.tail {rest : List Token} (h : Ended (token :: rest))
    (htoken : token.kind ≠ .stop) : Ended rest := by
  obtain ⟨before, last, hsplit, hlast, hbefore⟩ := h
  cases before with
  | nil =>
    obtain ⟨rfl, -⟩ := List.cons.inj hsplit
    exact absurd hlast htoken
  | cons first before =>
    obtain ⟨-, rfl⟩ := List.cons.inj hsplit
    exact ⟨before, last, rfl, hlast, fun other hother =>
      hbefore other (mem_cons_of_mem _ hother)⟩

theorem exists_position_mono {bound bound' : ℕ} (h : ∃ position ∈ error.position, position < bound)
    (hle : bound ≤ bound') : ∃ position ∈ error.position, position < bound' := by
  obtain ⟨position, hposition, hlt⟩ := h
  exact ⟨position, hposition, hlt.trans_le hle⟩

theorem wordEnd_bounds (text : List Char) (index : ℕ) :
    match wordEnd index text with
    | .ok length => length ≤ text.length
    | .error error => ∃ position ∈ error.position, position < index + text.length := by
  induction text generalizing index with
  | nil => exact le_rfl
  | cons character rest ih =>
    rw [wordEnd]
    split_ifs
    · exact Nat.zero_le _
    · cases quoteName character with
      | some name => exact ⟨index, rfl, by simp⟩
      | none =>
        have hrest := ih (index + 1)
        cases hword : wordEnd (index + 1) rest with
        | ok length =>
          rw [hword] at hrest
          exact Nat.succ_le_succ hrest
        | error error =>
          rw [hword] at hrest
          exact exists_position_mono hrest (by rw [length_cons]; omega)

theorem wordEnd_pos (h : wordEnd index (character :: rest) = .ok length)
    (hends : endsWord character = false) : 0 < length := by
  rw [wordEnd, if_neg (by simp [hends])] at h
  cases hquote : quoteName character with
  | some name =>
    rw [hquote] at h
    cases h
  | none =>
    rw [hquote] at h
    obtain ⟨_, _, rfl⟩ := map_eq_ok.mp h
    exact Nat.succ_pos _

theorem readQuoted_bounds (text : List Char) (quote : Char) (hstart : start < index) :
    match readQuoted quote start index text with
    | .ok (_, length) => length ≤ text.length
    | .error error => ∃ position ∈ error.position, position < index + text.length := by
  fun_induction readQuoted quote start index text with
  | case1 => exact ⟨start, rfl, by omega⟩
  | case2 => exact ⟨_, rfl, by simp⟩
  | case3 index escaped rest ih =>
    have hrest := ih (by omega)
    cases hread : readQuoted quote start (index + 2) rest with
    | ok read =>
      rw [hread] at hrest
      exact Nat.add_le_add_right hrest 2
    | error error =>
      rw [hread] at hrest
      exact exists_position_mono hrest (by simp only [length_cons]; omega)
  | case4 => exact Nat.succ_le_succ (Nat.zero_le _)
  | case5 index character rest _ _ ih =>
    have hrest := ih (by omega)
    cases hread : readQuoted quote start (index + 1) rest with
    | ok read =>
      rw [hread] at hrest
      exact Nat.add_le_add_right hrest 1
    | error error =>
      rw [hread] at hrest
      exact exists_position_mono hrest (by simp only [length_cons]; omega)

/-- Tokens are positioned in their text, and so are the errors. -/
def TokensOutcome (bound : ℕ) : Except HeaderError (List Token) → Prop
  | .ok tokens => Ended tokens ∧ ∀ token ∈ tokens, token.position ≤ bound
  | .error error => ∃ position ∈ error.position, position < bound

theorem TokensOutcome.cons {bound : ℕ} {result : Except HeaderError (List Token)}
    (h : TokensOutcome bound result) (htoken : token.kind ≠ .stop)
    (hposition : token.position ≤ bound) :
    TokensOutcome bound (result >>= fun tokens => .ok (token :: tokens)) := by
  cases result with
  | error error => exact h
  | ok tokens =>
    refine ⟨h.1.cons htoken, fun other hother => ?_⟩
    rcases mem_cons.mp hother with rfl | hother
    · exact hposition
    · exact h.2 other hother

theorem ended_stop : Ended [⟨.stop, [], index⟩] := ⟨[], _, rfl, rfl, by simp⟩

theorem tokenizeLoop_outcome (fuel : ℕ) : ∀ {index bound : ℕ} {text : List Char},
    text.length ≤ fuel → bound = index + text.length →
    TokensOutcome bound (tokenizeLoop fuel index text) := by
  induction fuel with
  | zero =>
    intro index bound text hfuel hbound
    exact ⟨ended_stop, by simp; omega⟩
  | succ fuel ih =>
    intro index bound text hfuel hbound
    cases text with
    | nil => exact ⟨ended_stop, by simp; omega⟩
    | cons character rest =>
      rw [length_cons] at hfuel hbound
      rw [tokenizeLoop]
      split_ifs with hspace hbrace hsymbol hquote
      · exact ih (by omega) (by omega)
      · exact ⟨index, rfl, by omega⟩
      · exact (ih (by omega) (by omega)).cons (by simp) (by dsimp only; omega)
      · have hbounds := readQuoted_bounds rest character (Nat.lt_succ_self index)
        cases hread : readQuoted character index (index + 1) rest with
        | error error =>
          rw [hread] at hbounds
          exact exists_position_mono hbounds (by omega)
        | ok read =>
          rw [hread] at hbounds
          obtain ⟨value, length⟩ := read
          have hlength : length ≤ rest.length := hbounds
          exact (ih (by rw [length_drop]; omega) (by rw [length_drop]; omega)).cons
            (by simp) (by dsimp only; omega)
      · have hbounds := wordEnd_bounds (character :: rest) index
        cases hword : wordEnd index (character :: rest) with
        | error error =>
          rw [hword] at hbounds
          exact exists_position_mono hbounds (by rw [length_cons]; omega)
        | ok length =>
          rw [hword] at hbounds
          have hlength : length ≤ rest.length + 1 := hbounds
          have hpositive : 0 < length := by
            apply wordEnd_pos hword
            simp only [Bool.not_eq_true] at hspace hbrace hsymbol
            rw [Bool.or_eq_false_iff] at hsymbol
            simp [endsWord, hspace, hbrace, hsymbol]
          refine (ih ?_ ?_).cons (by simp) (by dsimp only; omega)
          · rw [length_drop, length_cons]
            omega
          · rw [length_drop, length_cons]
            omega

/-- Every text has tokens that come to their End, or an error at a position in it. -/
theorem tokenize_outcome (text : List Char) : TokensOutcome text.length (tokenize text) :=
  tokenizeLoop_outcome _ le_rfl (by omega)

structure IsWord (word : List Char) : Prop where
  ne_nil : word ≠ []
  all : ∀ character ∈ word, endsWord character = false ∧ quoteName character = none

/-- What stands between the quotes for a value: a backslash makes every character stand for
itself. -/
inductive QuotedText (quote : Char) : List Char → List Char → Prop
  | nil : QuotedText quote [] []
  | plain {character : Char} {value text : List Char} : character ≠ quote → character ≠ '\\' →
      QuotedText quote value text → QuotedText quote (character :: value) (character :: text)
  | escaped {character : Char} {value text : List Char} : QuotedText quote value text →
      QuotedText quote (character :: value) ('\\' :: character :: text)

/-- The text of a token. -/
inductive TokenText : TokenKind → List Char → List Char → Prop
  | word {word : List Char} : IsWord word → TokenText .word word word
  | quoted {quote : Char} {value text : List Char} : (quoteName quote).isSome →
      QuotedText quote value text → TokenText .text value (quote :: text ++ [quote])
  | symbol {character : Char} : isSymbol character → TokenText .symbol [character] [character]

/-- Tokens laid out in a text from an index on, with white space anywhere between them. A word goes
up to white space or a symbol. -/
inductive LaidOut : ℕ → List Token → List Char → Prop
  | stop {index : ℕ} {gap : List Char} : (∀ character ∈ gap, pythonIsspace character = true) →
      LaidOut index [] gap
  | cons {index : ℕ} {gap value text rest : List Char} {kind : TokenKind} {tokens : List Token} :
      (∀ character ∈ gap, pythonIsspace character = true) → TokenText kind value text →
      (kind = .word → ∀ character ∈ rest.head?, endsWord character = true) →
      LaidOut (index + gap.length + text.length) tokens rest →
      LaidOut index (⟨kind, value, index + gap.length⟩ :: tokens) (gap ++ (text ++ rest))

theorem wordEnd_word
    (h : ∀ character ∈ word, endsWord character = false ∧ quoteName character = none)
    (hrest : ∀ character ∈ rest.head?, endsWord character = true) (index : ℕ) :
    wordEnd index (word ++ rest) = .ok word.length := by
  induction word generalizing index with
  | nil =>
    cases rest with
    | nil => rfl
    | cons character rest => rw [nil_append, wordEnd, if_pos (hrest character rfl)]; rfl
  | cons character word ih =>
    obtain ⟨hends, hquote⟩ := h character mem_cons_self
    have hword := ih (fun c hc => h c (mem_cons_of_mem _ hc)) (index + 1)
    rw [cons_append, wordEnd, if_neg (by simp [hends]), hquote, hword]
    rfl

theorem readQuoted_quotedText (h : QuotedText quote value text) (hquote : quote ≠ '\\')
    (start index : ℕ) :
    readQuoted quote start index (text ++ quote :: rest) = .ok (value, text.length + 1) := by
  induction h generalizing index with
  | nil =>
    rw [nil_append, readQuoted.eq_def]
    dsimp only
    rw [if_neg hquote, if_pos rfl]
    rfl
  | plain hother hescape _ ih =>
    rw [cons_append, readQuoted.eq_def]
    dsimp only
    rw [if_neg hescape, if_neg hother, ih]
    rfl
  | escaped _ ih =>
    rw [cons_append, cons_append, readQuoted.eq_def]
    dsimp only
    rw [if_pos rfl, ih]
    rfl

theorem tokenizeLoop_gap {gap : List Char} (h : ∀ character ∈ gap, pythonIsspace character = true)
    (fuel index : ℕ) (text : List Char) :
    tokenizeLoop (gap.length + fuel) index (gap ++ text) =
      tokenizeLoop fuel (index + gap.length) text := by
  induction gap generalizing index with
  | nil => simp
  | cons character gap ih =>
    have hgap := ih (fun c hc => h c (mem_cons_of_mem _ hc)) (index + 1)
    rw [length_cons, Nat.add_right_comm, cons_append, tokenizeLoop,
      if_pos (h character mem_cons_self), hgap]
    congr 1
    omega

theorem tokenizeLoop_nil (fuel index : ℕ) : tokenizeLoop fuel index [] = .ok
    [⟨.stop, [], index⟩] := by
  cases fuel <;> rfl

theorem eq_of_isSome_quoteName (h : (quoteName character).isSome) :
    character = '\'' ∨ character = '"' := by
  unfold quoteName at h
  split_ifs at h with hsingle hdouble
  · exact Or.inl hsingle
  · exact Or.inr hdouble
  · cases h

theorem tokenizeLoop_token {kind : TokenKind} (h : TokenText kind value text)
    (hword : kind = .word → ∀ character ∈ rest.head?, endsWord character = true)
    (hfuel : rest.length ≤ fuel) (index : ℕ) :
    ∃ fuel', rest.length ≤ fuel' ∧ tokenizeLoop (text.length + fuel) index (text ++ rest) =
      (tokenizeLoop fuel' (index + text.length) rest).map (⟨kind, value, index⟩ :: ·) := by
  cases h with
  | word h =>
    obtain ⟨first, word, rfl⟩ := exists_cons_of_ne_nil h.ne_nil
    obtain ⟨hends, hquote⟩ := h.all first mem_cons_self
    have hlength := @wordEnd_word rest (first :: word) h.all (hword rfl) index
    simp only [endsWord, Bool.or_eq_false_iff, decide_eq_false_iff_not] at hends
    obtain ⟨⟨⟨hspace, hsymbol⟩, hbrace⟩, hcolon⟩ := hends
    refine ⟨word.length + fuel, by omega, ?_⟩
    rw [length_cons, Nat.add_right_comm, cons_append, tokenizeLoop,
      if_neg (by simp [hspace]), if_neg (by simp [hbrace]), if_neg (by simp [hsymbol, hcolon]),
      if_neg (by simp [hquote]), ← cons_append, hlength]
    show (tokenizeLoop (word.length + fuel) (index + (first :: word).length)
      ((first :: word ++ rest).drop (first :: word).length)).bind _ = _
    rw [drop_left, take_left]
    cases tokenizeLoop (word.length + fuel) (index + (first :: word).length) rest <;> rfl
  | @quoted quote _ text hquote htext =>
    have hescape : quote ≠ '\\' := by
      rcases eq_of_isSome_quoteName hquote with rfl | rfl <;> decide
    have hcode : pythonIsspace quote = false ∧ isBrace quote = false ∧
        (isSymbol quote || quote = ':') = false := by
      rcases eq_of_isSome_quoteName hquote with rfl | rfl <;> decide
    obtain ⟨hspace, hbrace, hsymbol⟩ := hcode
    have hread := @readQuoted_quotedText text rest value quote htext hescape index (index + 1)
    refine ⟨text.length + 1 + fuel, by omega, ?_⟩
    have hlength : (quote :: text ++ [quote]).length + fuel = text.length + 1 + fuel + 1 := by
      simp only [cons_append, length_cons, length_append, length_nil]
      omega
    have hdrop : (text ++ quote :: rest).drop (text.length + 1) = rest := by
      rw [← drop_drop, drop_left]
      rfl
    have hindex : index + 1 + (text.length + 1) = index + (quote :: text ++ [quote]).length := by
      simp only [cons_append, length_cons, length_append, length_nil]
      omega
    have htext : quote :: text ++ [quote] ++ rest = quote :: (text ++ quote :: rest) := by simp
    rw [hlength, htext, tokenizeLoop, if_neg (by simp [hspace]), if_neg (by simp [hbrace]),
      if_neg (by simp [hsymbol]), if_pos hquote, hread]
    show (tokenizeLoop (text.length + 1 + fuel) (index + 1 + (text.length + 1))
      ((text ++ quote :: rest).drop (text.length + 1))).bind _ = _
    rw [hdrop, hindex]
    cases tokenizeLoop (text.length + 1 + fuel) (index + (quote :: text ++ [quote]).length)
      rest <;> rfl
  | @symbol character hsymbol =>
    have hcode : pythonIsspace character = false ∧ isBrace character = false := by
      rcases (by simpa [isSymbol, or_assoc] using hsymbol : character = '(' ∨ character = ')' ∨
        character = '[' ∨ character = ']' ∨ character = ',') with
          rfl | rfl | rfl | rfl | rfl <;> decide
    refine ⟨fuel, hfuel, ?_⟩
    rw [length_singleton, Nat.add_comm, singleton_append, tokenizeLoop,
      if_neg (by simp [hcode.1]), if_neg (by simp [hcode.2]), if_pos (by simp [hsymbol])]
    cases tokenizeLoop fuel (index + 1) rest <;> rfl

theorem tokenizeLoop_laidOut (h : LaidOut index tokens text) (fuel : ℕ)
    (hfuel : text.length ≤ fuel) :
    tokenizeLoop fuel index text = .ok (tokens ++ [⟨.stop, [], index + text.length⟩]) := by
  induction h generalizing fuel with
  | @stop index gap hgap =>
    obtain ⟨more, rfl⟩ := Nat.exists_eq_add_of_le hfuel
    have hrun := tokenizeLoop_gap hgap more index []
    rw [append_nil, tokenizeLoop_nil] at hrun
    exact hrun
  | @cons index gap value text rest kind tokens hgap htoken hword _ ih =>
    rw [length_append, length_append] at hfuel
    obtain ⟨more, rfl⟩ := Nat.exists_eq_add_of_le (by omega : gap.length + text.length ≤ fuel)
    obtain ⟨fuel', hfuel', hrun⟩ :=
      tokenizeLoop_token htoken hword (by omega : rest.length ≤ more) (index + gap.length)
    rw [Nat.add_assoc, tokenizeLoop_gap hgap, hrun, ih fuel' hfuel', length_append, length_append]
    simp only [Except.map, cons_append]
    congr 5
    omega

end SqlTide.ModelHeader
