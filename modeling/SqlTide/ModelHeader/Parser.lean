import SqlTide.ModelHeader.Tokenizer

/-!
# The parser of a model header

A header is a map of keys and values. The parser goes over the tokens and counts how deep it is
inside of lists and maps. It comes to an end on every list of tokens, and never goes past the End.
-/

namespace SqlTide.ModelHeader

open Foundations List SqlText

/-- A number keeps its text. -/
inductive HeaderValue
  | null
  | bool (value : Bool)
  | integer (text : List Char)
  | float (text : List Char)
  | text (text : List Char)
  | list (values : List HeaderValue)
  | map (entries : List (List Char × HeaderValue))

def stripSign : List Char → List Char
  | '+' :: word => word
  | '-' :: word => word
  | word => word

def isInteger (word : List Char) : Bool :=
  !(stripSign word).isEmpty && (stripSign word).all Char.isDigit

def isFloat (word : List Char) : Bool :=
  let whole := (stripSign word).takeWhile (· ≠ '.')
  match (stripSign word).dropWhile (· ≠ '.') with
  | [] => false
  | _ :: fraction =>
    whole.all Char.isDigit && fraction.all Char.isDigit && !(whole.isEmpty && fraction.isEmpty)

def wordValue (word : List Char) : HeaderValue :=
  if word = "true".toList then .bool true
  else if word = "false".toList then .bool false
  else if word = "null".toList then .null
  else if isInteger word then .integer word
  else if isFloat word then .float word
  else .text word

def insertEntry {ν : Type} : List (List Char × ν) → List Char → ν → List (List Char × ν)
  | [], key, value => [(key, value)]
  | entry :: entries, key, value =>
    if entry.1 = key then (key, value) :: entries else entry :: insertEntry entries key value

/-- The tokens from the index on, and the depth. -/
structure Parser where
  tokens : List Token
  depth : ℕ

/-- An error of the header. Besides, what a parser must not come to: an index past the tokens, or a
recursion without an end. -/
inductive ParseFailure
  | error (error : HeaderError)
  | pastEnd
  | outOfFuel
  deriving DecidableEq, Repr

abbrev ParseResult (α : Type) := Except ParseFailure α

def Parser.peek (parser : Parser) : ParseResult Token :=
  match parser.tokens with
  | [] => .error .pastEnd
  | token :: _ => .ok token

/-- `self.index += 1`. -/
def Parser.advance (parser : Parser) : Parser := { parser with tokens := parser.tokens.tail }

def Parser.peekIsSymbol (parser : Parser) (symbol : Char) : ParseResult Bool := do
  let token ← parser.peek
  .ok (token.kind = .symbol && token.value = [symbol])

def Parser.isAtEndSymbol (parser : Parser) (symbol : Option Char) : ParseResult Bool :=
  match symbol with
  | none => do
    let token ← parser.peek
    .ok (token.kind = .stop)
  | some symbol => parser.peekIsSymbol symbol

def Parser.matchSymbol (parser : Parser) (symbol : Char) : ParseResult (Bool × Parser) := do
  if ← parser.peekIsSymbol symbol then .ok (true, parser.advance) else .ok (false, parser)

def Parser.consumeSymbol (parser : Parser) (symbol : Char) : ParseResult Parser := do
  match ← parser.matchSymbol symbol with
  | (true, parser) => .ok parser
  | (false, parser) => do
    let token ← parser.peek
    .error (.error (.expectedSymbol symbol token.position))

def Parser.consumeKey (parser : Parser) : ParseResult (List Char × Parser) := do
  let token ← parser.peek
  if token.kind ≠ .word then .error (.error (.expectedKey token.position))
  else .ok (token.value, parser.advance)

def Parser.nested {α : Type} (parser : Parser) (parse : Parser → ParseResult (α × Parser)) :
    ParseResult (α × Parser) :=
  if maxHeaderNestingDepth ≤ parser.depth then do
    let token ← parser.peek
    .error (.error (.tooDeep token.position))
  else do
    let (result, parser) ← parse { parser with depth := parser.depth + 1 }
    .ok (result, { parser with depth := parser.depth - 1 })

def Parser.expectEnd (parser : Parser) : ParseResult Unit := do
  let token ← parser.peek
  if token.kind ≠ .stop then .error (.error (.unexpectedToken token.value token.position))
  else .ok ()

mutual

/-- `parse_map`: what is left of its loop. -/
def parseMap : ℕ → Option Char → List (List Char × HeaderValue) → Parser →
    ParseResult (List (List Char × HeaderValue) × Parser)
  | 0, _, _, _ => .error .outOfFuel
  | fuel + 1, endSymbol, values, parser => do
    if ← parser.isAtEndSymbol endSymbol then
      match endSymbol with
      | none => .ok (values, parser)
      | some symbol => do
        let parser ← parser.consumeSymbol symbol
        .ok (values, parser)
    else
      match ← parser.matchSymbol ',' with
      | (true, parser) => parseMap fuel endSymbol values parser
      | (false, parser) => do
        let (key, parser) ← parser.consumeKey
        match ← parser.matchSymbol ':' with
        | (true, _) => .error (.error (.colonAfterKey key))
        | (false, parser) => do
          let atEnd ← parser.isAtEndSymbol endSymbol
          let token ← parser.peek
          if atEnd || token.kind = .stop then .error (.error (.missingValue key))
          else do
            let (value, parser) ← parseValue fuel parser
            let (_, parser) ← parser.matchSymbol ','
            parseMap fuel endSymbol (insertEntry values key value) parser

def parseValue : ℕ → Parser → ParseResult (HeaderValue × Parser)
  | 0, _ => .error .outOfFuel
  | fuel + 1, parser => do
    let token ← parser.peek
    match token.kind with
    | .text => .ok (.text token.value, parser.advance)
    | .word => do
      if ← parser.advance.peekIsSymbol '(' then
        let (entries, parser) ← parser.advance.advance.nested (parseMap fuel (some ')') [])
        .ok (.map [(token.value, .map entries)], parser)
      else .ok (wordValue token.value, parser.advance)
    | .symbol | .stop =>
      match ← parser.matchSymbol '[' with
      | (true, parser) => do
        let (values, parser) ← parser.nested (parseList fuel [])
        .ok (.list values, parser)
      | (false, parser) =>
        match ← parser.matchSymbol '(' with
        | (true, parser) => do
          let (entries, parser) ← parser.nested (parseMap fuel (some ')') [])
          .ok (.map entries, parser)
        | (false, _) => .error (.error (.expectedValue token.position))

/-- `parse_list`: what is left of its loop. -/
def parseList : ℕ → List HeaderValue → Parser → ParseResult (List HeaderValue × Parser)
  | 0, _, _ => .error .outOfFuel
  | fuel + 1, values, parser => do
    if ← parser.isAtEndSymbol (some ']') then
      let parser ← parser.consumeSymbol ']'
      .ok (values, parser)
    else
      match ← parser.matchSymbol ',' with
      | (true, parser) => parseList fuel values parser
      | (false, parser) => do
        let (value, parser) ← parseValue fuel parser
        let (_, parser) ← parser.matchSymbol ','
        parseList fuel (values ++ [value]) parser

end

def parse (tokens : List Token) : ParseResult (List (List Char × HeaderValue)) := do
  let parser : Parser := ⟨tokens, 0⟩
  let token ← parser.peek
  if token.kind = .stop then .ok []
  else
    let (values, parser) ← parseMap (2 * tokens.length + 1) none [] parser
    parser.expectEnd
    .ok values

def parseModelHeader (header : List Char) : ParseResult (List (List Char × HeaderValue)) := do
  let tokens ← (tokenize header).mapError ParseFailure.error
  parse tokens

variable {α β : Type} {parser after : Parser} {tokens rest : List Token} {token : Token}
  {symbol : Char} {used used' : ℕ}

@[simp] theorem ok_bind {ε : Type} (a : α) (f : α → Except ε β) : (Except.ok a >>= f) = f a := rfl

/-- The error names a position or a key of the tokens. -/
def Located (tokens : List Token) (error : HeaderError) : Prop :=
  match error.position with
  | some position => ∃ token ∈ tokens, token.position = position
  | none => ∃ token ∈ tokens, token.kind = .word ∧
    (error = .colonAfterKey token.value ∨ error = .missingValue token.value)

/-- A parser has gone on by so many tokens at least, up to the End at most. -/
structure GoesOn (before : Parser) (used : ℕ) (after : Parser) : Prop where
  ended : Ended after.tokens
  suffix : after.tokens <:+ before.tokens
  length : after.tokens.length + used ≤ before.tokens.length
  depth : after.depth = before.depth

/-- There is a result or an error of the header. -/
def Settled (before : Parser) (used : ℕ) : ParseResult (α × Parser) → Prop
  | .ok (_, after) => GoesOn before used after
  | .error (.error error) => Located before.tokens error
  | .error _ => False

theorem Located.mono (h : Located rest error) (hsuffix : rest <:+ tokens) :
    Located tokens error := by
  unfold Located at h ⊢
  cases hposition : error.position with
  | some position =>
    rw [hposition] at h
    obtain ⟨token, htoken, heq⟩ := h
    exact ⟨token, hsuffix.subset htoken, heq⟩
  | none =>
    rw [hposition] at h
    obtain ⟨token, htoken, heq⟩ := h
    exact ⟨token, hsuffix.subset htoken, heq⟩

theorem GoesOn.trans {before middle : Parser} (h : GoesOn before used middle)
    (h' : GoesOn middle used' after) : GoesOn before (used + used') after where
  ended := h'.ended
  suffix := h'.suffix.trans h.suffix
  length := by
    have := h.length
    have := h'.length
    omega
  depth := h'.depth.trans h.depth

theorem GoesOn.refl (h : Ended parser.tokens) : GoesOn parser 0 parser :=
  ⟨h, suffix_rfl, le_rfl, rfl⟩

theorem GoesOn.mono {before : Parser} (h : GoesOn before used after) (hle : used' ≤ used) :
    GoesOn before used' after :=
  ⟨h.ended, h.suffix, (Nat.add_le_add_left hle _).trans h.length, h.depth⟩

variable {result : ParseResult (α × Parser)}

theorem Settled.mono (h : Settled parser used result)
    (hle : used' ≤ used) : Settled parser used' result := by
  match result, h with
  | .ok (_, after), h => exact GoesOn.mono h hle
  | .error (.error error), h => exact h

theorem Settled.behind (h : GoesOn parser used after)
    (hresult : Settled after 0 result) : Settled parser used result := by
  match result, hresult with
  | .ok (_, last), hresult => exact h.trans hresult
  | .error (.error error), hresult => exact Located.mono hresult h.suffix

theorem Settled.bind {next : α × Parser → ParseResult (β × Parser)} (h : Settled parser used result)
    (hnext : ∀ a after, GoesOn parser used after → Settled after 0 (next (a, after))) :
    Settled parser used (result >>= next) := by
  match result, h with
  | .ok (a, after), h => exact Settled.behind h (hnext a after h)
  | .error (.error error), h => exact h

theorem Settled.map (f : α → β) (h : Settled parser used result) :
    Settled parser used (result >>= fun read => .ok (f read.1, read.2)) :=
  h.bind fun _ _ hafter => GoesOn.refl hafter.ended

section

variable (h : Ended parser.tokens)

include h

theorem peek_ok : ∃ token rest, parser.tokens = token :: rest ∧ parser.peek = .ok token := by
  obtain ⟨token, rest, htokens⟩ := h.exists_cons
  exact ⟨token, rest, htokens, by rw [Parser.peek, htokens]⟩

theorem goesOn_advance (htokens : parser.tokens = token :: rest)
    (htoken : token.kind ≠ .stop) : GoesOn parser 1 parser.advance := by
  have htail : parser.advance.tokens = rest := by rw [Parser.advance, htokens, tail_cons]
  refine ⟨?_, ?_, ?_, rfl⟩
  · rw [htail]
    exact (htokens ▸ h).tail htoken
  · rw [htail, htokens]
    exact suffix_cons token rest
  · rw [htail, htokens, length_cons]

theorem peekIsSymbol_cases (symbol : Char) :
    (parser.peekIsSymbol symbol = .ok true ∧ GoesOn parser 1 parser.advance) ∨
      parser.peekIsSymbol symbol = .ok false := by
  obtain ⟨token, rest, htokens, hpeek⟩ := peek_ok h
  rw [Parser.peekIsSymbol, hpeek, ok_bind]
  cases hsymbol : (token.kind = .symbol && token.value = [symbol] : Bool) with
  | false => exact Or.inr rfl
  | true =>
    refine Or.inl ⟨rfl, goesOn_advance h htokens ?_⟩
    simp only [Bool.and_eq_true, decide_eq_true_eq] at hsymbol
    simp [hsymbol.1]

theorem matchSymbol_cases (symbol : Char) :
    (parser.matchSymbol symbol = .ok (true, parser.advance) ∧ GoesOn parser 1 parser.advance) ∨
      parser.matchSymbol symbol = .ok (false, parser) := by
  rcases peekIsSymbol_cases h symbol with ⟨hpeek, hgoesOn⟩ | hpeek
  · exact Or.inl ⟨by rw [Parser.matchSymbol, hpeek]; rfl, hgoesOn⟩
  · exact Or.inr (by rw [Parser.matchSymbol, hpeek]; rfl)

theorem matchSymbol_settled (symbol : Char) : Settled parser 0 (parser.matchSymbol symbol) := by
  rcases matchSymbol_cases h symbol with ⟨hmatch, hgoesOn⟩ | hmatch
  · rw [hmatch]
    exact hgoesOn.mono (Nat.zero_le 1)
  · rw [hmatch]
    exact GoesOn.refl h

theorem isAtEndSymbol_ok (endSymbol : Option Char) :
    ∃ atEnd, parser.isAtEndSymbol endSymbol = .ok atEnd ∧ ∀ symbol, endSymbol = some symbol →
      atEnd = true → parser.consumeSymbol symbol = .ok parser.advance ∧
        GoesOn parser 1 parser.advance := by
  cases endSymbol with
  | none =>
    obtain ⟨token, rest, -, hpeek⟩ := peek_ok h
    exact ⟨_, by rw [Parser.isAtEndSymbol, hpeek]; rfl, by simp⟩
  | some symbol =>
    rcases peekIsSymbol_cases h symbol with ⟨hpeek, hgoesOn⟩ | hpeek
    · refine ⟨true, hpeek, fun _ hsymbol _ => ?_⟩
      cases hsymbol
      refine ⟨?_, hgoesOn⟩
      rw [Parser.consumeSymbol, Parser.matchSymbol, hpeek]
      rfl
    · exact ⟨false, hpeek, by simp⟩

theorem consumeKey_cases :
    (∃ token ∈ parser.tokens, parser.consumeKey = .error (.error (.expectedKey token.position))) ∨
      ∃ token ∈ parser.tokens, token.kind = .word ∧
        parser.consumeKey = .ok (token.value, parser.advance) ∧ GoesOn parser 1 parser.advance := by
  obtain ⟨token, rest, htokens, hpeek⟩ := peek_ok h
  have hmem : token ∈ parser.tokens := htokens ▸ mem_cons_self
  rw [Parser.consumeKey, hpeek, ok_bind]
  by_cases hkind : token.kind = .word
  · exact Or.inr ⟨token, hmem, hkind, by rw [if_neg (not_not.mpr hkind)],
      goesOn_advance h htokens (by simp [hkind])⟩
  · exact Or.inl ⟨token, hmem, by rw [if_pos hkind]⟩

theorem nested_settled {parse : Parser → ParseResult (α × Parser)}
    (hparse : Settled { parser with depth := parser.depth + 1 } used
      (parse { parser with depth := parser.depth + 1 })) :
    Settled parser used (parser.nested parse) := by
  obtain ⟨token, rest, htokens, hpeek⟩ := peek_ok h
  rw [Parser.nested]
  split_ifs with hdepth
  · rw [hpeek]
    exact ⟨token, htokens ▸ mem_cons_self, rfl⟩
  · match hresult : parse { parser with depth := parser.depth + 1 }, hparse with
    | .ok (a, after), hparse =>
      refine ⟨hparse.ended, hparse.suffix, hparse.length, ?_⟩
      have hafter : after.depth = parser.depth + 1 := hparse.depth
      show after.depth - 1 = parser.depth
      omega
    | .error (.error error), hparse => exact hparse

end

/-! One call of each function, with what the calls in it come to. -/

section
variable {fuel : ℕ}
  (ihMap : ∀ endSymbol values parser, Ended parser.tokens → 2 * parser.tokens.length + 1 ≤ fuel →
    Settled parser 0 (parseMap fuel endSymbol values parser))
  (ihValue : ∀ parser, Ended parser.tokens → 2 * parser.tokens.length ≤ fuel →
    Settled parser 1 (parseValue fuel parser))
  (ihList : ∀ values parser, Ended parser.tokens → 2 * parser.tokens.length + 1 ≤ fuel →
    Settled parser 0 (parseList fuel values parser))

include ihMap ihValue in
theorem parseMap_settled {endSymbol : Option Char} {values : List (List Char × HeaderValue)}
    (h : Ended parser.tokens) (hfuel : 2 * parser.tokens.length + 1 ≤ fuel + 1) :
    Settled parser 0 (parseMap (fuel + 1) endSymbol values parser) := by
  obtain ⟨atEnd, hatEnd, hend⟩ := isAtEndSymbol_ok h endSymbol
  rw [parseMap.eq_def]
  dsimp only
  rw [hatEnd, ok_bind]
  cases atEnd with
  | true =>
    cases endSymbol with
    | none => exact GoesOn.refl h
    | some symbol =>
      obtain ⟨hconsume, hgoesOn⟩ := hend symbol rfl rfl
      show Settled parser 0 (parser.consumeSymbol symbol >>= _)
      rw [hconsume]
      exact hgoesOn.mono (Nat.zero_le 1)
  | false =>
    show Settled parser 0 (parser.matchSymbol ',' >>= _)
    rcases matchSymbol_cases h ',' with ⟨hcomma, hgoesOn⟩ | hcomma
    · rw [hcomma, ok_bind]
      have hlength := hgoesOn.length
      exact (Settled.behind hgoesOn (ihMap endSymbol values _ hgoesOn.ended (by omega))).mono
        (by omega)
    · rw [hcomma, ok_bind]
      dsimp only
      rcases consumeKey_cases h with ⟨key, hmem, hkey⟩ | ⟨key, hmem, hword, hkey, hgoesOn⟩
      · rw [hkey]
        exact ⟨key, hmem, rfl⟩
      have hlength := hgoesOn.length
      rw [hkey, ok_bind]
      dsimp only
      rcases matchSymbol_cases hgoesOn.ended ':' with ⟨hcolon, -⟩ | hcolon
      · rw [hcolon, ok_bind]
        exact ⟨key, hmem, hword, Or.inl rfl⟩
      · obtain ⟨atEnd', hatEnd', -⟩ := isAtEndSymbol_ok hgoesOn.ended endSymbol
        obtain ⟨token, rest, -, hpeek⟩ := peek_ok hgoesOn.ended
        rw [hcolon, ok_bind]
        dsimp only
        rw [hatEnd', ok_bind, hpeek, ok_bind]
        split_ifs
        · exact ⟨key, hmem, hword, Or.inr rfl⟩
        · refine (Settled.behind hgoesOn ?_).mono (Nat.zero_le 1)
          refine (Settled.bind (ihValue _ hgoesOn.ended (by omega))
            fun value last hvalue => ?_).mono
            (Nat.zero_le 1)
          have hlength' := hvalue.length
          refine Settled.bind (matchSymbol_settled hvalue.ended ',') fun _ next hnext => ?_
          have hlength'' := hnext.length
          exact ihMap endSymbol _ next hnext.ended (by omega)

include ihMap ihList in
theorem parseValue_settled (h : Ended parser.tokens) (hfuel : 2 * parser.tokens.length ≤ fuel + 1) :
    Settled parser 1 (parseValue (fuel + 1) parser) := by
  obtain ⟨token, rest, htokens, hpeek⟩ := peek_ok h
  have hlength : 0 < parser.tokens.length := by
    rw [htokens, length_cons]
    omega
  -- what is in parentheses and brackets behind a parser that has gone on
  have hmap : ∀ {used after}, GoesOn parser (used + 1) after →
      Settled parser 1 (after.nested (parseMap fuel (some ')') [])) := by
    intro used after hgoesOn
    have hlength := hgoesOn.length
    have hread := ihMap (some ')') [] { after with depth := after.depth + 1 } hgoesOn.ended
      (by dsimp only; omega)
    exact (Settled.behind hgoesOn (nested_settled hgoesOn.ended hread)).mono (by omega)
  rw [parseValue.eq_def]
  dsimp only
  rw [hpeek, ok_bind]
  cases hkind : token.kind with
  | text => exact goesOn_advance h htokens (by simp [hkind])
  | word =>
    have hgoesOn := goesOn_advance h htokens (by simp [hkind])
    dsimp only
    rcases peekIsSymbol_cases hgoesOn.ended '(' with ⟨hopen, hgoesOn'⟩ | hopen
    · rw [hopen, ok_bind, if_pos rfl]
      exact Settled.map (fun entries => HeaderValue.map [(token.value, .map entries)])
        (hmap (hgoesOn.trans hgoesOn'))
    · rw [hopen, ok_bind, if_neg (by simp)]
      exact hgoesOn
  | symbol | stop =>
    dsimp only
    rcases matchSymbol_cases h '[' with ⟨hbracket, hgoesOn⟩ | hbracket
    · rw [hbracket, ok_bind]
      have hlength := hgoesOn.length
      have hread := ihList [] { parser.advance with depth := parser.advance.depth + 1 }
        hgoesOn.ended (by dsimp only; omega)
      exact Settled.map HeaderValue.list
        (Settled.behind hgoesOn (nested_settled hgoesOn.ended hread))
    · rw [hbracket, ok_bind]
      dsimp only
      rcases matchSymbol_cases h '(' with ⟨hopen, hgoesOn⟩ | hopen
      · rw [hopen, ok_bind]
        exact Settled.map HeaderValue.map (hmap hgoesOn)
      · rw [hopen, ok_bind]
        exact ⟨token, htokens ▸ mem_cons_self, rfl⟩

include ihValue ihList in
theorem parseList_settled {values : List HeaderValue} (h : Ended parser.tokens)
    (hfuel : 2 * parser.tokens.length + 1 ≤ fuel + 1) :
    Settled parser 0 (parseList (fuel + 1) values parser) := by
  obtain ⟨atEnd, hatEnd, hend⟩ := isAtEndSymbol_ok h (some ']')
  rw [parseList, hatEnd, ok_bind]
  cases atEnd with
  | true =>
    obtain ⟨hconsume, hgoesOn⟩ := hend ']' rfl rfl
    rw [if_pos rfl, hconsume]
    exact hgoesOn.mono (Nat.zero_le 1)
  | false =>
    rw [if_neg (by simp)]
    rcases matchSymbol_cases h ',' with ⟨hcomma, hgoesOn⟩ | hcomma
    · rw [hcomma, ok_bind]
      have hlength := hgoesOn.length
      exact (Settled.behind hgoesOn (ihList values _ hgoesOn.ended (by omega))).mono (by omega)
    · rw [hcomma, ok_bind]
      refine (Settled.bind (ihValue parser h (by omega)) fun value last hvalue => ?_).mono
        (Nat.zero_le 1)
      have hlength := hvalue.length
      refine Settled.bind (matchSymbol_settled hvalue.ended ',') fun _ next hnext => ?_
      have hlength' := hnext.length
      exact ihList _ next hnext.ended (by omega)

end

theorem parse_settled (fuel : ℕ) :
    (∀ endSymbol values parser, Ended parser.tokens → 2 * parser.tokens.length + 1 ≤ fuel →
      Settled parser 0 (parseMap fuel endSymbol values parser)) ∧
    (∀ parser, Ended parser.tokens → 2 * parser.tokens.length ≤ fuel →
      Settled parser 1 (parseValue fuel parser)) ∧
    ∀ values parser, Ended parser.tokens → 2 * parser.tokens.length + 1 ≤ fuel →
      Settled parser 0 (parseList fuel values parser) := by
  induction fuel with
  | zero =>
    refine ⟨fun _ _ _ _ _ => by omega, fun parser h hfuel => ?_, fun _ _ _ _ => by omega⟩
    obtain ⟨token, rest, htokens, -⟩ := peek_ok h
    rw [htokens, length_cons] at hfuel
    omega
  | succ fuel ih =>
    obtain ⟨ihMap, ihValue, ihList⟩ := ih
    exact ⟨fun _ _ _ h hfuel => parseMap_settled ihMap ihValue h hfuel,
      fun _ h hfuel => parseValue_settled ihMap ihList h hfuel,
      fun _ _ h hfuel => parseList_settled ihValue ihList h hfuel⟩

/-- Every list of tokens is parsed to its End, or there is an error of the header. -/
theorem parse_outcome (h : Ended tokens) :
    match parse tokens with
    | .ok _ => True
    | .error (.error error) => Located tokens error
    | .error _ => False := by
  have hended : Ended (Parser.mk tokens 0).tokens := h
  obtain ⟨token, rest, htokens, hpeek⟩ := peek_ok hended
  rw [parse, hpeek, ok_bind]
  by_cases hstop : token.kind = .stop
  · rw [if_pos hstop]
    trivial
  · rw [if_neg hstop]
    have hmap := (parse_settled (2 * tokens.length + 1)).1 none [] ⟨tokens, 0⟩ h le_rfl
    cases hresult : parseMap (2 * tokens.length + 1) none [] ⟨tokens, 0⟩ with
    | error failure =>
      rw [hresult] at hmap
      cases failure with
      | error error => exact hmap
      | pastEnd => exact hmap.elim
      | outOfFuel => exact hmap.elim
    | ok result =>
      obtain ⟨values, after⟩ := result
      rw [hresult] at hmap
      obtain ⟨last, rest', htokens', hpeek'⟩ := peek_ok hmap.ended
      rw [ok_bind]
      dsimp only [Parser.expectEnd]
      rw [hpeek', ok_bind]
      by_cases hlast : last.kind ≠ .stop
      · rw [if_pos hlast]
        exact ⟨last, hmap.suffix.subset (htokens' ▸ mem_cons_self), rfl⟩
      · rw [if_neg hlast]
        trivial

end SqlTide.ModelHeader
