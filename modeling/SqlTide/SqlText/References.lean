import SqlTide.Foundations.Splices
import SqlTide.SqlText.CodeReading

/-!
# Logical references

The calls `__source(name)` and `__ref(name, ref_type='…')` of an authored text, in its order. Each
has a span of the text, and the spans follow each other.
-/

namespace SqlTide.SqlText

open Foundations List

inductive RelationType
  | source
  | ref
  deriving DecidableEq, Repr

inductive RefType
  | reference
  | mutable
  deriving DecidableEq, Repr

structure SqlReference where
  name : String
  relationType : RelationType
  refType : Option RefType
  span : SourceSpan
  deriving DecidableEq, Repr

/-- `SOURCE_FUNCTION` and `REF_FUNCTION`. -/
def RelationType.function : RelationType → List Char
  | .source => "__source".toList
  | .ref => "__ref".toList

def refTypeKeyword : List Char := "ref_type".toList

def refTypeArgumentError : String :=
  "__ref(...) optional second argument must be ref_type='reference' or ref_type='mutable'"

/-- The loop of `argument_text`: each iteration goes on by a character at least. -/
def argumentTextLoop (sql : List Char) (stop : ℕ) : ℕ → ℕ → List Char → ScanResult (List Char)
  | 0, _, parts => .ok parts
  | fuel + 1, index, parts =>
    if stop ≤ index then .ok parts
    else match sql.drop index with
      | [] => .ok parts
      | character :: rest =>
        if isLineCommentStart (character :: rest) then
          argumentTextLoop sql stop fuel (min (skipLineComment sql index) stop) (parts ++ [' '])
        else if isBlockCommentStart (character :: rest) then do
          let next ← skipBlockComment sql index
          argumentTextLoop sql stop fuel (min next stop) (parts ++ [' '])
        else if isQuote character then do
          let quotedEnd := min (← skipQuotedText sql index character) stop
          argumentTextLoop sql stop fuel quotedEnd (parts ++ (sql.take quotedEnd).drop index)
        else argumentTextLoop sql stop fuel (index + 1) (parts ++ [character])

/-- `argument_text`: each comment is replaced by one space. -/
def argumentText (sql : List Char) (start stop : ℕ) : ScanResult (List Char) :=
  (argumentTextLoop sql stop (stop - start) start []).map pythonStrip

/-- What the loop of `split_arguments` has gone through. -/
structure ArgumentScan where
  arguments : List (List Char)
  argumentStart : ℕ
  depth : ℤ

def splitArguments (sql : List Char) (start stop : ℕ) : ScanResult (List (List Char)) :=
  scanCode sql stop
    (fun index character (scan : ArgumentScan) =>
      if character = '(' then .ok (.goOn (index + 1) { scan with depth := scan.depth + 1 })
      else if character = ')' then .ok (.goOn (index + 1) { scan with depth := scan.depth - 1 })
      else if character = ',' ∧ scan.depth = 0 then do
        let argument ← argumentText sql scan.argumentStart index
        .ok (.goOn (index + 1)
          { scan with arguments := scan.arguments ++ [argument], argumentStart := index + 1 })
      else .ok (.goOn (index + 1) scan))
    (fun scan => do
      let arguments := scan.arguments ++ [← argumentText sql scan.argumentStart stop]
      if arguments.any isEmpty then
        .error (.located sql "__source(...) and __ref(...) arguments must not be empty" start stop)
      else .ok arguments)
    (stop - start) start ⟨[], start, 0⟩

/-- The loop of `unquote`, over what is between the quotes. -/
def unquoteLoop (quote : Char) : List Char → List Char
  | [] => []
  | [character] => [character]
  | character :: next :: rest =>
    if character = '\\' then next :: unquoteLoop quote rest
    else if character = quote ∧ next = quote then quote :: unquoteLoop quote rest
    else character :: unquoteLoop quote (next :: rest)

def unquote (quote : Char) (value : List Char) : List Char :=
  unquoteLoop quote (value.drop 1).dropLast

section
variable (tables : PythonTables)

def parseName (raw sql : List Char) (start stop : ℕ) : ScanResult String := do
  let value := pythonStrip raw
  let quoted : Option (List Char) ← match value with
    | quote :: next :: rest =>
      if (next :: rest).getLast? = some quote ∧ isQuote quote then do
        let quotedEnd ← skipQuotedText value 0 quote
        let unquoted := unquote quote value
        .ok (if quotedEnd = value.length ∧ unquoted ≠ [] then some unquoted else none)
      else .ok none
    | _ => .ok none
  match quoted, value with
  | some unquoted, _ => .ok (String.ofList unquoted)
  | none, first :: rest =>
    if isIdentifierStart tables first && rest.all (isIdentifierCharacter tables) then
      .ok (String.ofList value)
    else .error (.located sql
      "__source(...) and __ref(...) name arguments must be a quoted string or identifier"
        start stop)
  | none, [] => .error (.located sql
      "__source(...) and __ref(...) name arguments must be a quoted string or identifier"
        start stop)

def parseRefType (raw sql : List Char) (start stop : ℕ) : ScanResult RefType :=
  if raw.count '=' ≠ 1 then .error (.located sql refTypeArgumentError start stop)
  else if pythonStrip (raw.take (raw.idxOf '=')) ≠ refTypeKeyword then
    .error (.located sql "__ref(...) optional second argument must use the ref_type keyword" start
      stop)
  else do
    let name ← parseName tables (raw.drop (raw.idxOf '=' + 1)) sql start stop
    if name = "reference" then .ok .reference
    else if name = "mutable" then .ok .mutable
    else .error (.located sql "__ref(...) ref_type value must be 'reference' or 'mutable'" start
      stop)

/-- The function whose name starts here. -/
def functionAt (text : List Char) : Option RelationType :=
  [RelationType.source, .ref].find? fun relationType => relationType.function.isPrefixOf text

def parseReferenceAt (sql : List Char) (start : ℕ) : ScanResult (Option (SqlReference × ℕ)) :=
  match functionAt (sql.drop start) with
  | none => .ok none
  | some relationType =>
    if 0 < start ∧ sql[start - 1]?.any (isIdentifierCharacter tables) = true then .ok none
    else do
      let openIndex ← skipTrivia sql (start + relationType.function.length)
      if sql[openIndex]? ≠ some '(' then return none
      let closeIndex ← findMatchingParenthesis sql openIndex referenceContext
      let stop := closeIndex + 1
      let arguments ← splitArguments sql (openIndex + 1) closeIndex
      match arguments with
      | [nameArgument] =>
        let name ← parseName tables nameArgument sql start stop
        return some (⟨name, relationType, none, sourceSpan sql start stop⟩, stop)
      | [nameArgument, refTypeArgument] =>
        let name ← parseName tables nameArgument sql start stop
        match relationType with
        | .source => .error (.located sql "__source(...) must not declare ref_type" start stop)
        | .ref =>
          let refType ← parseRefType tables refTypeArgument sql start stop
          return some (⟨name, relationType, some refType, sourceSpan sql start stop⟩, stop)
      | _ => .error (.located sql
          "__source(...) and __ref(...) must contain one name argument and optional ref_type"
          start stop)

def extractReferences (sql : List Char) : ScanResult (List SqlReference) :=
  scanCode sql sql.length
    (fun index _ references => do
      match ← parseReferenceAt tables sql index with
      | some (reference, next) => .ok (.goOn next (references ++ [reference]))
      | none => .ok (.goOn (index + 1) references))
    .ok sql.length 0 []

end

variable {tables : PythonTables} {sql : List Char} {start next cursor index : ℕ}
  {reference : SqlReference} {references : List SqlReference}

/-- A call in a text: it begins with a word and can be followed by everything. -/
structure CallAt (tables : PythonTables) (sql : List Char) (reference : SqlReference) : Prop where
  lt : reference.span.start < reference.span.stop
  stop : reference.span.stop ≤ sql.length
  head : (sql.drop reference.span.start).head? = some '_'
  read : ∃ ls, (lexer tables).run .code
    ((sql.take reference.span.stop).drop reference.span.start) = (ls, .code)

/-- From the cursor on, a text is read as the calls and as what is between them. -/
def ReferencesRead (tables : PythonTables) (sql : List Char) : ℕ → List SqlReference → Prop
  | cursor, [] => CodeRead tables sql cursor sql.length
  | cursor, reference :: references =>
    CodeRead tables sql cursor reference.span.start ∧
      (∀ character ∈ ((sql.take reference.span.start).drop cursor).getLast?,
        isIdentifierCharacter tables character = false) ∧
      CallAt tables sql reference ∧ ReferencesRead tables sql reference.span.stop references

theorem function_eq (relationType : RelationType) :
    ∃ word, relationType.function = '_' :: word ∧
      ∀ character ∈ word, isIdentifierCharacter tables character = true := by
  cases relationType with
  | source =>
    refine ⟨"_source".toList, rfl, ?_⟩
    simp [isIdentifierCharacter, pythonIsalnum]
  | ref =>
    refine ⟨"_ref".toList, rfl, ?_⟩
    simp [isIdentifierCharacter, pythonIsalnum]

theorem functionAt_some {text : List Char} {relationType : RelationType}
    (h : functionAt text = some relationType) : relationType.function <+: text := by
  unfold functionAt at h
  have hfound := find?_some h
  exact isPrefixOf_iff_prefix.mp hfound

theorem callAt_of_parentheses {relationType : RelationType} {openIndex closeIndex : ℕ}
    {context : String} (hfunction : relationType.function <+: sql.drop start)
    (htrivia : skipTrivia sql (start + relationType.function.length) = .ok openIndex)
    (hopen : sql[openIndex]? = some '(')
    (hclose : findMatchingParenthesis sql openIndex context = .ok closeIndex)
    (hspan : reference.span = sourceSpan sql start (closeIndex + 1)) :
    CallAt tables sql reference := by
  obtain ⟨word, hword, hidentifier⟩ := @function_eq tables relationType
  rw [hword] at hfunction htrivia
  have hname := codeRead_word hfunction rfl hidentifier
  obtain ⟨hread, hle⟩ := hname.trivia htrivia
  have hstart : CodeStart (sql.drop openIndex) := by
    rw [drop_eq_cons hopen]
    exact ⟨rfl, rfl, fun _ hhead => Option.some.inj hhead ▸ rfl⟩
  obtain ⟨hinside, hlt, hcharacter⟩ := findMatchingParenthesis_ok (hread.visit hstart hopen) hclose
  obtain ⟨hstop, -⟩ := List.getElem?_eq_some_iff.mp hcharacter
  have hcall := hinside.run_parenthesis hcharacter
  have hfirst : start ≤ closeIndex := hinside.le
  refine ⟨?_, ?_, ?_, ?_⟩
  · rw [hspan]
    exact Nat.lt_succ_of_le hfirst
  · rw [hspan]
    exact hstop
  · obtain ⟨rest, hrest⟩ := hfunction
    rw [hspan]
    show (sql.drop start).head? = _
    rw [← hrest]
    rfl
  · rw [hspan]
    exact hcall

theorem parseReferenceAt_some
    (h : parseReferenceAt tables sql start = .ok (some (reference, next))) :
    reference.span.start = start ∧ reference.span.stop = next ∧ CallAt tables sql reference ∧
      (0 < start → ∀ character ∈ sql[start - 1]?, isIdentifierCharacter tables character =
        false) := by
  unfold parseReferenceAt at h
  cases hfunction : functionAt (sql.drop start) with
  | none => simp [hfunction] at h
  | some relationType =>
    rw [hfunction] at h
    dsimp only at h
    split_ifs at h with hbefore
    · simp at h
    · obtain ⟨openIndex, htrivia, h⟩ := bind_eq_ok.mp h
      split_ifs at h with hopen
      · simp [pure, Except.pure] at h
      · obtain ⟨closeIndex, hclose, h⟩ := bind_eq_ok.mp h
        obtain ⟨arguments, -, h⟩ := bind_eq_ok.mp h
        have hcall : ∀ {called : SqlReference}, called.span = sourceSpan sql start
          (closeIndex + 1) →
            CallAt tables sql called := fun hspan =>
          callAt_of_parentheses (functionAt_some hfunction) htrivia (not_not.mp hopen) hclose hspan
        have hcharacter : 0 < start → ∀ character ∈ sql[start - 1]?,
            isIdentifierCharacter tables character = false := by
          intro hpositive character hcharacter
          cases hidentifier : isIdentifierCharacter tables character with
          | false => rfl
          | true =>
            refine absurd ⟨hpositive, ?_⟩ hbefore
            rw [Option.mem_def.mp hcharacter]
            exact hidentifier
        match arguments with
        | [nameArgument] =>
          obtain ⟨name, -, h⟩ := bind_eq_ok.mp h
          obtain ⟨rfl, rfl⟩ := Prod.mk.inj (Option.some.inj (Except.ok.inj h))
          exact ⟨rfl, rfl, hcall rfl, hcharacter⟩
        | [nameArgument, refTypeArgument] =>
          obtain ⟨name, -, h⟩ := bind_eq_ok.mp h
          cases relationType with
          | source => simp at h
          | ref =>
            obtain ⟨refType, -, h⟩ := bind_eq_ok.mp h
            obtain ⟨rfl, rfl⟩ := Prod.mk.inj (Option.some.inj (Except.ok.inj h))
            exact ⟨rfl, rfl, hcall rfl, hcharacter⟩
        | [] => simp at h
        | _ :: _ :: _ :: _ => simp at h

theorem getElem?_of_getLast? {last : Char} (hstop : index ≤ sql.length)
    (h : last ∈ ((sql.take index).drop start).getLast?) : 0 < index ∧ last ∈ sql[index - 1]? := by
  have hlength : ((sql.take index).drop start).length = index - start := by
    rw [length_drop, length_take, Nat.min_eq_left hstop]
  have hpositive : 0 < index - start := by
    rw [← hlength]
    exact length_pos_of_mem (mem_of_mem_getLast? h)
  rw [getLast?_eq_getElem?, hlength, getElem?_drop, getElem?_take] at h
  have hindex : start + (index - start - 1) = index - 1 := by omega
  rw [hindex, if_pos (by omega)] at h
  exact ⟨by omega, h⟩

/-- An accepted text is read as its calls and what is between them. -/
theorem extractReferences_read (h : extractReferences tables sql = .ok references) :
    ReferencesRead tables sql 0 references := by
  unfold extractReferences at h
  refine scanCode_induction
    (I := fun index references => ∃ cursor, CodeRead tables sql cursor index ∧
      ∀ more, ReferencesRead tables sql cursor more →
        ReferencesRead tables sql 0 (references ++ more))
    (Q := fun references => ReferencesRead tables sql 0 references) ?_ ?_ ?_ sql.length (by simp)
    ⟨0, CodeRead.refl (Nat.zero_le _), ?_⟩ h
  · rintro index references next ⟨cursor, hread, hmore⟩ _ hskip
    exact ⟨cursor, hread.skip hskip, hmore⟩
  · rintro index references character part ⟨cursor, hread, hmore⟩ _ hskip hcharacter hpart
    obtain ⟨parsed, hparsed, hpart⟩ := bind_eq_ok.mp hpart
    cases parsed with
    | none =>
      cases hpart
      exact ⟨Nat.lt_succ_self _, cursor,
        hread.visit (codeStart_of_skipNonCode hskip) hcharacter, hmore⟩
    | some parsed =>
      obtain ⟨reference, next⟩ := parsed
      cases hpart
      obtain ⟨rfl, rfl, hcall, hbefore⟩ := parseReferenceAt_some hparsed
      refine ⟨hcall.lt, reference.span.stop, CodeRead.refl hcall.stop, fun more hrest => ?_⟩
      rw [append_assoc]
      refine hmore _ ⟨hread, fun last hlast => ?_, hcall, hrest⟩
      obtain ⟨hpositive, hget⟩ := getElem?_of_getLast? hread.stop hlast
      exact hbefore hpositive last hget
  · rintro index references result ⟨cursor, hread, hmore⟩ hend hresult
    cases hresult
    have hindex : index = sql.length := by
      have := hread.stop
      omega
    subst hindex
    have hall := hmore [] hread
    rwa [append_nil] at hall
  · intro more hmore
    exact hmore

/-- The spans of the references, with what they are replaced by. -/
def spliceOf (relation : SqlReference → List Char) (reference : SqlReference) : Splice Char :=
  ⟨reference.span.start, reference.span.stop, relation reference⟩

theorem ReferencesRead.inOrder (h : ReferencesRead tables sql cursor references)
    (relation : SqlReference → List Char) :
    Splice.InOrder sql.length cursor (references.map (spliceOf relation)) := by
  induction references generalizing cursor with
  | nil => exact h.le
  | cons reference references ih =>
    obtain ⟨hread, -, hcall, hrest⟩ := h
    exact ⟨hread.le, hcall.lt.le, ih hrest⟩

/-- The spans are in range, and each ends before the next one. -/
theorem ReferencesRead.spans (h : ReferencesRead tables sql cursor references) :
    (∀ reference ∈ references, cursor ≤ reference.span.start ∧
      reference.span.start < reference.span.stop ∧ reference.span.stop ≤ sql.length) ∧
      references.Pairwise fun before after => before.span.stop ≤ after.span.start := by
  induction references generalizing cursor with
  | nil => simp
  | cons reference references ih =>
    obtain ⟨hread, -, hcall, hrest⟩ := h
    obtain ⟨hrange, hpairwise⟩ := ih hrest
    refine ⟨fun other hother => ?_, pairwise_cons.mpr ⟨fun other hother => ?_, hpairwise⟩⟩
    · rcases mem_cons.mp hother with rfl | hother
      · exact ⟨hread.le, hcall.lt, hcall.stop⟩
      · obtain ⟨hcursor, hlt, hstop⟩ := hrange other hother
        have := hread.le
        have := hcall.lt
        exact ⟨by omega, hlt, hstop⟩
    · exact (hrange other hother).1

end SqlTide.SqlText
