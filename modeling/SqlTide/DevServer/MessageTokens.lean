import SqlTide.DevServer.MessageQuery
import SqlTide.Foundations.TokenShapes

/-!
# Tokens of the message query

Each string literal of the statement has the value of one text of the document. The tokens have a
shape that is the same for all documents of one form, whatever these texts are.
-/

namespace SqlTide.DevServer

open Foundations Foundations.ClickHouse Foundations.Json List

def PathSegment.strings : PathSegment → List (List Char)
  | .text segment => [segment]
  | .index _ => []

def QueryValue.strings : QueryValue → List (List Char)
  | .text value => [value]
  | _ => []

def pathStrings (path : List PathSegment) : List (List Char) := path.flatMap PathSegment.strings

def valueStrings (value : Option QueryValue) : List (List Char) :=
  value.toList.flatMap QueryValue.strings

def jsonStrings (predicate : MessageQueryPredicate) : List (List Char) :=
  pathStrings predicate.path ++ if predicate.op = "exists" then [] else valueStrings predicate.value

/-- The texts that a condition uses. -/
def MessageQueryPredicate.strings (predicate : MessageQueryPredicate) : List (List Char) :=
  match predicate.field with
  | "key" | "value" | "header" => valueStrings predicate.value
  | "json" => jsonStrings predicate
  | _ => []

def MessageQueryMode.strings (mode : MessageQueryMode) : List (List Char) :=
  if mode.kind = "timeRange" then mode.fromTime.toList ++ mode.toTime.toList else []

/-- The texts that the statement uses, in its order. -/
def MessagesQueryRequest.strings (request : MessagesQueryRequest) : List (List Char) :=
  request.previewPaths.flatMap pathStrings ++
    (request.predicates.flatMap (·.strings) ++ request.mode.strings ++
      request.cursor.toList.map (·.landedAt))

/-- A text in which a run of digits is one zero. -/
def collapseDigits : List Char → List Char
  | [] => []
  | c :: text =>
    if c.isDigit = true ∧ (collapseDigits text).head? = some '0' then collapseDigits text
    else (if c.isDigit then '0' else c) :: collapseDigits text

/-- Two numbers of one sign that are written in one way: with a fraction, with an exponent of one
sign, or by the same name. -/
structure SameKind (number number' : PythonFloat) : Prop where
  negative : number.negative = number'.negative
  magnitude : collapseDigits number.magnitude = collapseDigits number'.magnitude
  exponent : number.exponent.map Prod.fst = number'.exponent.map Prod.fst

variable (numbers : ℕ → ℕ → Prop) (floats : PythonFloat → PythonFloat → Prop)
  (python : PythonNumbers)

def SameNumber (n m : ℤ) : Prop := numbers n.toNat m.toNat

inductive SameSegment : PathSegment → PathSegment → Prop
  | text (segment segment' : List Char) : SameSegment (.text segment) (.text segment')
  | index {position position' : ℤ} : SameNumber numbers position position' →
      SameSegment (.index position) (.index position')

/-- The numbers that are compared with `gt` or `lt` are related as floats. -/
structure SamePredicate (predicate predicate' : MessageQueryPredicate) : Prop where
  field : predicate.field = predicate'.field
  op : predicate.op = predicate'.op
  values : predicate.field = "partition" →
    List.Forall₂ (SameNumber numbers) predicate.values predicate'.values
  path : predicate.field = "json" →
    List.Forall₂ (SameSegment numbers) predicate.path predicate'.path
  value : predicate.field = "json" → numericJsonOperators predicate.op ≠ none →
    ∀ number number', numericValue python predicate "json" = .ok number →
      numericValue python predicate' "json" = .ok number' → floats number number'

structure SameMode (mode mode' : MessageQueryMode) : Prop where
  kind : mode.kind = mode'.kind
  fromTime : mode.kind = "timeRange" → mode.fromTime.isSome = mode'.fromTime.isSome
  toTime : mode.kind = "timeRange" → mode.toTime.isSome = mode'.toTime.isSome
  partition : mode.kind = "offsetRange" →
    Option.Rel (SameNumber numbers) mode.partition mode'.partition
  fromOffset : mode.kind = "offsetRange" →
    Option.Rel (SameNumber numbers) mode.fromOffset mode'.fromOffset
  toOffset : mode.kind = "offsetRange" →
    Option.Rel (SameNumber numbers) mode.toOffset mode'.toOffset

structure SameCursor (cursor cursor' : MessageQueryCursor) : Prop where
  partition : SameNumber numbers cursor.partition cursor'.partition
  offset : SameNumber numbers cursor.offset cursor'.offset

/-- Two documents that differ only in their texts, and in related numbers. -/
structure SameForm (request request' : MessagesQueryRequest) : Prop where
  mode : SameMode numbers request.mode request'.mode
  predicates : List.Forall₂ (SamePredicate numbers floats python) request.predicates
    request'.predicates
  limit : SameNumber numbers (min (max request.limit 1) 500) (min (max request'.limit 1) 500)
  cursor : Option.Rel (SameCursor numbers) request.cursor request'.cursor
  timeColumn : request.mode.kind = "timeRange" → request.timeColumn = request'.timeColumn
  previewPaths : List.Forall₂ (List.Forall₂ (SameSegment numbers)) request.previewPaths
    request'.previewPaths

variable {numbers floats python}

variable {relation : TokenRelation numbers} {fieldName : String}
  {text text' : List Char}

theorem sqlLiteral_eq_escapeLiteral (value : List Char) :
    sqlLiteral value = escapeLiteral value := by
  rw [sqlLiteral, replaceAll_singleton, replaceAll_singleton, flatMap_assoc, escapeLiteral]
  apply flatMap_congr
  intro c _
  by_cases hslash : c = '\\'
  · subst hslash
    rfl
  · by_cases hquote : c = '\''
    · subst hquote
      rfl
    · simp [hslash, hquote]

/-- An escaped text between quotes has the text as its value. -/
theorem paired_sqlLiteral (value value' : List Char) :
    Paired relation (quoted (sqlLiteral value)) (quoted (sqlLiteral value')) [value] [value'] := by
  rw [sqlLiteral_eq_escapeLiteral, sqlLiteral_eq_escapeLiteral]
  exact .literal (denotes_escapeLiteral value) (denotes_escapeLiteral value')

theorem paired_renderInt {n m : ℤ} (hn : 0 ≤ n) (hm : 0 ≤ m) (h : SameNumber numbers n m) :
    Paired relation (renderInt n) (renderInt m) [] [] := by
  obtain ⟨n, rfl⟩ := Int.eq_ofNat_of_zero_le hn
  obtain ⟨m, rfl⟩ := Int.eq_ofNat_of_zero_le hm
  exact .number h

theorem isCode_float (number : PythonFloat) : IsCode number.text := by
  have hmagnitude : number.magnitude.all isSimple = true := by
    rw [all_eq_true]
    intro c hc
    have hplain := all_eq_true.mp number.plain c hc
    rw [Bool.or_eq_true, decide_eq_true_eq] at hplain
    rcases hplain with hdigit | hletter
    · exact isSimple_of_isDigit hdigit
    · fin_cases hletter <;> rfl
  have hsigned : IsCode ((if number.negative then ['-'] else []) ++ number.magnitude) := by
    split_ifs
    · exact .minus number.nonempty hmagnitude
    · exact .of_simple hmagnitude
  unfold PythonFloat.text
  apply hsigned.append
  split
  · exact .of_simple rfl
  · next negative value _ =>
    have hdigits : ((if value < 10 then ['0'] else []) ++ Nat.toDigits 10 value).all isSimple =
        true := by
      rw [all_append, Bool.and_eq_true]
      refine ⟨by split_ifs <;> rfl, all_eq_true.mpr fun c hc => ?_⟩
      exact isSimple_of_isDigit (all_eq_true.mp (all_isDigit_toDigits value) c hc)
    have hletter : IsCode ['e'] := .of_simple rfl
    have hplus : IsCode ['+'] := .of_simple rfl
    rw [append_assoc, cons_append]
    apply hletter.append
    cases negative with
    | true => exact .minus (by simp [Nat.toDigits_ne_nil]) hdigits
    | false => exact hplus.append (.of_simple hdigits)

theorem stringValue_eq_ok {predicate : MessageQueryPredicate} :
    stringValue predicate fieldName = .ok text ↔
      ∃ value, predicate.value = some (.text value) ∧ sqlLiteral value = text := by
  unfold stringValue
  split
  · next value hvalue => simp [hvalue]
  · next hother =>
    constructor
    · intro h
      cases h
    · rintro ⟨value, hvalue, -⟩
      exact absurd hvalue (hother value)

theorem timeLiteral_eq_ok {value : List Char} (h : timeLiteral python value fieldName = .ok text) :
    text = "parseDateTime64BestEffort(".toList ++ quoted (sqlLiteral value) ++ ", 3)".toList := by
  unfold timeLiteral at h
  split_ifs at h
  · cases h
    rfl
  · cases h

theorem paired_timeLiteral {value value' : List Char}
    (h : timeLiteral python value fieldName = .ok text)
    (h' : timeLiteral python value' fieldName = .ok text') :
    Paired relation text text' [value] [value'] := by
  rw [timeLiteral_eq_ok h, timeLiteral_eq_ok h']
  exact (paired_sqlLiteral value value').between (.of_simple (by decide))
    (.of_simple (by decide)) (by decide)

theorem denotes_segment {segment : List Char}
    (h : ¬ (segment.any fun c => c ∈ forbiddenSegmentChars || c.toNat < 32) = true) :
    Denotes '\'' segment segment := by
  apply Denotes.plain (by decide)
  intro c hc
  have hallowed : c ∉ forbiddenSegmentChars := by
    intro hforbidden
    exact h (any_eq_true.mpr ⟨c, hc, by simp [hforbidden]⟩)
  simp only [forbiddenSegmentChars, mem_cons, not_or] at hallowed
  exact ⟨hallowed.2.2.2.1, hallowed.1⟩

theorem jsonPathSegment_text {segment : List Char}
    (h : jsonPathSegment fieldName (.text segment) = .ok text) :
    text = quoted segment ∧ Denotes '\'' segment segment := by
  rw [jsonPathSegment] at h
  split_ifs at h with hlength hforbidden
  · cases h
  · cases h
  · cases h
    exact ⟨rfl, denotes_segment hforbidden⟩

theorem jsonPathSegment_index {position : ℤ}
    (h : jsonPathSegment fieldName (.index position) = .ok text) :
    text = renderInt position ∧ 0 ≤ position := by
  obtain ⟨_, hcheck, hrendered⟩ := bind_eq_ok.mp h
  cases hrendered
  exact ⟨rfl, requireNonNegative_eq_ok.mp hcheck⟩

theorem paired_segment {segment segment' : PathSegment}
    (hsame : SameSegment numbers segment segment')
    (text text' : List Char) (h : jsonPathSegment fieldName segment = .ok text)
    (h' : jsonPathSegment fieldName segment' = .ok text') :
    Paired relation text text' segment.strings segment'.strings := by
  cases hsame with
  | text segment segment' =>
    obtain ⟨rfl, hdenotes⟩ := jsonPathSegment_text h
    obtain ⟨rfl, hdenotes'⟩ := jsonPathSegment_text h'
    exact .literal hdenotes hdenotes'
  | index hnumber =>
    obtain ⟨rfl, hposition⟩ := jsonPathSegment_index h
    obtain ⟨rfl, hposition'⟩ := jsonPathSegment_index h'
    exact paired_renderInt hposition hposition' hnumber

variable {path path' : List PathSegment} {number : PythonFloat} {operator : List Char} {α : Type}

theorem jsonPathArguments_eq_ok (h : jsonPathArguments path fieldName = .ok text) :
    ∃ segments, path.mapM (jsonPathSegment fieldName) = .ok segments ∧
      text = intercalate ", ".toList segments := by
  unfold jsonPathArguments at h
  split_ifs at h
  · cases h
  · cases h
  · obtain ⟨segments, hsegments, hjoined⟩ := bind_eq_ok.mp h
    cases hjoined
    exact ⟨segments, hsegments, rfl⟩

theorem paired_pathArguments (hsame : List.Forall₂ (SameSegment numbers) path path')
    (h : jsonPathArguments path fieldName = .ok text)
    (h' : jsonPathArguments path' fieldName = .ok text') :
    Paired relation text text' (pathStrings path) (pathStrings path') := by
  obtain ⟨segments, hsegments, rfl⟩ := jsonPathArguments_eq_ok h
  obtain ⟨segments', hsegments', rfl⟩ := jsonPathArguments_eq_ok h'
  apply PairedAll.intercalate (.of_simple (by decide)) (by decide) (by decide)
  exact .of_mapM (fun _ _ hsegment => paired_segment hsegment) hsame hsegments hsegments'

theorem paired_stringExpression (hsame : List.Forall₂ (SameSegment numbers) path path')
    (h : jsonStringExpression path fieldName = .ok text)
    (h' : jsonStringExpression path' fieldName = .ok text') :
    Paired relation text text' (pathStrings path) (pathStrings path') := by
  obtain ⟨pathArguments, harguments, htext⟩ := bind_eq_ok.mp h
  obtain ⟨pathArguments', harguments', htext'⟩ := bind_eq_ok.mp h'
  cases htext
  cases htext'
  exact (paired_pathArguments hsame harguments harguments').between (.of_simple (by decide))
    (.of_simple (by decide)) (by decide)

variable {predicate predicate' : MessageQueryPredicate}

theorem paired_stringValue (h : stringValue predicate fieldName = .ok text)
    (h' : stringValue predicate' fieldName = .ok text') :
    Paired relation (quoted text) (quoted text') (valueStrings predicate.value)
      (valueStrings predicate'.value) := by
  obtain ⟨value, hvalue, rfl⟩ := stringValue_eq_ok.mp h
  obtain ⟨value', hvalue', rfl⟩ := stringValue_eq_ok.mp h'
  rw [hvalue, hvalue']
  exact paired_sqlLiteral value value'

theorem paired_keyCondition (hsame : predicate.op = predicate'.op)
    (h : keyCondition predicate = .ok text) (h' : keyCondition predicate' = .ok text') :
    Paired relation text text' (valueStrings predicate.value) (valueStrings predicate'.value) := by
  obtain ⟨literal, hliteral, htext⟩ := bind_eq_ok.mp h
  obtain ⟨literal', hliteral', htext'⟩ := bind_eq_ok.mp h'
  have hquoted : Paired relation _ _ _ _ := paired_stringValue hliteral hliteral'
  rw [← hsame] at htext'
  generalize predicate.op = op at htext htext'
  split at htext
  · cases htext
    cases htext'
    exact hquoted.code_append (.of_simple (by decide))
  · cases htext
    cases htext'
    exact hquoted.between (.of_simple (by decide)) (.of_simple (by decide)) (by decide)
  · cases htext
    cases htext'
    exact hquoted.between (.of_simple (by decide)) (.of_simple (by decide)) (by decide)
  · cases htext

theorem paired_valueCondition (h : valueCondition predicate = .ok text)
    (h' : valueCondition predicate' = .ok text') :
    Paired relation text text' (valueStrings predicate.value) (valueStrings predicate'.value) := by
  unfold valueCondition at h h'
  split_ifs at h h'
  all_goals first | cases h | cases h' | skip
  obtain ⟨literal, hliteral, htext⟩ := bind_eq_ok.mp h
  obtain ⟨literal', hliteral', htext'⟩ := bind_eq_ok.mp h'
  cases htext
  cases htext'
  exact (paired_stringValue hliteral hliteral').between (.of_simple (by decide))
    (.of_simple (by decide)) (by decide)

theorem paired_headerCondition (hsame : predicate.op = predicate'.op)
    (h : headerCondition predicate = .ok text) (h' : headerCondition predicate' = .ok text') :
    Paired relation text text' (valueStrings predicate.value) (valueStrings predicate'.value) := by
  obtain ⟨literal, hliteral, htext⟩ := bind_eq_ok.mp h
  obtain ⟨literal', hliteral', htext'⟩ := bind_eq_ok.mp h'
  have hquoted : Paired relation _ _ _ _ := paired_stringValue hliteral hliteral'
  rw [← hsame] at htext'
  generalize predicate.op = op at htext htext'
  split at htext
  · cases htext
    cases htext'
    exact hquoted.between (.of_simple (by decide)) (.of_simple (by decide)) (by decide)
  · cases htext
    cases htext'
    -- An arrow has a minus sign.
    exact hquoted.between (by decide) (.of_simple (by decide)) (by decide)
  · cases htext

theorem partitionCondition_eq_ok (h : partitionCondition predicate = .ok text) :
    (∀ value ∈ predicate.values, 0 ≤ value) ∧
      text = "_replay_partition IN (".toList ++
        intercalate ", ".toList (predicate.values.map renderInt) ++ ")".toList := by
  unfold partitionCondition at h
  split_ifs at h
  · cases h
  · cases h
  · obtain ⟨_, hcheck, hrendered⟩ := bind_eq_ok.mp h
    cases hrendered
    refine ⟨fun value hvalue => ?_, rfl⟩
    obtain ⟨_, hone⟩ := exists_ok_of_forM hcheck hvalue
    exact requireNonNegative_eq_ok.mp hone

theorem pairedAll_numbers {values values' : List ℤ}
    (hsame : List.Forall₂ (SameNumber numbers) values values') (h : ∀ value ∈ values, 0 ≤ value)
    (h' : ∀ value ∈ values', 0 ≤ value) :
    PairedAll relation (values.map renderInt) (values'.map renderInt) [] [] := by
  induction hsame with
  | nil => exact .nil
  | cons hfirst _ ih =>
    rw [forall_mem_cons] at h h'
    exact .cons (paired_renderInt h.1 h'.1 hfirst) (ih h.2 h'.2)

theorem paired_partitionCondition
    (hsame : List.Forall₂ (SameNumber numbers) predicate.values predicate'.values)
    (h : partitionCondition predicate = .ok text) (h' : partitionCondition predicate' = .ok text') :
    Paired relation text text' [] [] := by
  obtain ⟨hvalues, rfl⟩ := partitionCondition_eq_ok h
  obtain ⟨hvalues', rfl⟩ := partitionCondition_eq_ok h'
  apply Paired.between _ (.of_simple (by decide)) (.of_simple (by decide)) (by decide)
  apply PairedAll.intercalate (.of_simple (by decide)) (by decide) (by decide)
  exact pairedAll_numbers hsame hvalues hvalues'

theorem shape_plain (text : List Char) :
    shape (text.map .plain) = (collapseDigits text).map .plain := by
  induction text with
  | nil => rfl
  | cons c text ih =>
    rw [map_cons, shape, foldr_cons, ← shape, ih, addKind, head?_map, collapseDigits]
    cases hdigit : c.isDigit with
    | true => cases (collapseDigits text).head? <;> simp [Token.kind, hdigit, apply_ite]
    | false =>
      have hother : c ≠ '0' := by
        rintro rfl
        cases hdigit
      simp [Token.kind, hdigit, hother]

theorem shape_exponent (negative : Bool) (value : ℕ) :
    shape ((['e', if negative then '-' else '+'] ++ (if value < 10 then ['0'] else []) ++
      Nat.toDigits 10 value).map .plain) =
      [.plain 'e', .plain (if negative then '-' else '+'), .plain '0'] := by
  have hdigits : shape (((if value < 10 then ['0'] else []) ++ Nat.toDigits 10 value).map .plain) =
      [.plain '0'] := by
    refine shape_digits (by simp [Nat.toDigits_ne_nil]) ?_
    rw [all_append, Bool.and_eq_true]
    exact ⟨by split_ifs <;> rfl, all_isDigit_toDigits value⟩
  rw [append_assoc, map_append, shape_append, hdigits]
  cases negative <;> rfl

theorem shape_of_sameKind {number' : PythonFloat} (h : SameKind number number') :
    shape (number.text.map .plain) = shape (number'.text.map .plain) := by
  have hmagnitude : shape (number.magnitude.map .plain) = shape (number'.magnitude.map .plain) := by
    rw [shape_plain, shape_plain, h.magnitude]
  have hexponent := h.exponent
  unfold PythonFloat.text
  rw [map_append, map_append, map_append, map_append, shape_append,
    shape_append (_ ++ _), shape_append, shape_append, hmagnitude, h.negative]
  cases hfirst : number.exponent with
  | none =>
    rw [hfirst] at hexponent
    rw [Option.map_eq_none_iff.mp hexponent.symm]
  | some exponent =>
    obtain ⟨negative, value⟩ := exponent
    rw [hfirst] at hexponent
    obtain ⟨⟨_, value'⟩, hsecond, rfl⟩ := Option.map_eq_some_iff.mp hexponent.symm
    rw [hsecond]
    dsimp only
    rw [shape_exponent, shape_exponent]

theorem paired_numericCondition {pathArguments pathArguments' : List Char} {op : String}
    {number' : PythonFloat}
    (hnumber : relation.Related (number.text.map .plain) (number'.text.map .plain))
    (hoperator : numericJsonOperators op = some operator)
    (harguments : Paired relation pathArguments pathArguments' (pathStrings path)
      (pathStrings path')) :
    Paired relation
      ("JSONExtractFloat(kafka_value, ".toList ++ pathArguments ++ ") ".toList ++ operator ++
        " ".toList ++ number.text)
      ("JSONExtractFloat(kafka_value, ".toList ++ pathArguments' ++ ") ".toList ++ operator ++
        " ".toList ++ number'.text) (pathStrings path) (pathStrings path') := by
  have hoperator' : IsCode operator := by
    unfold numericJsonOperators at hoperator
    split at hoperator
    · cases hoperator
      decide
    · cases hoperator
      decide
    · cases hoperator
  have hbefore : IsCode "JSONExtractFloat(kafka_value, ".toList := .of_simple (by decide)
  have hclosing : IsCode (") ".toList ++ (operator ++ " ".toList)) :=
    .append (.of_simple (by decide)) (hoperator'.append (.of_simple (by decide)))
  have hpaired : Paired relation number.text number'.text [] [] :=
    ⟨_, _, .code (isCode_float number), .code (isCode_float number'), hnumber, literals_plain _,
      literals_plain _⟩
  have hcloses : ∀ more : List Char, ClosesQuotes (") ".toList ++ more) :=
    fun more => ClosesQuotes.append (by decide) (by decide) more
  have hboth := (harguments.code_append hbefore).append (hpaired.code_append hclosing)
    (by rw [append_assoc]; exact hcloses _) (by rw [append_assoc]; exact hcloses _)
  simpa only [append_assoc, append_nil] using hboth

theorem numericValue_strings (h : numericValue python predicate fieldName = .ok number) :
    valueStrings predicate.value = [] := by
  unfold numericValue at h
  split at h
  · next value hvalue => rw [hvalue]; rfl
  · next value hvalue => rw [hvalue]; rfl
  · cases h

theorem paired_jsonCondition (hop : predicate.op = predicate'.op)
    (hpath : List.Forall₂ (SameSegment numbers) predicate.path predicate'.path)
    (hvalue : numericJsonOperators predicate.op ≠ none → ∀ number number',
      numericValue python predicate "json" = .ok number →
        numericValue python predicate' "json" = .ok number' →
          relation.Related (number.text.map .plain) (number'.text.map .plain))
    (h : jsonCondition python predicate = .ok text)
    (h' : jsonCondition python predicate' = .ok text') :
    Paired relation text text' (jsonStrings predicate) (jsonStrings predicate') := by
  obtain ⟨expression, hexpression, htext⟩ := bind_eq_ok.mp h
  obtain ⟨expression', hexpression', htext'⟩ := bind_eq_ok.mp h'
  have hpaired : Paired relation _ _ _ _ := paired_stringExpression hpath hexpression hexpression'
  rw [jsonStrings, jsonStrings, ← hop]
  rw [← hop] at htext'
  split_ifs at htext htext' ⊢ with hexists
  · obtain ⟨pathArguments, harguments, hcondition⟩ := bind_eq_ok.mp htext
    obtain ⟨pathArguments', harguments', hcondition'⟩ := bind_eq_ok.mp htext'
    cases hcondition
    cases hcondition'
    rw [append_nil, append_nil]
    exact (paired_pathArguments hpath harguments harguments').between (.of_simple (by decide))
      (.of_simple (by decide)) (by decide)
  · cases hoperator : numericJsonOperators predicate.op with
    | some operator =>
      rw [hoperator] at htext htext'
      obtain ⟨number, hnumber, hrest⟩ := bind_eq_ok.mp htext
      obtain ⟨number', hnumber', hrest'⟩ := bind_eq_ok.mp htext'
      have hrelated := hvalue (by rw [hoperator]; exact Option.some_ne_none operator) number number'
        hnumber hnumber'
      rw [numericValue_strings hnumber, numericValue_strings hnumber', append_nil, append_nil]
      obtain ⟨pathArguments, harguments, hcondition⟩ := bind_eq_ok.mp hrest
      obtain ⟨pathArguments', harguments', hcondition'⟩ := bind_eq_ok.mp hrest'
      cases hcondition
      cases hcondition'
      exact paired_numericCondition hrelated hoperator
        (paired_pathArguments hpath harguments harguments')
    | none =>
      rw [hoperator] at htext htext'
      obtain ⟨literal, hliteral, hcondition⟩ := bind_eq_ok.mp htext
      obtain ⟨literal', hliteral', hcondition'⟩ := bind_eq_ok.mp htext'
      have hquoted : Paired relation _ _ _ _ := paired_stringValue hliteral hliteral'
      generalize predicate.op = op at hcondition hcondition'
      split at hcondition
      · cases hcondition
        cases hcondition'
        rw [append_assoc, append_assoc]
        exact hpaired.append (hquoted.code_append (.of_simple (by decide)))
          (.append (by decide) (by decide) _) (.append (by decide) (by decide) _)
      · cases hcondition
        cases hcondition'
        rw [append_assoc, append_assoc]
        exact hpaired.append (hquoted.code_append (.of_simple (by decide)))
          (.append (by decide) (by decide) _) (.append (by decide) (by decide) _)
      · cases hcondition
        cases hcondition'
        have hbefore : IsCode "position(".toList := .of_simple (by decide)
        have hcomma : IsCode ", ".toList := .of_simple (by decide)
        have hafter : IsCode ") > 0".toList := .of_simple (by decide)
        have hsecond := hquoted.between hcomma hafter (by decide)
        simp only [append_assoc] at hsecond
        have hboth := hpaired.append hsecond (.append (by decide) (by decide) _)
          (.append (by decide) (by decide) _)
        simpa only [append_assoc] using hboth.code_append hbefore
      · cases hcondition

theorem paired_predicateCondition (hfloats : ∀ number number', floats number number' →
      relation.Related (number.text.map .plain) (number'.text.map .plain))
    (hsame : SamePredicate numbers floats python predicate predicate') (text text' : List Char)
    (h : predicateCondition python predicate = .ok text)
    (h' : predicateCondition python predicate' = .ok text') :
    Paired relation text text' predicate.strings predicate'.strings := by
  have hop := hsame.op
  unfold predicateCondition at h h'
  rw [MessageQueryPredicate.strings, MessageQueryPredicate.strings, ← hsame.field]
  rw [← hsame.field] at h'
  split at h
  · next hfield =>
    rw [hfield] at h' ⊢
    exact paired_partitionCondition (hsame.values hfield) h h'
  · next hfield =>
    rw [hfield] at h' ⊢
    exact paired_keyCondition hop h h'
  · next hfield =>
    rw [hfield] at h' ⊢
    exact paired_valueCondition h h'
  · next hfield =>
    rw [hfield] at h' ⊢
    exact paired_jsonCondition hop (hsame.path hfield)
      (fun hoperator number number' hnumber hnumber' =>
        hfloats number number' (hsame.value hfield hoperator number number' hnumber hnumber')) h h'
  · next hfield =>
    rw [hfield] at h' ⊢
    exact paired_headerCondition hop h h'
  · cases h

variable {texts texts' : List (List Char)}

theorem pairedAll_timeBound {timeColumn : List Char} {bound bound' : Option (List Char)}
    (hcode : IsCode (timeColumn ++ operator)) (hsame : bound.isSome = bound'.isSome)
    (h : timeBound python timeColumn operator fieldName bound = .ok texts)
    (h' : timeBound python timeColumn operator fieldName bound' = .ok texts') :
    PairedAll relation texts texts' bound.toList bound'.toList := by
  cases bound with
  | none =>
    obtain rfl : bound' = none := by simpa using hsame.symm
    cases h
    cases h'
    exact .nil
  | some value =>
    obtain ⟨value', rfl⟩ := Option.isSome_iff_exists.mp hsame.symm
    obtain ⟨literal, hliteral, hcondition⟩ := bind_eq_ok.mp h
    obtain ⟨literal', hliteral', hcondition'⟩ := bind_eq_ok.mp h'
    cases hcondition
    cases hcondition'
    exact .singleton ((paired_timeLiteral hliteral hliteral').code_append hcode)

theorem pairedAll_offsetBound {bound bound' : Option ℤ}
    (hcode : IsCode ("_replay_offset".toList ++ operator))
    (hsame : Option.Rel (SameNumber numbers) bound bound')
    (h : offsetBound operator fieldName bound = .ok texts)
    (h' : offsetBound operator fieldName bound' = .ok texts') :
    PairedAll relation texts texts' [] [] := by
  cases hsame with
  | none =>
    cases h
    cases h'
    exact .nil
  | some hnumber =>
    obtain ⟨_, hcheck, hcondition⟩ := bind_eq_ok.mp h
    obtain ⟨_, hcheck', hcondition'⟩ := bind_eq_ok.mp h'
    cases hcondition
    cases hcondition'
    have hnumbers : Paired relation _ _ _ _ := paired_renderInt
      (requireNonNegative_eq_ok.mp hcheck) (requireNonNegative_eq_ok.mp hcheck') hnumber
    exact .singleton (hnumbers.code_append hcode)

variable {mode mode' : MessageQueryMode} {timeColumn timeColumn' : List Char}

theorem pairedAll_timeRange (hcolumn : timeColumn.all isSimple = true)
    (hfrom : mode.fromTime.isSome = mode'.fromTime.isSome)
    (hto : mode.toTime.isSome = mode'.toTime.isSome)
    (h : timeRangeConditions python mode timeColumn = .ok texts)
    (h' : timeRangeConditions python mode' timeColumn = .ok texts') :
    PairedAll relation texts texts' (mode.fromTime.toList ++ mode.toTime.toList)
      (mode'.fromTime.toList ++ mode'.toTime.toList) := by
  unfold timeRangeConditions at h h'
  split_ifs at h h'
  all_goals first | cases h | cases h' | skip
  obtain ⟨lower, hlower, hrest⟩ := bind_eq_ok.mp h
  obtain ⟨lower', hlower', hrest'⟩ := bind_eq_ok.mp h'
  obtain ⟨upper, hupper, hboth⟩ := bind_eq_ok.mp hrest
  obtain ⟨upper', hupper', hboth'⟩ := bind_eq_ok.mp hrest'
  cases hboth
  cases hboth'
  have hcode : IsCode timeColumn := .of_simple hcolumn
  exact (pairedAll_timeBound (hcode.append (.of_simple (by decide))) hfrom hlower hlower').append
    (pairedAll_timeBound (hcode.append (.of_simple (by decide))) hto hupper hupper')

theorem offsetRangeConditions_eq_ok (h : offsetRangeConditions mode = .ok texts) :
    ∃ partition lower upper, mode.partition = some partition ∧ 0 ≤ partition ∧
      offsetBound " >= ".toList "fromOffset" mode.fromOffset = .ok lower ∧
      offsetBound " <= ".toList "toOffset" mode.toOffset = .ok upper ∧
      texts = ["_replay_partition = ".toList ++ renderInt partition] ++ lower ++ upper := by
  unfold offsetRangeConditions at h
  split at h
  · cases h
  · next partition hpartition =>
    obtain ⟨_, hcheck, hrest⟩ := bind_eq_ok.mp h
    obtain ⟨lower, hlower, hrest⟩ := bind_eq_ok.mp hrest
    obtain ⟨upper, hupper, hrest⟩ := bind_eq_ok.mp hrest
    obtain ⟨_, -, hconditions⟩ := bind_eq_ok.mp hrest
    cases hconditions
    exact ⟨partition, lower, upper, hpartition, requireNonNegative_eq_ok.mp hcheck, hlower, hupper,
      rfl⟩

theorem pairedAll_offsetRange
    (hpartition : Option.Rel (SameNumber numbers) mode.partition mode'.partition)
    (hfrom : Option.Rel (SameNumber numbers) mode.fromOffset mode'.fromOffset)
    (hto : Option.Rel (SameNumber numbers) mode.toOffset mode'.toOffset)
    (h : offsetRangeConditions mode = .ok texts) (h' : offsetRangeConditions mode' = .ok texts') :
    PairedAll relation texts texts' [] [] := by
  obtain ⟨partition, lower, upper, hmode, hcheck, hlower, hupper, rfl⟩ :=
    offsetRangeConditions_eq_ok h
  obtain ⟨partition', lower', upper', hmode', hcheck', hlower', hupper', rfl⟩ :=
    offsetRangeConditions_eq_ok h'
  rw [hmode, hmode'] at hpartition
  cases hpartition with
  | some hnumber =>
    have hcolumn : IsCode "_replay_partition = ".toList := .of_simple (by decide)
    have hfirst : Paired relation _ _ [] [] :=
      (paired_renderInt hcheck hcheck' hnumber).code_append hcolumn
    exact ((PairedAll.singleton hfirst).append
      (pairedAll_offsetBound (.of_simple (by decide)) hfrom hlower hlower')).append
      (pairedAll_offsetBound (.of_simple (by decide)) hto hupper hupper')

theorem timeColumnByName_simple {name : String} (h : timeColumnByName name = some timeColumn) :
    timeColumn.all isSimple = true := by
  unfold timeColumnByName at h
  split at h
  · cases h
    decide
  · cases h
    decide
  · cases h

theorem pairedAll_modeConditions (hsame : SameMode numbers mode mode')
    (hkind : mode.kind ∈ modeKinds) (hcolumn : timeColumn.all isSimple = true)
    (hsameColumn : mode.kind = "timeRange" → timeColumn = timeColumn')
    (h : modeConditions python mode timeColumn = .ok texts)
    (h' : modeConditions python mode' timeColumn' = .ok texts') :
    PairedAll relation texts texts' mode.strings mode'.strings := by
  unfold modeConditions at h h'
  rw [MessageQueryMode.strings, MessageQueryMode.strings, ← hsame.kind]
  rw [← hsame.kind] at h'
  by_cases hnewest : mode.kind = "newest"
  · rw [if_pos hnewest] at h h'
    cases h
    cases h'
    rw [hnewest]
    exact .nil
  rw [if_neg hnewest] at h h'
  split_ifs at h h' ⊢ with htime
  · obtain rfl := hsameColumn htime
    exact pairedAll_timeRange hcolumn (hsame.fromTime htime) (hsame.toTime htime) h h'
  · have hoffset : mode.kind = "offsetRange" := by
      simp only [modeKinds, mem_cons, not_mem_nil, or_false] at hkind
      exact (hkind.resolve_left hnewest).resolve_left htime
    exact pairedAll_offsetRange (hsame.partition hoffset) (hsame.fromOffset hoffset)
      (hsame.toOffset hoffset) h h'

theorem cursorCondition_eq_ok {cursor : MessageQueryCursor}
    (h : cursorCondition python cursor = .ok text) :
    0 ≤ cursor.partition ∧ 0 ≤ cursor.offset ∧
      ∃ landedLiteral, timeLiteral python cursor.landedAt "cursor.landedAt" = .ok landedLiteral ∧
        text = "(_replay_landed_at, _replay_partition, _replay_offset) < (".toList ++
          landedLiteral ++ ", ".toList ++ renderInt cursor.partition ++ ", ".toList ++
          renderInt cursor.offset ++ ")".toList := by
  obtain ⟨_, hpartition, hrest⟩ := bind_eq_ok.mp h
  obtain ⟨_, hoffset, hrest⟩ := bind_eq_ok.mp hrest
  obtain ⟨landedLiteral, hlanded, htext⟩ := bind_eq_ok.mp hrest
  cases htext
  exact ⟨requireNonNegative_eq_ok.mp hpartition, requireNonNegative_eq_ok.mp hoffset, landedLiteral,
    hlanded, rfl⟩

theorem paired_cursorCondition {cursor cursor' : MessageQueryCursor}
    (hsame : SameCursor numbers cursor cursor') (h : cursorCondition python cursor = .ok text)
    (h' : cursorCondition python cursor' = .ok text') :
    Paired relation text text' [cursor.landedAt] [cursor'.landedAt] := by
  obtain ⟨hpartition, hoffset, landed, hlanded, rfl⟩ := cursorCondition_eq_ok h
  obtain ⟨hpartition', hoffset', landed', hlanded', rfl⟩ := cursorCondition_eq_ok h'
  have hcomma : IsCode ", ".toList := .of_simple (by decide)
  have htime : Paired relation _ _ _ _ := paired_timeLiteral hlanded hlanded'
  have hnumber : Paired relation _ _ _ _ :=
    (paired_renderInt hpartition hpartition' hsame.partition).code_append hcomma
  have hnumber' : Paired relation _ _ _ _ :=
    (paired_renderInt hoffset hoffset' hsame.offset).code_append hcomma
  have hcloses : ∀ more : List Char, ClosesQuotes (", ".toList ++ more) :=
    fun more => ClosesQuotes.append (by decide) (by decide) more
  have hbefore : IsCode "(_replay_landed_at, _replay_partition, _replay_offset) < (".toList :=
    .of_simple (by decide)
  have hafter : IsCode ")".toList := .of_simple (by decide)
  have hnumbers := hnumber.append hnumber' (hcloses _) (hcloses _)
  have hcursor := (htime.append hnumbers (hcloses _) (hcloses _)).between hbefore hafter (by decide)
  simpa only [append_assoc, append_nil] using hcursor

variable {document document' : MessagesQueryDocument} {request request' : MessagesQueryRequest}

theorem pairedAll_cursor {cursor cursor' : Option MessageQueryCursor}
    {condition condition' : Option (List Char)}
    (hsame : Option.Rel (SameCursor numbers) cursor cursor')
    (h : cursor.mapM (cursorCondition python) = .ok condition)
    (h' : cursor'.mapM (cursorCondition python) = .ok condition') :
    PairedAll relation condition.toList condition'.toList (cursor.toList.map (·.landedAt))
      (cursor'.toList.map (·.landedAt)) := by
  cases hsame with
  | none =>
    cases h
    cases h'
    exact .nil
  | some hcursor =>
    obtain ⟨text, htext, hcondition⟩ := bind_eq_ok.mp h
    obtain ⟨text', htext', hcondition'⟩ := bind_eq_ok.mp h'
    cases hcondition
    cases hcondition'
    exact .singleton (paired_cursorCondition hcursor htext htext')

theorem forall₂_zipIdx {R : α → α → Prop} {items items' : List α} (start : ℕ)
    (h : List.Forall₂ R items items') :
    List.Forall₂ (fun item item' => R item.1 item'.1 ∧ item.2 = item'.2) (items.zipIdx start)
      (items'.zipIdx start) := by
  induction h generalizing start with
  | nil => exact .nil
  | cons hfirst _ ih => exact .cons ⟨hfirst, rfl⟩ (ih (start + 1))

theorem paired_preview {index : ℕ} (hsame : List.Forall₂ (SameSegment numbers) path path')
    (h : previewProjection path index = .ok text) (h' : previewProjection path' index = .ok text') :
    Paired relation text text' (pathStrings path) (pathStrings path') := by
  obtain ⟨expression, hexpression, htext⟩ := bind_eq_ok.mp h
  obtain ⟨expression', hexpression', htext'⟩ := bind_eq_ok.mp h'
  cases htext
  cases htext'
  have hpaired : Paired relation _ _ _ _ := paired_stringExpression hsame hexpression hexpression'
  have hname : IsCode " AS preview_".toList := .of_simple (by decide)
  rw [append_assoc, append_assoc]
  exact hpaired.append_code (hname.append (isCode_digits index))
    (ClosesQuotes.append (by decide) (by decide) _)

theorem pairedAll_previews {paths paths' : List (List PathSegment)}
    (hsame : List.Forall₂ (List.Forall₂ (SameSegment numbers)) paths paths')
    (h : (paths.zipIdx.mapM fun (path, index) => previewProjection path index) = .ok texts)
    (h' : (paths'.zipIdx.mapM fun (path, index) => previewProjection path index) = .ok texts') :
    PairedAll relation texts texts' (paths.flatMap pathStrings) (paths'.flatMap pathStrings) := by
  have hstrings : ∀ paths : List (List PathSegment),
      (paths.zipIdx.flatMap fun item => pathStrings item.1) = paths.flatMap pathStrings := by
    intro paths
    conv_rhs => rw [← zipIdx_map_fst 0 paths]
    rw [flatMap_map]
  rw [← hstrings, ← hstrings]
  apply PairedAll.of_mapM _ (forall₂_zipIdx 0 hsame) h h'
  rintro ⟨path, index⟩ ⟨path', index'⟩ ⟨hpath, hindex⟩ text text' htext htext'
  dsimp only at hindex
  subst hindex
  exact paired_preview hpath htext htext'

theorem pairedAll_window (windowSeconds : Option ℕ) :
    PairedAll relation (windowSeconds.map windowCondition).toList
      (windowSeconds.map windowCondition).toList [] [] := by
  cases windowSeconds with
  | none => exact .nil
  | some seconds =>
    have hbefore : IsCode "_replay_landed_at >= now64(3) - INTERVAL ".toList := by decide
    have hafter : IsCode " SECOND".toList := .of_simple (by decide)
    exact .singleton (.code ((hbefore.append (isCode_digits seconds)).append hafter))

theorem paired_whereClause {strings strings' cursorStrings cursorStrings' : List (List Char)}
    (hconditions : PairedAll relation document.conditions document'.conditions strings strings')
    (hcursor : PairedAll relation document.cursorCondition.toList
      document'.cursorCondition.toList cursorStrings cursorStrings') (windowSeconds : Option ℕ) :
    Paired relation (whereClause document windowSeconds) (whereClause document' windowSeconds)
      (strings ++ cursorStrings) (strings' ++ cursorStrings') := by
  have hall := (hconditions.append (pairedAll_window windowSeconds)).append hcursor
  rw [append_nil, append_nil] at hall
  rw [whereClause, whereClause]
  by_cases hnil : document.conditions ++ (windowSeconds.map windowCondition).toList ++
      document.cursorCondition.toList = []
  · have hnil' := hall.eq_nil_iff.mp hnil
    rw [if_pos hnil, if_pos hnil']
    rw [hnil, hnil'] at hall
    obtain ⟨hstrings, hstrings'⟩ := hall.values_eq_nil
    rw [hstrings, hstrings']
    exact .nil
  · rw [if_neg hnil, if_neg (hall.eq_nil_iff.not.mp hnil)]
    exact (hall.intercalate (.of_simple (by decide)) (by decide) (by decide)).code_append
      (.of_simple (by decide))

theorem closesQuotes_whereClause (document : MessagesQueryDocument) (windowSeconds : Option ℕ)
    {more : List Char} (hmore : ClosesQuotes more) :
    ClosesQuotes (whereClause document windowSeconds ++ more) := by
  rw [whereClause]
  split_ifs
  · exact hmore
  · rw [append_assoc]
    exact ClosesQuotes.append (by decide) (by decide) _

/-- What the parts of two documents have in common. -/
structure PairedDocument (relation : TokenRelation numbers)
    (request request' : MessagesQueryRequest) (document document' : MessagesQueryDocument) :
    Prop where
  conditions : PairedAll relation document.conditions document'.conditions
    (request.predicates.flatMap (·.strings) ++ request.mode.strings)
    (request'.predicates.flatMap (·.strings) ++ request'.mode.strings)
  limit : Paired relation (renderInt document.limit) (renderInt document'.limit) [] []
  cursor : PairedAll relation document.cursorCondition.toList document'.cursorCondition.toList
    (request.cursor.toList.map (·.landedAt)) (request'.cursor.toList.map (·.landedAt))
  previews : PairedAll relation document.previewProjections document'.previewProjections
    (request.previewPaths.flatMap pathStrings) (request'.previewPaths.flatMap pathStrings)

theorem pairedDocument (hfloats : ∀ number number', floats number number' →
      relation.Related (number.text.map .plain) (number'.text.map .plain))
    (hsame : SameForm numbers floats python request request')
    (h : parseMessagesDocument python request = .ok document)
    (h' : parseMessagesDocument python request' = .ok document') :
    PairedDocument relation request request' document document' := by
  obtain ⟨hkind, -, timeColumn, filters, bounds, cursor, previews, hcolumn, hfilters, hbounds,
    hcursor, hpreviews, rfl⟩ := parseMessagesDocument_eq_ok.mp h
  obtain ⟨-, -, timeColumn', filters', bounds', cursor', previews', hcolumn', hfilters', hbounds',
    hcursor', hpreviews', rfl⟩ := parseMessagesDocument_eq_ok.mp h'
  have hsameColumn : request.mode.kind = "timeRange" → timeColumn = timeColumn' := by
    intro htime
    rw [hsame.timeColumn htime, hcolumn'] at hcolumn
    exact Option.some.inj hcolumn.symm
  have hpredicates : PairedAll relation filters filters' _ _ :=
    .of_mapM (fun _ _ hpredicate => paired_predicateCondition hfloats hpredicate)
      hsame.predicates hfilters hfilters'
  constructor
  case conditions =>
    exact hpredicates.append (pairedAll_modeConditions hsame.mode hkind
      (timeColumnByName_simple hcolumn) hsameColumn hbounds hbounds')
  case limit => exact paired_renderInt (by dsimp only; omega) (by dsimp only; omega) hsame.limit
  case cursor => exact pairedAll_cursor hsame.cursor hcursor hcursor'
  case previews => exact pairedAll_previews hsame.previewPaths hpreviews hpreviews'

theorem paired_relationName (name : RelationName) :
    Paired relation name.quoted name.quoted [] [] := by
  apply Paired.backticked
  intro c hc
  exact of_decide_eq_true (all_eq_true.mp name.plain c hc)

theorem isCode_messageColumns : IsCode messageColumns := by
  unfold messageColumns
  repeat' apply IsCode.append
  all_goals exact .of_simple (by decide)

/-- The parts of the statement, from its end. -/
theorem PairedDocument.buildMessagesSql (database relationName : RelationName)
    (windowSeconds : Option ℕ) (h : PairedDocument relation request request' document document') :
    Paired relation (buildMessagesSql database relationName document windowSeconds)
      (buildMessagesSql database relationName document' windowSeconds) request.strings
      request'.strings := by
  have hlimit : IsCode "LIMIT ".toList := .of_simple (by decide)
  have horder : IsCode
      " ORDER BY _replay_landed_at DESC, _replay_partition DESC, _replay_offset DESC ".toList :=
    .of_simple (by decide)
  have hcloses : ∀ more : List Char, ClosesQuotes
      (" ORDER BY _replay_landed_at DESC, _replay_partition DESC, _replay_offset DESC ".toList ++
        more) := ClosesQuotes.append (by decide) (by decide)
  have hdot : IsCode ".".toList := .of_simple (by decide)
  have hfrom : IsCode " FROM ".toList := .of_simple (by decide)
  have hend := (h.limit.code_append hlimit).code_append horder
  have hwhere := (paired_whereClause h.conditions h.cursor windowSeconds).append hend (hcloses _)
    (hcloses _)
  have hrelation := (paired_relationName relationName).append hwhere
    (closesQuotes_whereClause document windowSeconds (hcloses _))
    (closesQuotes_whereClause document' windowSeconds (hcloses _))
  have hdatabase := (paired_relationName database).append (hrelation.code_append hdot)
    (.append (by decide) (by decide) _) (.append (by decide) (by decide) _)
  have hcomma : IsCode ", ".toList := .of_simple (by decide)
  have hpreviews := (h.previews.flatMap hcomma (by decide) (by decide)).append
    (hdatabase.code_append hfrom) (.append (by decide) (by decide) _)
    (.append (by decide) (by decide) _)
  simpa only [DevServer.buildMessagesSql, MessagesQueryRequest.strings,
    append_assoc, nil_append, append_nil] using
    hpreviews.code_append isCode_messageColumns

theorem forall₂_same {R : α → α → Prop} (h : ∀ a, R a a) (items : List α) :
    List.Forall₂ R items items := by
  rw [List.forall₂_same]
  exact fun a _ => h a

theorem optionRel_same {R : α → α → Prop} (h : ∀ a, R a a) (item : Option α) :
    Option.Rel R item item := by
  cases item with
  | none => exact .none
  | some a => exact .some (h a)

theorem SameForm.refl (hnumbers : ∀ n, numbers n n) (request : MessagesQueryRequest) :
    SameForm numbers (· = ·) python request request := by
  have hnumber : ∀ n, SameNumber numbers n n := fun n => hnumbers n.toNat
  have hsegment : ∀ segment, SameSegment numbers segment segment := by
    intro segment
    cases segment with
    | text segment => exact .text segment segment
    | index position => exact .index (hnumber position)
  have hpath := forall₂_same hsegment
  exact {
    mode := {
      kind := rfl
      fromTime := fun _ => rfl
      toTime := fun _ => rfl
      partition := fun _ => optionRel_same hnumber _
      fromOffset := fun _ => optionRel_same hnumber _
      toOffset := fun _ => optionRel_same hnumber _ }
    predicates := forall₂_same (fun predicate => {
      field := rfl
      op := rfl
      values := fun _ => forall₂_same hnumber _
      path := fun _ => hpath _
      value := fun _ _ _ _ hnumber hnumber' => Except.ok.inj (hnumber.symm.trans hnumber') }) _
    limit := hnumber _
    cursor := optionRel_same (fun cursor => ⟨hnumber _, hnumber _⟩) _
    timeColumn := fun _ => rfl
    previewPaths := forall₂_same hpath _ }

theorem related_of_paired {strings strings' : List (List Char)} {read read' : List Token}
    (h : Paired relation text text' strings strings') (hread : tokens text = some read)
    (hread' : tokens text' = some read') : relation.Related read read' := by
  obtain ⟨first, second, hfirst, hsecond, hrelated, -, -⟩ := h.reads
  rw [Option.some.inj (hread.symm.trans hfirst.tokens_eq),
    Option.some.inj (hread'.symm.trans hsecond.tokens_eq)]
  exact hrelated

/-- The statements of two accepted documents are read, and their literals are the texts of the
documents. Where the documents differ in their texts and numbers only, the tokens have one shape,
and where they differ in their texts only, the tokens differ in the contents of the literals
only. -/
theorem message_filters_inject_nothing (database relationName : RelationName)
    (windowSeconds : Option ℕ) (h : parseMessagesDocument python request = .ok document)
    (h' : parseMessagesDocument python request' = .ok document') :
    ∃ read read',
      tokens (buildMessagesSql database relationName document windowSeconds) = some read ∧
      tokens (buildMessagesSql database relationName document' windowSeconds) = some read' ∧
      literals read = request.strings ∧ literals read' = request'.strings ∧
      (SameForm (fun _ _ => True) SameKind python request request' → shape read = shape read') ∧
      (SameForm (· = ·) (· = ·) python request request' →
        read.map Token.blank = read'.map Token.blank) := by
  have hequal : ∀ number number' : PythonFloat, number = number' →
      sameOutsideLiterals.Related (number.text.map .plain) (number'.text.map .plain) := by
    rintro number _ rfl
    exact sameOutsideLiterals.refl _
  have hfirst : PairedDocument sameOutsideLiterals _ _ _ _ :=
    pairedDocument hequal (.refl (fun _ => rfl) request) h h
  have hsecond : PairedDocument sameOutsideLiterals _ _ _ _ :=
    pairedDocument hequal (.refl (fun _ => rfl) request') h' h'
  obtain ⟨read, -, hread, -, -, hliterals, -⟩ :=
    (hfirst.buildMessagesSql database relationName windowSeconds).reads
  obtain ⟨read', -, hread', -, -, hliterals', -⟩ :=
    (hsecond.buildMessagesSql database relationName windowSeconds).reads
  refine ⟨read, read', hread.tokens_eq, hread'.tokens_eq, hliterals, hliterals', ?_, ?_⟩
  · intro hsame
    have hpaired : PairedDocument sameShape _ _ _ _ :=
      pairedDocument (fun _ _ => shape_of_sameKind) hsame h h'
    exact related_of_paired (hpaired.buildMessagesSql database relationName windowSeconds)
      hread.tokens_eq hread'.tokens_eq
  · intro hsame
    have hpaired : PairedDocument sameOutsideLiterals _ _ _ _ := pairedDocument hequal hsame h h'
    exact related_of_paired (hpaired.buildMessagesSql database relationName windowSeconds)
      hread.tokens_eq hread'.tokens_eq

/-- The newest messages, with one filter. -/
def filterRequest (predicate : MessageQueryPredicate) : MessagesQueryRequest where
  mode := ⟨"newest", none, none, none, none, none⟩
  predicates := [predicate]
  limit := 50
  cursor := none
  timeColumn := "landed"
  previewPaths := []

def keyFilter (value : List Char) : MessageQueryPredicate :=
  ⟨"key", "eq", some (.text value), [], []⟩

def partitionFilter (values : List ℤ) : MessageQueryPredicate :=
  ⟨"partition", "in", none, values, []⟩

def exampleNumbers : PythonNumbers := ⟨fun _ => true, fun _ => none⟩

theorem sameForm_keyFilter (value value' : List Char) :
    SameForm (· = ·) (· = ·) exampleNumbers (filterRequest (keyFilter value))
      (filterRequest (keyFilter value')) where
  mode := ⟨rfl, fun _ => rfl, fun _ => rfl, fun _ => .none, fun _ => .none, fun _ => .none⟩
  predicates := by
    have hfield : ("key" : String) ≠ "json" := by decide
    exact .cons ⟨rfl, rfl, fun _ => .nil, fun _ => .nil, fun h => absurd h hfield⟩ .nil
  limit := rfl
  cursor := .none
  timeColumn := fun _ => rfl
  previewPaths := .nil

def exampleDatabase : RelationName := ⟨"app".toList, by decide⟩

def exampleRelation : RelationName := ⟨"raw_orders".toList, by decide⟩

theorem message_filters_inject_nothing_quotes :
    ∃ document document',
      parseMessagesDocument exampleNumbers (filterRequest (keyFilter ['\\'])) = .ok document ∧
      parseMessagesDocument exampleNumbers (filterRequest (keyFilter "' OR 1 = 1".toList)) =
        .ok document' ∧
      ∃ read read',
        tokens (buildMessagesSql exampleDatabase exampleRelation document (some 3600)) = some read ∧
        tokens (buildMessagesSql exampleDatabase exampleRelation document' (some 3600)) =
          some read' ∧
        literals read = [['\\']] ∧ literals read' = ["' OR 1 = 1".toList] ∧
        read.map Token.blank = read'.map Token.blank := by
  have h : parseMessagesDocument exampleNumbers (filterRequest (keyFilter ['\\'])) = .ok _ := rfl
  have h' : parseMessagesDocument exampleNumbers (filterRequest (keyFilter "' OR 1 = 1".toList)) =
      .ok _ := rfl
  obtain ⟨read, read', hread, hread', hliterals, hliterals', -, hblank⟩ :=
    message_filters_inject_nothing exampleDatabase exampleRelation (some 3600) h h'
  exact ⟨_, _, h, h', read, read', hread, hread', hliterals, hliterals',
    hblank (sameForm_keyFilter _ _)⟩

/-- The fields, the operators and the lengths of the paths leave open how many partitions are
asked for. -/
theorem shape_not_fixed_by_paths :
    ¬ ∀ (request request' : MessagesQueryRequest) (document document' : MessagesQueryDocument),
      parseMessagesDocument exampleNumbers request = .ok document →
      parseMessagesDocument exampleNumbers request' = .ok document' →
      (request.predicates.map fun predicate =>
        (predicate.field, predicate.op, predicate.path.length)) =
      (request'.predicates.map fun predicate =>
        (predicate.field, predicate.op, predicate.path.length)) →
      (tokens (buildMessagesSql exampleDatabase exampleRelation document none)).map shape =
        (tokens (buildMessagesSql exampleDatabase exampleRelation document' none)).map shape := by
  intro hfixed
  have hsame :=
    hfixed (filterRequest (partitionFilter [1])) (filterRequest (partitionFilter [1, 2]))
    _ _ rfl rfl rfl
  exact absurd hsame (by decide +kernel)

end SqlTide.DevServer
