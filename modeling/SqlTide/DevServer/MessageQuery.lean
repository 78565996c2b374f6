import SqlTide.Foundations.Failures
import SqlTide.Foundations.Json
import SqlTide.Foundations.Substrings

/-!
# The message query

A message browsing document is validated and compiled to the conditions and projections of one
statement. Texts of the document stand in string literals of the statement.
-/

namespace SqlTide.DevServer

open Foundations Foundations.Json

def previewPathMaxCount : ℕ := 4

def pathMaxDepth : ℕ := 8

def pathSegmentMaxChars : ℕ := 64

def newestWindowsSeconds : List (Option ℕ) := [some 3600, some 86400, none]

/-- `str` of a float: a number with its sign and its exponent, or the name of one. -/
structure PythonFloat where
  negative : Bool
  magnitude : List Char
  exponent : Option (Bool × ℕ)
  nonempty : magnitude ≠ []
  plain : magnitude.all (fun c => c.isDigit || c ∈ ['.', 'i', 'n', 'f', 'a']) = true
  deriving DecidableEq

/-- The exponent has two digits at least. -/
def PythonFloat.text (number : PythonFloat) : List Char :=
  (if number.negative then ['-'] else []) ++ number.magnitude ++
    match number.exponent with
    | none => []
    | some (negative, value) =>
      ['e', if negative then '-' else '+'] ++ (if value < 10 then ['0'] else []) ++
        Nat.toDigits 10 value

inductive QueryValue where
  | text (value : List Char)
  | int (value : ℤ)
  | float (value : PythonFloat)
  deriving DecidableEq

inductive PathSegment where
  | text (segment : List Char)
  | index (position : ℤ)
  deriving DecidableEq

structure MessageQueryMode where
  kind : String
  fromTime : Option (List Char)
  toTime : Option (List Char)
  partition : Option ℤ
  fromOffset : Option ℤ
  toOffset : Option ℤ
  deriving DecidableEq

structure MessageQueryPredicate where
  field : String
  op : String
  value : Option QueryValue
  values : List ℤ
  path : List PathSegment
  deriving DecidableEq

structure MessageQueryCursor where
  landedAt : List Char
  partition : ℤ
  offset : ℤ
  deriving DecidableEq

structure MessagesQueryRequest where
  mode : MessageQueryMode
  predicates : List MessageQueryPredicate
  limit : ℤ
  cursor : Option MessageQueryCursor
  timeColumn : String
  previewPaths : List (List PathSegment)
  deriving DecidableEq

/-- `overflow` is the error of `float` for an integer that is too large. -/
inductive MessageQueryError where
  | validation (message : String)
  | overflow
  deriving DecidableEq, Repr

abbrev Compiled (α : Type) := Except MessageQueryError α

structure MessagesQueryDocument where
  modeKind : String
  conditions : List (List Char)
  limit : ℤ
  cursorCondition : Option (List Char)
  previewProjections : List (List Char)
  deriving DecidableEq

/-- Functions of the standard library: which texts are read as times, and floats of integers. -/
structure PythonNumbers where
  isIsoTime : List Char → Bool
  float : ℤ → Option PythonFloat

def invalid {α : Type} (message : String) : Compiled α := .error (.validation message)

def quoted (contents : List Char) : List Char := '\'' :: contents ++ ['\'']

def sqlLiteral (value : List Char) : List Char :=
  replaceAll ['\''] ['\\', '\''] (replaceAll ['\\'] ['\\', '\\'] value)

def requireNonNegative (value : ℤ) (fieldName : String) : Compiled Unit :=
  if value < 0 then invalid ("field '" ++ fieldName ++ "' requires non-negative integers")
  else .ok ()

def stringValue (predicate : MessageQueryPredicate) (fieldName : String) : Compiled (List Char) :=
  match predicate.value with
  | some (.text value) => .ok (sqlLiteral value)
  | _ => invalid ("field '" ++ fieldName ++ "' requires a string value")

def numericValue (python : PythonNumbers) (predicate : MessageQueryPredicate)
    (fieldName : String) : Compiled PythonFloat :=
  match predicate.value with
  | some (.int value) =>
    match python.float value with
    | some number => .ok number
    | none => .error .overflow
  | some (.float value) => .ok value
  | _ => invalid ("field '" ++ fieldName ++ "' requires a numeric value for gt/lt")

/-- What `fromisoformat` is asked for. -/
def isoText (value : List Char) : List Char :=
  let dated := replaceAll [' '] ['T'] value
  if dated.getLast? = some 'Z' then dated.dropLast else dated

def timeLiteral (python : PythonNumbers) (value : List Char) (fieldName : String) :
    Compiled (List Char) :=
  if python.isIsoTime (isoText value) then
    .ok ("parseDateTime64BestEffort(".toList ++ quoted (sqlLiteral value) ++ ", 3)".toList)
  else invalid ("field '" ++ fieldName ++ "' requires an ISO 8601 timestamp")

def forbiddenSegmentChars : List Char := ['\'', '"', '`', '\\']

def jsonPathSegment (fieldName : String) : PathSegment → Compiled (List Char)
  | .index position => do
    requireNonNegative position fieldName
    return renderInt position
  | .text segment =>
    if segment = [] ∨ segment.length > pathSegmentMaxChars then
      invalid ("field '" ++ fieldName ++ "' requires path segments of 1 to 64 characters")
    else if segment.any fun c => c ∈ forbiddenSegmentChars || c.toNat < 32 then
      invalid ("field '" ++ fieldName ++ "' path segments cannot contain quotes, backslashes, " ++
        "backticks, or control characters")
    else .ok (quoted segment)

def jsonPathArguments (path : List PathSegment) (fieldName : String) : Compiled (List Char) :=
  if path = [] then invalid ("field '" ++ fieldName ++ "' requires a JSON path")
  else if path.length > pathMaxDepth then
    invalid ("field '" ++ fieldName ++ "' allows JSON paths of depth at most 8")
  else do
    let segments ← path.mapM (jsonPathSegment fieldName)
    return List.intercalate ", ".toList segments

def jsonStringExpression (path : List PathSegment) (fieldName : String) :
    Compiled (List Char) := do
  let pathArguments ← jsonPathArguments path fieldName
  return "JSONExtractString(kafka_value, ".toList ++ pathArguments ++ ")".toList

def unsupportedOp {α : Type} (op fieldName : String) : Compiled α :=
  invalid ("unsupported op '" ++ op ++ "' for field '" ++ fieldName ++ "'")

def partitionCondition (predicate : MessageQueryPredicate) : Compiled (List Char) :=
  if predicate.op ≠ "in" then unsupportedOp predicate.op "partition"
  else if predicate.values = [] then invalid "field 'partition' requires at least one value"
  else do
    predicate.values.forM (requireNonNegative · "partition")
    let rendered := List.intercalate ", ".toList (predicate.values.map renderInt)
    return "_replay_partition IN (".toList ++ rendered ++ ")".toList

def keyCondition (predicate : MessageQueryPredicate) : Compiled (List Char) := do
  let literal ← stringValue predicate "key"
  match predicate.op with
  | "eq" => return "kafka_key = ".toList ++ quoted literal
  | "contains" => return "position(kafka_key, ".toList ++ quoted literal ++ ") > 0".toList
  | "prefix" => return "startsWith(kafka_key, ".toList ++ quoted literal ++ ")".toList
  | op => unsupportedOp op "key"

def valueCondition (predicate : MessageQueryPredicate) : Compiled (List Char) :=
  if predicate.op ≠ "contains" then unsupportedOp predicate.op "value"
  else do
    let literal ← stringValue predicate "value"
    return "position(kafka_value, ".toList ++ quoted literal ++ ") > 0".toList

def numericJsonOperators (op : String) : Option (List Char) :=
  match op with
  | "gt" => some ['>']
  | "lt" => some ['<']
  | _ => none

/-- The path is checked for every operator. -/
def jsonCondition (python : PythonNumbers) (predicate : MessageQueryPredicate) :
    Compiled (List Char) := do
  let stringExpression ← jsonStringExpression predicate.path "json"
  if predicate.op = "exists" then
    let pathArguments ← jsonPathArguments predicate.path "json"
    return "JSONHas(kafka_value, ".toList ++ pathArguments ++ ")".toList
  else match numericJsonOperators predicate.op with
  | some operator =>
    let number ← numericValue python predicate "json"
    let pathArguments ← jsonPathArguments predicate.path "json"
    return "JSONExtractFloat(kafka_value, ".toList ++ pathArguments ++ ") ".toList ++ operator ++
      " ".toList ++ number.text
  | none =>
    let literal ← stringValue predicate "json"
    match predicate.op with
    | "eq" => return stringExpression ++ " = ".toList ++ quoted literal
    | "ne" => return stringExpression ++ " != ".toList ++ quoted literal
    | "contains" =>
      return "position(".toList ++ stringExpression ++ ", ".toList ++ quoted literal ++
        ") > 0".toList
    | op => unsupportedOp op "json"

def headerCondition (predicate : MessageQueryPredicate) : Compiled (List Char) := do
  let literal ← stringValue predicate "header"
  match predicate.op with
  | "eq" => return "has(kafka_header_keys, ".toList ++ quoted literal ++ ")".toList
  | "contains" =>
    return "arrayExists(v -> position(v, ".toList ++ quoted literal ++
      ") > 0, kafka_header_values)".toList
  | op => unsupportedOp op "header"

def predicateCondition (python : PythonNumbers) (predicate : MessageQueryPredicate) :
    Compiled (List Char) :=
  match predicate.field with
  | "partition" => partitionCondition predicate
  | "key" => keyCondition predicate
  | "value" => valueCondition predicate
  | "json" => jsonCondition python predicate
  | "header" => headerCondition predicate
  | field => invalid ("unsupported predicate field '" ++ field ++ "'")

def timeBound (python : PythonNumbers) (timeColumn operator : List Char) (fieldName : String) :
    Option (List Char) → Compiled (List (List Char))
  | none => .ok []
  | some value => do
    let literal ← timeLiteral python value fieldName
    return [timeColumn ++ operator ++ literal]

def timeRangeConditions (python : PythonNumbers) (mode : MessageQueryMode)
    (timeColumn : List Char) : Compiled (List (List Char)) :=
  if mode.fromTime = none ∧ mode.toTime = none then
    invalid "timeRange mode requires fromTime or toTime"
  else do
    let lower ← timeBound python timeColumn " >= ".toList "fromTime" mode.fromTime
    let upper ← timeBound python timeColumn " <= ".toList "toTime" mode.toTime
    return lower ++ upper

def offsetBound (operator : List Char) (fieldName : String) :
    Option ℤ → Compiled (List (List Char))
  | none => .ok []
  | some value => do
    requireNonNegative value fieldName
    return ["_replay_offset".toList ++ operator ++ renderInt value]

def requireOffsetOrder : Option ℤ → Option ℤ → Compiled Unit
  | some fromOffset, some toOffset =>
    if fromOffset > toOffset then invalid "fromOffset must not exceed toOffset" else .ok ()
  | _, _ => .ok ()

def offsetRangeConditions (mode : MessageQueryMode) : Compiled (List (List Char)) :=
  match mode.partition with
  | none => invalid "offsetRange mode requires exactly one partition"
  | some partition => do
    requireNonNegative partition "partition"
    let lower ← offsetBound " >= ".toList "fromOffset" mode.fromOffset
    let upper ← offsetBound " <= ".toList "toOffset" mode.toOffset
    requireOffsetOrder mode.fromOffset mode.toOffset
    return ["_replay_partition = ".toList ++ renderInt partition] ++ lower ++ upper

def modeConditions (python : PythonNumbers) (mode : MessageQueryMode) (timeColumn : List Char) :
    Compiled (List (List Char)) :=
  if mode.kind = "newest" then .ok []
  else if mode.kind = "timeRange" then timeRangeConditions python mode timeColumn
  else offsetRangeConditions mode

def cursorCondition (python : PythonNumbers) (cursor : MessageQueryCursor) :
    Compiled (List Char) := do
  requireNonNegative cursor.partition "cursor.partition"
  requireNonNegative cursor.offset "cursor.offset"
  let landedLiteral ← timeLiteral python cursor.landedAt "cursor.landedAt"
  return "(_replay_landed_at, _replay_partition, _replay_offset) < (".toList ++ landedLiteral ++
    ", ".toList ++ renderInt cursor.partition ++ ", ".toList ++ renderInt cursor.offset ++
    ")".toList

def modeKinds : List String := ["newest", "timeRange", "offsetRange"]

def timeColumnByName (name : String) : Option (List Char) :=
  match name with
  | "landed" => some "_replay_landed_at".toList
  | "kafka" => some "kafka_timestamp".toList
  | _ => none

def previewProjection (path : List PathSegment) (index : ℕ) : Compiled (List Char) := do
  let stringExpression ← jsonStringExpression path "previewPaths"
  return stringExpression ++ " AS preview_".toList ++ Nat.toDigits 10 index

def parseMessagesDocument (python : PythonNumbers) (request : MessagesQueryRequest) :
    Compiled MessagesQueryDocument :=
  if request.mode.kind ∉ modeKinds then
    invalid ("unsupported mode kind '" ++ request.mode.kind ++ "'")
  else match timeColumnByName request.timeColumn with
  | none => invalid ("unsupported time column '" ++ request.timeColumn ++ "'")
  | some timeColumn =>
    if request.previewPaths.length > previewPathMaxCount then
      invalid "previewPaths allows at most 4 paths"
    else do
      let filters ← request.predicates.mapM (predicateCondition python)
      let bounds ← modeConditions python request.mode timeColumn
      let cursor ← request.cursor.mapM (cursorCondition python)
      let previews ← request.previewPaths.zipIdx.mapM fun (path, index) =>
        previewProjection path index
      return {
        modeKind := request.mode.kind
        conditions := filters ++ bounds
        limit := min (max request.limit 1) 500
        cursorCondition := cursor
        previewProjections := previews }

theorem requireNonNegative_eq_ok {value : ℤ} {fieldName : String} {checked : Unit} :
    requireNonNegative value fieldName = .ok checked ↔ 0 ≤ value := by
  rw [requireNonNegative]
  split_ifs with hneg
  · simp [invalid, hneg]
  · simpa using hneg

variable {python : PythonNumbers} {request : MessagesQueryRequest}
  {document : MessagesQueryDocument}

theorem parseMessagesDocument_eq_ok :
    parseMessagesDocument python request = .ok document ↔
      request.mode.kind ∈ modeKinds ∧ request.previewPaths.length ≤ previewPathMaxCount ∧
      ∃ timeColumn filters bounds cursor previews,
        timeColumnByName request.timeColumn = some timeColumn ∧
        request.predicates.mapM (predicateCondition python) = .ok filters ∧
        modeConditions python request.mode timeColumn = .ok bounds ∧
        request.cursor.mapM (cursorCondition python) = .ok cursor ∧
        (request.previewPaths.zipIdx.mapM fun (path, index) => previewProjection path index) =
          .ok previews ∧
        document = {
          modeKind := request.mode.kind
          conditions := filters ++ bounds
          limit := min (max request.limit 1) 500
          cursorCondition := cursor
          previewProjections := previews } := by
  constructor
  · intro h
    unfold parseMessagesDocument at h
    by_cases hkind : request.mode.kind ∈ modeKinds
    swap
    · rw [if_pos hkind] at h
      cases h
    rw [if_neg (not_not.mpr hkind)] at h
    refine ⟨hkind, ?_⟩
    split at h
    · cases h
    · next timeColumn hcolumn =>
      split_ifs at h with hpreviews
      · cases h
      obtain ⟨filters, hfilters, hrest⟩ := bind_eq_ok.mp h
      obtain ⟨bounds, hbounds, hrest⟩ := bind_eq_ok.mp hrest
      obtain ⟨cursor, hcursor, hrest⟩ := bind_eq_ok.mp hrest
      obtain ⟨previews, hpreview, hdocument⟩ := bind_eq_ok.mp hrest
      cases hdocument
      exact ⟨not_lt.mp hpreviews, timeColumn, filters, bounds, cursor, previews, hcolumn, hfilters,
        hbounds, hcursor, hpreview, rfl⟩
  · rintro ⟨hkind, hcount, timeColumn, filters, bounds, cursor, previews, hcolumn, hfilters,
      hbounds, hcursor, hpreviews, rfl⟩
    rw [parseMessagesDocument, if_neg (not_not.mpr hkind), hcolumn]
    dsimp only
    rw [if_neg (not_lt.mpr hcount), hfilters, hbounds, hcursor, hpreviews]
    rfl

/-- Another page has the conditions and projections of the first one. -/
theorem parseMessagesDocument_page {cursor : Option MessageQueryCursor}
    {condition : Option (List Char)} (limit : ℤ)
    (h : parseMessagesDocument python { request with cursor := none } = .ok document)
    (hcursor : cursor.mapM (cursorCondition python) = .ok condition) :
    parseMessagesDocument python { request with limit, cursor } =
      .ok { document with
        limit := min (max limit 1) 500
        cursorCondition := condition } := by
  obtain ⟨hkind, hcount, timeColumn, filters, bounds, -, previews, hcolumn, hfilters, hbounds, -,
    hpreviews, rfl⟩ := parseMessagesDocument_eq_ok.mp h
  exact parseMessagesDocument_eq_ok.mpr ⟨hkind, hcount, timeColumn, filters, bounds, condition,
    previews, hcolumn, hfilters, hbounds, hcursor, hpreviews, rfl⟩

/-- The name of a database or of a relation, which needs no escapes between backticks. -/
structure RelationName where
  text : List Char
  plain : text.all (fun c => c ≠ '\\' ∧ c ≠ '`') = true

def RelationName.quoted (name : RelationName) : List Char := '`' :: name.text ++ ['`']

def windowCondition (seconds : ℕ) : List Char :=
  "_replay_landed_at >= now64(3) - INTERVAL ".toList ++ Nat.toDigits 10 seconds ++
    " SECOND".toList

def whereClause (document : MessagesQueryDocument) (windowSeconds : Option ℕ) : List Char :=
  let conditions := document.conditions ++ (windowSeconds.map windowCondition).toList ++
    document.cursorCondition.toList
  if conditions = [] then [] else " WHERE ".toList ++ List.intercalate " AND ".toList conditions

def messageColumns : List Char :=
  "SELECT toString(_replay_landed_at) AS landed_at, ".toList ++
    "toString(kafka_timestamp) AS kafka_timestamp, ".toList ++
    "_replay_partition AS partition, _replay_offset AS offset, ".toList ++
    "kafka_key AS key, length(kafka_key) AS key_bytes, ".toList ++
    "substring(kafka_value, 1, 512) AS value_preview, ".toList ++
    "length(kafka_value) AS value_bytes, ".toList ++
    "kafka_header_keys AS header_keys, kafka_header_values AS header_values".toList

def buildMessagesSql (database relationName : RelationName) (document : MessagesQueryDocument)
    (windowSeconds : Option ℕ) : List Char :=
  messageColumns ++ document.previewProjections.flatMap (", ".toList ++ ·) ++
    " FROM ".toList ++ database.quoted ++ ".".toList ++ relationName.quoted ++
    whereClause document windowSeconds ++
    " ORDER BY _replay_landed_at DESC, _replay_partition DESC, _replay_offset DESC ".toList ++
    "LIMIT ".toList ++ renderInt document.limit

end SqlTide.DevServer
