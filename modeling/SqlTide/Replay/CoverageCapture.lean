import SqlTide.Foundations.DecimalText
import SqlTide.Foundations.Islands
import SqlTide.Replay.DeploymentReplay

/-!
# Captured coverage of a direct replay

Before a direct replay the coverage query lists the ranges of consecutive offsets that the
window of the replay selects, as rows of texts. The rows are checked and decoded, the ranges of
a partition are merged to one pair of bounds, and the bounds go into the replay as literals.
-/

namespace SqlTide.Replay

open Foundations Sql

/-- A replay of a direct build, with what building it has made sure of. -/
structure DirectRuntimeReplay where
  modelName : String
  replay : AdapterReplayRequest
  inclusive : replay.window.lowerBoundInclusive = true
  anchor_named : replay.relations.anchor ≠ ""
  offset_named : replay.columns.offset ≠ ""

inductive CaptureError
  | adapterResult (message : String)
  | directBuild (message : String)
  | adapterReplay (message : String)
  | valueError (text : String)
  deriving DecidableEq, Repr

section

variable (replay : AdapterReplayRequest) (anchor : Relation)

/-- The anchor rows that pass the lower bound, if there is one. -/
def coverageWindow : Option Relation → List Row
  | none => anchor.rows
  | some start =>
    (holding
      (leftJoin anchor.rows start.rows
        (fun row start => equal (row replay.columns.partition) (start "_replay_partition"))
        start.defaultRow)
      fun joined => offsetLowerBoundClause replay.columns.offset
        replay.window.lowerBoundInclusive joined.1 joined.2).map (·.1)

/-- The partition and the offset of a row; both columns hold integers. -/
def rowPosition (columns : AdapterReplayColumns) (row : Row) : Option (Int × Int) :=
  Option.map₂ Prod.mk (row columns.partition) (row columns.offset)

/-- `SELECT DISTINCT partition, offset`. -/
def coveragePositions (start : Option Relation) : List (Int × Int) :=
  ((coverageWindow replay anchor start).filterMap (rowPosition replay.columns)).eraseDups

/-- `ORDER BY partition_value, lower_value`. -/
def rangeOrder (a b : Islands.Range Int) : Prop :=
  a.partition < b.partition ∨ (a.partition = b.partition ∧ a.lower ≤ b.lower)

instance : DecidableRel rangeOrder := fun _ _ => inferInstanceAs (Decidable (_ ∨ _))

def coverageRanges (start : Option Relation) : List (Islands.Range Int) :=
  (Islands.islands (coveragePositions replay anchor start)).insertionSort rangeOrder

/-- A row of a query result: its texts by column, and the one column that is no text. -/
structure CaptureRow where
  texts : List (String × String)
  cutoffInclusive : Bool

def partitionKey (partitionValue : String) : String := "_replay_partition=" ++ partitionValue

def captureRow (range : Islands.Range Int) : CaptureRow :=
  { texts :=
      [("driving_input_relation_name", replay.relations.anchor),
        ("replay_boundary_mode", "offsets"),
        ("boundary_key", partitionKey (decimalText range.partition)),
        ("partition_value", decimalText range.partition),
        ("source_partition_column_name", replay.columns.partition),
        ("source_position_column_name", replay.columns.offset),
        ("source_timestamp_column_name", replay.columns.timestamp),
        ("lower_value", decimalText range.lower),
        ("upper_value", decimalText range.upper),
        ("replay_cutoff_value", decimalText range.upper)]
    cutoffInclusive := true }

/-- `_offset_coverage_query`, and `_full_offset_coverage_query` where there is no lower bound. -/
def offsetCoverageRows (start : Option Relation) : List CaptureRow :=
  (coverageRanges replay anchor start).map (captureRow replay)

end

structure DirectReplayRange where
  partitionValue : Option String
  sourcePartitionColumnName : Option String
  sourcePositionColumnName : String
  sourceTimestampColumnName : Option String
  lowerValue : String
  upperValue : String
  replayCutoffValue : String
  cutoffInclusive : Bool
  deriving DecidableEq, Repr

structure DirectReplayCapture where
  logicalModelName : String
  drivingInputRelationName : String
  boundaryMode : AdapterReplayBoundaryMode
  ranges : List DirectReplayRange

def optionalText (row : CaptureRow) (column : String) : Option String :=
  (row.texts.lookup column).filter (· ≠ "")

def requiredText (row : CaptureRow) (column : String) : Except CaptureError String :=
  match optionalText row column with
  | none => .error (.adapterResult
      ("Replay capture row is missing required column '" ++ column ++ "'"))
  | some text => .ok text

def captureMismatch (runtime : DirectRuntimeReplay) (what actual expected : String) :
    CaptureError :=
  .adapterResult ("Replay capture for '" ++ runtime.modelName ++ "' returned " ++ what ++ " '" ++
    actual ++ "' instead of '" ++ expected ++ "'")

/-- A check that fails with an error. -/
def ensure (condition : Bool) (error : CaptureError) : Except CaptureError Unit :=
  if condition then .ok () else .error error

/-- The key that the boundary of a row should have. -/
def expectedBoundaryKey (runtime : DirectRuntimeReplay) (partitionValue : Option String) :
    Except CaptureError String :=
  match runtime.replay.mode, partitionValue with
  | .offsets, none => .error (.adapterResult ("Replay capture for '" ++ runtime.modelName ++
      "' returned an offset boundary without a partition"))
  | .offsets, some partition => .ok (partitionKey partition)
  | mode, some partition => .error (.adapterResult ("Replay capture for '" ++ runtime.modelName ++
      "' returned scalar boundary mode '" ++ mode.value ++ "' with partition '" ++ partition ++
      "'"))
  | mode, none => .ok ("_replay_" ++ mode.value)

def validateCaptureRow (runtime : DirectRuntimeReplay) (row : CaptureRow) :
    Except CaptureError Unit := do
  let expectedRelation := runtime.replay.relations.anchor
  let actualRelation ← requiredText row "driving_input_relation_name"
  ensure (actualRelation = expectedRelation)
    (captureMismatch runtime "driving input" actualRelation expectedRelation)
  let expectedMode := runtime.replay.mode.value
  let actualMode ← requiredText row "replay_boundary_mode"
  ensure (actualMode = expectedMode)
    (captureMismatch runtime "boundary mode" actualMode expectedMode)
  let expectedKey ← expectedBoundaryKey runtime (optionalText row "partition_value")
  let actualKey ← requiredText row "boundary_key"
  ensure (actualKey = expectedKey)
    (captureMismatch runtime "boundary key" actualKey expectedKey)

def decodeRange (row : CaptureRow) : Except CaptureError DirectReplayRange := do
  let sourcePositionColumnName ← requiredText row "source_position_column_name"
  let lowerValue ← requiredText row "lower_value"
  let upperValue ← requiredText row "upper_value"
  let replayCutoffValue ← requiredText row "replay_cutoff_value"
  return {
    partitionValue := optionalText row "partition_value"
    sourcePartitionColumnName := optionalText row "source_partition_column_name"
    sourcePositionColumnName := sourcePositionColumnName
    sourceTimestampColumnName := optionalText row "source_timestamp_column_name"
    lowerValue := lowerValue
    upperValue := upperValue
    replayCutoffValue := replayCutoffValue
    cutoffInclusive := row.cutoffInclusive }

/-- `_decode_capture`, up to the identity of the capture. -/
def decodeCapture (runtime : DirectRuntimeReplay) (rows : List CaptureRow) :
    Except CaptureError DirectReplayCapture := do
  let _ ← rows.mapM (validateCaptureRow runtime)
  let ranges ← rows.mapM decodeRange
  return {
    logicalModelName := runtime.modelName
    drivingInputRelationName := runtime.replay.relations.anchor
    boundaryMode := runtime.replay.mode
    ranges := ranges }

structure AdapterReplayBoundary where
  boundaryKey : String
  cutoffValue : String
  cutoffInclusive : Bool
  partitionValue : Option String := none

structure AdapterReplayLowerBound where
  value : String
  partitionValue : Option String := none

/-- `int(text)`. -/
def readInt (text : String) : Except CaptureError Int :=
  match readDecimal text with
  | none => .error (.valueError text)
  | some n => .ok n

/-- `values[key] = extreme(value, values.get(key, value))`. -/
def mergeExtreme (extreme : Int → Int → Int) (values : List (String × Int))
    (entry : String × Int) : List (String × Int) :=
  match values.lookup entry.1 with
  | none => values ++ [entry]
  | some old => values.map fun other =>
      if other.1 = entry.1 then (entry.1, extreme entry.2 old) else other

/-- The partition of a range, with one of its values as a number. -/
def partitionEntry (value : DirectReplayRange → String) (range : DirectReplayRange) :
    Except CaptureError (String × Int) :=
  match range.partitionValue with
  | none => .error (.directBuild "Captured offset replay range has no partition")
  | some partition => do
    let n ← readInt (value range)
    return (partition, n)

/-- The extreme value of each partition, in the order of the partitions as numbers. -/
def extremeByPartition (extreme : Int → Int → Int) (value : DirectReplayRange → String)
    (ranges : List DirectReplayRange) : Except CaptureError (List (String × Int)) := do
  let entries ← ranges.mapM (partitionEntry value)
  let merged := entries.foldl (mergeExtreme extreme) []
  let orders ← merged.mapM fun entry => readInt entry.1
  return ((orders.zip merged).insertionSort fun a b => a.1 ≤ b.1).map (·.2)

def capturedBoundaries (capture : DirectReplayCapture) :
    Except CaptureError (List AdapterReplayBoundary) :=
  if capture.boundaryMode ≠ .offsets then
    .ok ((capture.ranges.take 1).map fun range =>
      { boundaryKey := "_replay_" ++ capture.boundaryMode.value
        cutoffValue := range.replayCutoffValue
        cutoffInclusive := range.cutoffInclusive })
  else do
    let cutoffs ← extremeByPartition max (·.replayCutoffValue) capture.ranges
    return cutoffs.map fun cutoff =>
      { boundaryKey := partitionKey cutoff.1
        cutoffValue := decimalText cutoff.2
        cutoffInclusive := true
        partitionValue := some cutoff.1 }

def capturedLowerBounds (capture : DirectReplayCapture) :
    Except CaptureError (List AdapterReplayLowerBound) :=
  match capture.ranges with
  | [] => .ok []
  | first :: _ =>
    if capture.boundaryMode ≠ .offsets then .ok [{ value := first.lowerValue }]
    else do
      let lowers ← extremeByPartition min (·.lowerValue) capture.ranges
      return lowers.map fun lower =>
        { value := decimalText lower.2, partitionValue := some lower.1 }

/-- A literal of a statement. -/
def literal (text : String) : Value := readDecimal text

section

variable (replay : AdapterReplayRequest)

/-- A partition with the text of its lower bound. -/
def lowerBoundRow (lower : AdapterReplayLowerBound) : Except CaptureError (Int × String) :=
  match lower.partitionValue with
  | none => .error (.adapterReplay "Offset replay lower bound requires a partition value")
  | some partition => do
    let n ← readInt partition
    return (n, lower.value)

/-- `lower_by_partition.get(partition_value)`. -/
def lowerByPartition (lowerBoundRows : List (Int × String)) (partitionValue : String) :
    Option String :=
  (lowerBoundRows.reverse.find? fun row => decimalText row.1 = partitionValue).map (·.2)

def offsetClause (lowerBoundRows : List (Int × String)) (boundary : AdapterReplayBoundary)
    (partitionValue : String) (row : Row) : Truth :=
  let upper :=
    if boundary.cutoffInclusive then
      atMost (row replay.columns.offset) (literal boundary.cutoffValue)
    else below (row replay.columns.offset) (literal boundary.cutoffValue)
  let lower :=
    match lowerByPartition lowerBoundRows partitionValue with
    | none => some true
    | some value =>
      if replay.window.lowerBoundInclusive then
        atMost (literal value) (row replay.columns.offset)
      else below (literal value) (row replay.columns.offset)
  both (both (equal (row replay.columns.partition) (literal partitionValue)) upper) lower

def boundaryClause (lowerBoundRows : List (Int × String)) (boundary : AdapterReplayBoundary) :
    Except CaptureError (Row → Truth) :=
  match boundary.partitionValue with
  | none => .error (.adapterReplay "Offset replay boundary requires a partition value")
  | some partitionValue => .ok (offsetClause replay lowerBoundRows boundary partitionValue)

def offsetLiteralPredicate (boundaries : List AdapterReplayBoundary)
    (lowerBoundRows : List (Int × String)) : Except CaptureError (Row → Truth) := do
  let clauses ← boundaries.mapM (boundaryClause replay lowerBoundRows)
  return fun row => clauses.foldl (fun truth clause => either truth (clause row)) (some false)

/-- The anchor rows that the replay of a capture reads. -/
def capturedRows (anchor : Relation) (capture : DirectReplayCapture) :
    Except CaptureError (List Row) := do
  let boundaries ← capturedBoundaries capture
  let lowerBounds ← capturedLowerBounds capture
  let lowerBoundRows ← lowerBounds.mapM lowerBoundRow
  let predicate ← offsetLiteralPredicate replay boundaries lowerBoundRows
  return holding anchor.rows predicate

end

end SqlTide.Replay
