import Mathlib.Data.List.Dedup
import Mathlib.Data.Rat.Cast.Order
import Mathlib.Tactic

/-!
# Readiness by offsets

The staged relation of a deployment is compared with the raw relation that it is replayed from and
with the active relation, partition by partition of the raw one. Where a partition has no row in a
joined relation, its columns are NULL if they can be, and otherwise the default of their type.
-/

namespace SqlTide.Readiness

/-- What the catalog says about a boundary column. -/
inductive ColumnType where
  | absent
  | required
  | nullable
  deriving DecidableEq, Repr

/-- A row of the raw relation; the times are in milliseconds since the epoch. -/
structure SourceRow where
  partition : ℤ
  offset : ℤ
  timestamp : Option ℤ
  landedAt : Option ℤ
  deriving DecidableEq, Repr

structure SourceRelation where
  rows : List SourceRow
  timestamp : ColumnType
  landedAt : ColumnType
  timestamp_typed : timestamp = .required → ∀ row ∈ rows, row.timestamp ≠ none
  landedAt_typed : landedAt = .required → ∀ row ∈ rows, row.landedAt ≠ none

structure OffsetRow where
  partition : ℤ
  offset : Option ℤ
  deriving DecidableEq, Repr

/-- The staged or the active relation, by its replay coordinates. -/
structure OffsetRelation where
  rows : List OffsetRow
  offsetNullable : Bool
  offset_typed : offsetNullable = false → ∀ row ∈ rows, row.offset ≠ none

structure BoundaryColumn where
  name : String
  nullable : Bool
  value : SourceRow → Option ℤ

def resolveOffsetBoundaryColumn (source : SourceRelation) : Option BoundaryColumn :=
  match source.timestamp, source.landedAt with
  | .required, _ => some ⟨"_replay_timestamp", false, fun row => row.timestamp⟩
  | .nullable, _ => some ⟨"_replay_timestamp", true, fun row => row.timestamp⟩
  | .absent, .required => some ⟨"_replay_landed_at", false, fun row => row.landedAt⟩
  | .absent, .nullable => some ⟨"_replay_landed_at", true, fun row => row.landedAt⟩
  | .absent, .absent => none

def SourceRelation.partitions (source : SourceRelation) : List ℤ :=
  (source.rows.map (·.partition)).dedup

def OffsetRelation.partitions (relation : OffsetRelation) : List ℤ :=
  (relation.rows.map (·.partition)).dedup

/-- The partitions that have an offset. -/
def OffsetRelation.offsetPartitions (relation : OffsetRelation) : List ℤ :=
  ((relation.rows.filter (·.offset ≠ none)).map (·.partition)).dedup

/-- `max(_replay_offset)` over the rows of a partition; the maximum leaves out NULL. -/
def OffsetRelation.maxOffset (relation : OffsetRelation) (partition : ℤ) : Option ℤ :=
  ((relation.rows.filter (·.partition = partition)).filterMap (·.offset)).max?

/-- `active_offsets` and `staged_offsets`: the group of a partition, whose maximum can be NULL. -/
def OffsetRelation.offsets (relation : OffsetRelation) (partition : ℤ) : Option (Option ℤ) :=
  if partition ∈ relation.partitions then some (relation.maxOffset partition) else none

def SourceRelation.maxOffset (source : SourceRelation) (partition : ℤ) : Option ℤ :=
  ((source.rows.filter (·.partition = partition)).map (·.offset)).max?

/-- `raw_max_boundary`. -/
def SourceRelation.latest (source : SourceRelation) (column : BoundaryColumn) (partition : ℤ) :
    Option ℤ :=
  ((source.rows.filter (·.partition = partition)).filterMap column.value).max?

def SourceRelation.rowsAt (source : SourceRelation) (partition offset : ℤ) : List SourceRow :=
  source.rows.filter fun row => row.partition = partition ∧ row.offset = offset

/-- `staged_progress`: the group of a partition, whose boundary can be NULL. -/
def stagedProgress (source : SourceRelation) (column : BoundaryColumn) (staged : OffsetRelation)
    (partition : ℤ) : Option (Option ℤ) :=
  match staged.maxOffset partition with
  | none => none
  | some offset =>
    if source.rowsAt partition offset = [] then none
    else some ((source.rowsAt partition offset).filterMap column.value).max?

/-- A column of the right side of a LEFT JOIN. The default of integers and of times is 0. -/
def leftJoined (nullable : Bool) : Option (Option ℤ) → Option ℤ
  | some value => value
  | none => if nullable then none else some 0

structure JoinedPartition where
  rawOffset : Option ℤ
  stagedOffset : Option ℤ
  activeOffset : Option ℤ
  rawBoundary : Option ℤ
  stagedBoundary : Option ℤ
  deriving DecidableEq, Repr

def joinedPartition (active staged : OffsetRelation) (source : SourceRelation)
    (column : Option BoundaryColumn) (partition : ℤ) : JoinedPartition where
  rawOffset := source.maxOffset partition
  stagedOffset := leftJoined staged.offsetNullable (staged.offsets partition)
  activeOffset := leftJoined active.offsetNullable (active.offsets partition)
  rawBoundary := column.bind fun column => source.latest column partition
  stagedBoundary := column.bind fun column =>
    leftJoined column.nullable (stagedProgress source column staged partition)

/-- `dateDiff('second', first, last)`: the number of full seconds begun in between. -/
def dateDiffSeconds (first last : ℤ) : ℤ := last / 1000 - first / 1000

def JoinedPartition.lag (row : JoinedPartition) : Option ℤ :=
  match row.stagedBoundary, row.rawBoundary with
  | some first, some last => some (dateDiffSeconds first last)
  | _, _ => none

/-- `AdapterReadinessOffsetSummary`, without the averages. -/
structure OffsetSummary where
  activePartitionCount : ℕ
  stagedPartitionCount : ℕ
  partitionsCompared : ℕ
  missingStagedPartitionCount : ℕ
  missingFreshnessPartitionCount : ℕ
  laggingPartitionCount : ℕ
  maxOffsetGap : ℤ
  lagBoundaryColumn : Option String
  maxLagSeconds : Option ℤ
  deriving DecidableEq, Repr

/-- The aggregates over no rows are NULL for a nullable column and 0 for another. -/
def aggregateMax (nullable : Bool) (values : List ℤ) : Option ℤ :=
  if nullable then values.max? else some (values.max?.getD 0)

/-- `_offset_summary_query`. -/
def offsetSummary (active staged : OffsetRelation) (source : SourceRelation) : OffsetSummary :=
  let column := resolveOffsetBoundaryColumn source
  let joined := source.partitions.map (joinedPartition active staged source column)
  { activePartitionCount := active.partitions.length
    stagedPartitionCount := staged.partitions.length
    partitionsCompared := joined.countP fun row =>
      row.activeOffset ≠ none ∧ row.stagedOffset ≠ none
    missingStagedPartitionCount := joined.countP fun row =>
      row.activeOffset ≠ none ∧ row.stagedOffset = none
    missingFreshnessPartitionCount := joined.countP fun row =>
      row.stagedOffset ≠ none ∧ (row.stagedBoundary = none ∨ row.rawBoundary = none)
    laggingPartitionCount := joined.countP fun row =>
      match row.rawOffset with
      | some offset => row.stagedOffset.getD (-1) < offset
      | none => false
    maxOffsetGap := ((joined.filterMap fun row => row.rawOffset.map fun offset =>
      max (offset - row.stagedOffset.getD offset) 0).max?).getD 0
    lagBoundaryColumn := column.map (·.name)
    maxLagSeconds := aggregateMax ((column.map (·.nullable)).getD true)
      (joined.filterMap JoinedPartition.lag) }

inductive AuditAssessment where
  | ready
  | notReady
  | caution
  deriving DecidableEq, Repr

inductive ReplayLineageMode where
  | offsets
  | timestamp
  | landedAt
  deriving DecidableEq, Repr

structure ReadinessThresholds where
  maximumLagSeconds : ℚ
  minimumStagedRowRatio : ℚ
  deriving DecidableEq, Repr

def rowRatioAssessment (activeRowCount stagedRowCount : Option ℕ)
    (minimumStagedRowRatio : ℚ) : AuditAssessment :=
  match activeRowCount, stagedRowCount with
  | some activeRows, some stagedRows =>
    if 0 < activeRows ∧ (stagedRows : ℚ) < activeRows * minimumStagedRowRatio then .caution
    else .ready
  | _, _ => .ready

def offsetAssessment (activeExists : Bool) (activeRowCount stagedRowCount : Option ℕ)
    (summary : Option OffsetSummary) (thresholds : ReadinessThresholds) : AuditAssessment :=
  match summary with
  | none => .caution
  | some summary =>
    if activeExists ∧ summary.partitionsCompared < summary.activePartitionCount then .caution
    else if activeExists ∧ summary.missingStagedPartitionCount > 0 then .caution
    else if summary.missingFreshnessPartitionCount > 0 then .caution
    else
      match summary.lagBoundaryColumn, summary.maxLagSeconds with
      | some _, some lag =>
        if (lag : ℚ) > thresholds.maximumLagSeconds then .notReady
        else rowRatioAssessment activeRowCount stagedRowCount thresholds.minimumStagedRowRatio
      | _, _ => .caution

/-- `_build_root_assessment`, where `scalarLag` is the lag of the scalar summary. -/
def buildRootAssessment (stagedExists activeExists : Bool)
    (activeRowCount stagedRowCount : Option ℕ) (mode : Option ReplayLineageMode)
    (summary : Option OffsetSummary) (scalarLag : Option ℤ)
    (thresholds : ReadinessThresholds) : AuditAssessment :=
  if ¬ stagedExists then .caution
  else if stagedRowCount = some 0 then
    match activeRowCount with
    | some activeRows => if activeExists ∧ 0 < activeRows then .notReady else .caution
    | none => .caution
  else if ¬ activeExists then .ready
  else if mode = some .offsets then
    offsetAssessment activeExists activeRowCount stagedRowCount summary thresholds
  else
    match scalarLag with
    | none => .caution
    | some lag =>
      if (lag : ℚ) > thresholds.maximumLagSeconds then .notReady
      else rowRatioAssessment activeRowCount stagedRowCount thresholds.minimumStagedRowRatio

/-- The assessment of a staged relation that has an active counterpart. -/
def offsetReadiness (active staged : OffsetRelation) (source : SourceRelation)
    (thresholds : ReadinessThresholds) : AuditAssessment :=
  buildRootAssessment true true (some active.rows.length) (some staged.rows.length)
    (some .offsets) (some (offsetSummary active staged source)) none thresholds

end SqlTide.Readiness
