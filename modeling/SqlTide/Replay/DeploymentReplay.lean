import SqlTide.Foundations.Failures
import SqlTide.Foundations.Sql

/-!
# Seed and replay statements of a deployment

The statements that fill the target of a deployment: a seed copies the prefix of the
history from the active relation, and a replay reads the rest from the anchor, up to the
captured cutoff. Both are rendered before anything runs, and look up their boundaries in
the warehouse when they run.
-/

namespace SqlTide.Replay

open Foundations Sql

inductive AdapterReplayBoundaryMode
  | offsets
  | timestamp
  | landedAt
  | cursor
  deriving DecidableEq, Repr

/-- The text a boundary mode is stored as. -/
def AdapterReplayBoundaryMode.value : AdapterReplayBoundaryMode → String
  | .offsets => "offsets"
  | .timestamp => "timestamp"
  | .landedAt => "landed_at"
  | .cursor => "cursor"

inductive AdapterReplaySeedMode
  | none
  | historyPrefix
  deriving DecidableEq, Repr

inductive AdapterReplayLowerBoundMode
  | none
  | forcedTime
  | lookback
  | activeFrontier
  deriving DecidableEq, Repr

/-- The physical boundary columns of the anchor. -/
structure AdapterReplayColumns where
  partition : String
  offset : String
  timestamp : String
  landedAt : String
  cursor : String

structure AdapterReplayWindow where
  lowerBoundMode : AdapterReplayLowerBoundMode
  lowerBoundInclusive : Bool
  forcedStartTime : Option String
  lookbackSeconds : Option Int

structure AdapterReplayRelations where
  root : String
  source : String
  anchor : String
  target : String

/-- An authored query, as far as its rewriting goes: the names of its subqueries, and what
the columns that its outer WHERE clause can name are for a row of its source. -/
structure AdapterReplayQuery where
  cteNames : List String
  visible : Row → Row
  aggregateSemantics : Bool

structure AdapterReplayRequest where
  mode : AdapterReplayBoundaryMode
  database : String
  relations : AdapterReplayRelations
  replayQuery : AdapterReplayQuery
  columns : AdapterReplayColumns
  window : AdapterReplayWindow
  seedMode : AdapterReplaySeedMode
  targetColumnNames : List String
  filterBoundariesAtSource : Bool

/-- A replay whose boundaries live in deployment metadata. The listed anchor columns are
all columns of the anchor, so the boundary columns are among them. -/
structure AdapterDeploymentReplayRequest where
  replay : AdapterReplayRequest
  metadataDatabase : String
  deploymentId : String
  boundaryColumnType : Option String
  activeRelationName : String
  activeColumnNames : List String
  anchorColumnNames : List String
  partition_listed : replay.mode = .offsets → replay.columns.partition ∈ anchorColumnNames
  offset_listed : replay.mode = .offsets → replay.columns.offset ∈ anchorColumnNames

inductive RebuildExecutionMode
  | fullRebuild
  | seededBoundedRebuild
  | unseededBoundedRebuild
  deriving DecidableEq, Repr

structure PopulationRoot where
  replayLineageMode : AdapterReplayBoundaryMode
  executionMode : RebuildExecutionMode
  forcedStartTime : Option String
  executionLookbackSeconds : Option Int
  persistWatermarks : Bool

def lowerBoundMode (root : PopulationRoot) : AdapterReplayLowerBoundMode :=
  if root.forcedStartTime.isSome then .forcedTime
  else if root.executionLookbackSeconds.isSome then .lookback
  else if root.executionMode = .seededBoundedRebuild
      ∨ root.executionMode = .unseededBoundedRebuild then .activeFrontier
  else .none

/-- What `build_population_replay_requests` takes from the root. -/
structure BuiltFor (root : PopulationRoot) (replay : AdapterReplayRequest) : Prop where
  mode : replay.mode = root.replayLineageMode
  window : replay.window =
    { lowerBoundMode := lowerBoundMode root
      lowerBoundInclusive := true
      forcedStartTime := root.forcedStartTime
      lookbackSeconds := root.executionLookbackSeconds }
  seedMode : replay.seedMode =
    if root.executionMode = .seededBoundedRebuild then .historyPrefix else .none

/-- The conversions between texts, integers and times, in milliseconds, of the engine. -/
structure ClickHouse where
  toInt64 : String → Int
  toDateTime64 : String → Int
  castText : String → String → Int
  castTime : String → Int → Int
  nullableType : String → Bool
  integerText : Int → String
  timeText : Int → String

structure DeploymentRow where
  deploymentId : String
  boundaryTime : Int

structure WatermarkRow where
  deploymentId : String
  rootObjectName : String
  boundaryKind : String
  partitionValue : Option String
  cutoffValue : String

/-- The tables of each database, with the two metadata tables in the types they are created with. -/
structure Warehouse where
  relation : String → String → Relation
  deployments : String → List DeploymentRow
  watermarks : String → List WatermarkRow

abbrev AdapterReplayError := String

/-- `INSERT INTO database.target [(columns)] query`; the query gives the rows before the
columns are picked from them. -/
structure InsertStatement where
  database : String
  target : String
  columns : Option (List String)
  query : Query Warehouse

section Rendering

variable (engine : ClickHouse)

/-- The column the target keeps the position of a row in; an offset position has two. -/
def canonicalBoundaryColumn : AdapterReplayBoundaryMode → String
  | .offsets => "_replay_offset"
  | .cursor => "_replay_cursor"
  | .timestamp => "_replay_timestamp"
  | .landedAt => "_replay_landed_at"

def physicalBoundaryColumn (request : AdapterReplayRequest) : String :=
  match request.mode with
  | .offsets => request.columns.offset
  | .cursor => request.columns.cursor
  | .timestamp => request.columns.timestamp
  | .landedAt => request.columns.landedAt

/-- The watermarks captured for the root of this request. -/
def capturedWatermarks (request : AdapterDeploymentReplayRequest) (warehouse : Warehouse) :
    List WatermarkRow :=
  (warehouse.watermarks request.metadataDatabase).filter fun watermark =>
    watermark.deploymentId = request.deploymentId
      && watermark.rootObjectName = request.replay.relations.root
      && watermark.boundaryKind = request.replay.mode.value

def WatermarkRow.partition (watermark : WatermarkRow) : Value :=
  watermark.partitionValue.map engine.toInt64

def deploymentOffsetCutoffCte (request : AdapterDeploymentReplayRequest) :
    Fragment Warehouse Relation :=
  .stored fun warehouse =>
    { nullable := fun column => column = "_replay_partition"
      rows := (groupedMax (capturedWatermarks request warehouse) (·.partition engine)
          (fun watermark => some (engine.toInt64 watermark.cutoffValue))).map fun group =>
        rowOf [("_replay_partition", group.1), ("cutoff_offset", group.2),
          ("cutoff_inclusive", some 1)] }

def deploymentScalarCutoffCte (request : AdapterDeploymentReplayRequest) (columnType : String) :
    Fragment Warehouse Relation :=
  .stored fun warehouse =>
    { nullable := fun _ => engine.nullableType columnType
      rows := [rowOf [("cutoff_value", maximum (engine.nullableType columnType)
        ((capturedWatermarks request warehouse).map fun watermark =>
          some (engine.castText columnType watermark.cutoffValue)))]] }

/-- `any(boundary_time)` of the deployment; the column is not nullable, so without a row of
the deployment it is the epoch. -/
def anyBoundaryTime (deployments : List DeploymentRow) (deploymentId : String) : Int :=
  ((deployments.find? (·.deploymentId = deploymentId)).map (·.boundaryTime)).getD 0

def deploymentLookbackTimeExpression (request : AdapterDeploymentReplayRequest) :
    Except AdapterReplayError (Fragment Warehouse Int) :=
  match request.replay.window.lookbackSeconds with
  | none => .error "Lookback deployment replay requires a duration"
  | some seconds => .ok (.stored fun warehouse =>
      anyBoundaryTime (warehouse.deployments request.metadataDatabase) request.deploymentId
        - seconds * 1000)

def replayLowerTimeExpression (replay : AdapterReplayRequest)
    (lookbackTimeExpression : Option (Fragment Warehouse Int)) :
    Except AdapterReplayError (Fragment Warehouse Int) :=
  if replay.window.lowerBoundMode = .forcedTime then
    match replay.window.forcedStartTime with
    | none => .error "Forced replay requires a start time"
    | some time => .ok (.stored fun _ => engine.toDateTime64 time)
  else
    match lookbackTimeExpression with
    | none => .error "Lookback replay requires a lower-time expression"
    | some expression => .ok expression

def activeRelation (request : AdapterDeploymentReplayRequest) (warehouse : Warehouse) : Relation :=
  warehouse.relation request.replay.database request.activeRelationName

def anchorRelation (replay : AdapterReplayRequest) (warehouse : Warehouse) : Relation :=
  warehouse.relation replay.database replay.relations.anchor

/-- The greatest offset of each partition. -/
def startOffsets (relation : Relation) (partition offset : String) : Relation :=
  { nullable := fun column =>
      relation.nullable (if column = "start_offset" then offset else partition)
    rows := (groupedMax relation.rows (· partition) (· offset)).map fun group =>
      rowOf [("_replay_partition", group.1), ("start_offset", group.2)] }

/-- `columns.landed_at or columns.timestamp`. -/
def AdapterReplayColumns.time (columns : AdapterReplayColumns) : String :=
  if columns.landedAt = "" then columns.timestamp else columns.landedAt

def rowsUpTo (relation : Relation) (column : String) (time : Int) : Relation :=
  { relation with rows := holding relation.rows fun row => atMost (row column) (some time) }

def replayOffsetLowerCte (replay : AdapterReplayRequest) (activeRelationName : String)
    (lookbackTimeExpression : Option (Fragment Warehouse Int)) :
    Except AdapterReplayError (Option (Fragment Warehouse Relation)) :=
  match replay.window.lowerBoundMode with
  | .none => .ok none
  | .activeFrontier => .ok (some (.stored fun warehouse =>
      startOffsets (warehouse.relation replay.database activeRelationName)
        "_replay_partition" "_replay_offset"))
  | _ => do
    let lowerTime ← replayLowerTimeExpression engine replay lookbackTimeExpression
    return some (.map₂
      (fun anchor time => startOffsets (rowsUpTo anchor replay.columns.time time)
        replay.columns.partition replay.columns.offset)
      (.stored (anchorRelation replay)) lowerTime)

/-- The lookback expression that a lower bound of this request may need. -/
def deploymentLookback (request : AdapterDeploymentReplayRequest) :
    Except AdapterReplayError (Option (Fragment Warehouse Int)) :=
  if request.replay.window.lowerBoundMode = .lookback then
    (deploymentLookbackTimeExpression request).map some
  else .ok none

def deploymentOffsetLowerCte (request : AdapterDeploymentReplayRequest) :
    Except AdapterReplayError (Option (Fragment Warehouse Relation)) := do
  let lookback ← deploymentLookback request
  replayOffsetLowerCte engine request.replay request.activeRelationName lookback

/-- `(SELECT cutoff_value FROM replay_cutoff)`. -/
def upperExpression : Fragment Warehouse Value :=
  (Fragment.named "replay_cutoff").map fun cutoff => scalarSubquery cutoff "cutoff_value"

def replayScalarLowerExpression (replay : AdapterReplayRequest) (columnType : String)
    (activeRelationName : String) (lookbackTimeExpression : Option (Fragment Warehouse Int))
    (upper : Fragment Warehouse Value) :
    Except AdapterReplayError (Option (Fragment Warehouse Value)) :=
  match replay.window.lowerBoundMode with
  | .none => .ok none
  | .activeFrontier => .ok (some (.stored fun warehouse =>
      let active := warehouse.relation replay.database activeRelationName
      maximum (active.nullable (canonicalBoundaryColumn replay.mode))
        (active.rows.map (· (canonicalBoundaryColumn replay.mode)))))
  | _ => do
    let lowerTime ← replayLowerTimeExpression engine replay lookbackTimeExpression
    if replay.mode ≠ .cursor then
      return some (lowerTime.map fun time => some (engine.castTime columnType time))
    else
      -- `minOrNull(cursor) .. WHERE timestamp >= lower_time AND cursor <= upper`
      return some (.map₂
        (fun rows upper => smallest ((holding rows fun row =>
          atMost (row replay.columns.cursor) upper).map (· replay.columns.cursor)))
        (.map₂
          (fun anchor time => holding anchor.rows fun row =>
            atMost (some time) (row replay.columns.timestamp))
          (.stored (anchorRelation replay)) lowerTime)
        upper)

def deploymentScalarLowerExpression (request : AdapterDeploymentReplayRequest)
    (columnType : String) : Except AdapterReplayError (Option (Fragment Warehouse Value)) := do
  let lookback ← deploymentLookback request
  replayScalarLowerExpression engine request.replay columnType request.activeRelationName
    lookback upperExpression

def requiredDeploymentBoundaryType (request : AdapterDeploymentReplayRequest) :
    Except AdapterReplayError String :=
  match request.boundaryColumnType with
  | none => .error "Scalar deployment replay requires a resolved boundary type"
  | some columnType => .ok columnType

def offsetLowerBoundClause (offsetColumn : String) (inclusive : Bool)
    (anchor start : Row) : Truth :=
  either (isNull (start "start_offset"))
    (if inclusive then atMost (start "start_offset") (anchor offsetColumn)
      else below (start "start_offset") (anchor offsetColumn))

def offsetUpperBoundClause (offsetColumn : String) (anchor cutoff : Row) : Truth :=
  either
    (both (asTruth (cutoff "cutoff_inclusive"))
      (atMost (anchor offsetColumn) (cutoff "cutoff_offset")))
    (both (negated (asTruth (cutoff "cutoff_inclusive")))
      (below (anchor offsetColumn) (cutoff "cutoff_offset")))

def scalarLowerPredicate (value lower : Value) (inclusive : Bool) : Truth :=
  if inclusive then atMost lower value else below lower value

def dynamicScalarPredicate (value upper : Value) (lower : Option Value)
    (inclusive : Bool) : Truth :=
  match lower with
  | none => atMost value upper
  | some lower => both (scalarLowerPredicate value lower inclusive) (atMost value upper)

/-- The upper bound, and the lower bound where there is one, as one piece of a statement. -/
def scalarBounds (lower : Option (Fragment Warehouse Value)) :
    Fragment Warehouse (Value × Option Value) :=
  match lower with
  | none => upperExpression.map fun upper => (upper, none)
  | some lower => .map₂ (fun upper lower => (upper, some lower)) upperExpression lower

def seedClause (value start : Value) (inclusive : Bool) : Truth :=
  if inclusive then below value start else atMost value start

def copyableColumns (request : AdapterDeploymentReplayRequest) : List String :=
  request.replay.targetColumnNames.filter (· ∈ request.activeColumnNames)

def offsetSeedQuery (request : AdapterDeploymentReplayRequest)
    (lowerCte : Fragment Warehouse Relation) : Query Warehouse :=
  { ctes := [("active_start_offsets", lowerCte)]
    body := .map₂
      (fun (active start : Relation) =>
        (holding
          (innerJoin active.rows start.rows fun row start =>
            equal (row "_replay_partition") (start "_replay_partition"))
          fun joined => seedClause (joined.1 "_replay_offset") (joined.2 "start_offset")
            request.replay.window.lowerBoundInclusive).map (·.1))
      (.stored (activeRelation request)) (.named "active_start_offsets") }

def scalarSeedQuery (request : AdapterDeploymentReplayRequest)
    (lower : Fragment Warehouse Value) : Query Warehouse :=
  { ctes := []
    body := .map₂
      (fun active lower => holding active.rows fun row =>
        seedClause (row (canonicalBoundaryColumn request.replay.mode)) lower
          request.replay.window.lowerBoundInclusive)
      (.stored (activeRelation request)) lower }

def renderDeploymentSeed (request : AdapterDeploymentReplayRequest) :
    Except AdapterReplayError (Option InsertStatement) :=
  let insert (query : Query Warehouse) : InsertStatement :=
    { database := request.replay.database, target := request.replay.relations.target
      columns := some (copyableColumns request), query }
  if request.replay.seedMode ≠ .historyPrefix then .ok none
  else if copyableColumns request = [] then .ok none
  else if request.replay.mode = .offsets then
    (deploymentOffsetLowerCte engine request).map fun lowerCte =>
      lowerCte.map fun cte => insert (offsetSeedQuery request cte)
  else do
    let columnType ← requiredDeploymentBoundaryType request
    let lower ← deploymentScalarLowerExpression engine request columnType
    return lower.map fun lower => insert (scalarSeedQuery request lower)

/-- The authored query over `source`, with a predicate conjoined and subqueries put in front.
What the query itself then makes of the rows it reads is left out. -/
def rewrittenQuery (query : AdapterReplayQuery) (source : Fragment Warehouse Relation)
    (predicate : Fragment Warehouse (Row → Truth))
    (prependCtes : List (String × Fragment Warehouse Relation)) : Query Warehouse :=
  { ctes := prependCtes
    body := .map₂
      (fun source predicate => holding source.rows fun row => predicate (query.visible row))
      source predicate }

def rewriteReplayQuery (query : AdapterReplayQuery) (source : Fragment Warehouse Relation)
    (predicate : Fragment Warehouse (Row → Truth))
    (prependCtes : List (String × Fragment Warehouse Relation)) :
    Except AdapterReplayError (Query Warehouse) :=
  if prependCtes.any fun cte => cte.1 ∈ query.cteNames then
    .error "Replay SQL could not be rewritten: Replay CTE name collides with an authored CTE"
  else .ok (rewrittenQuery query source predicate prependCtes)

def everyRow : Fragment Warehouse (Row → Truth) := .stored fun _ _ => some true

def buildReplayInsert (request : AdapterReplayRequest) (query : Query Warehouse) :
    InsertStatement :=
  { database := request.database, target := request.relations.target, columns := none, query }

def project (names : List String) (row : Row) : Row :=
  fun column => if column ∈ names then row column else none

/-- The anchor rows up to the cutoff of their partition, and from its start where there is
a lower bound. -/
def offsetSourceRows (replay : AdapterReplayRequest) (anchor cutoff : Relation)
    (lower : Option Relation) : List Row :=
  let capped := innerJoin anchor.rows cutoff.rows fun row cutoff =>
    equal (row replay.columns.partition) (cutoff "_replay_partition")
  match lower with
  | none => (holding capped fun joined =>
      offsetUpperBoundClause replay.columns.offset joined.1 joined.2).map (·.1)
  | some start =>
    (holding
      (leftJoin capped start.rows
        (fun joined start => equal (joined.1 replay.columns.partition) (start "_replay_partition"))
        start.defaultRow)
      fun joined => both (offsetUpperBoundClause replay.columns.offset joined.1.1 joined.1.2)
        (offsetLowerBoundClause replay.columns.offset replay.window.lowerBoundInclusive
          joined.1.1 joined.2)).map (·.1.1)

def deploymentOffsetSourceSql (request : AdapterDeploymentReplayRequest) (hasLowerBound : Bool) :
    Fragment Warehouse Relation :=
  let lower : Fragment Warehouse (Option Relation) :=
    if hasLowerBound then (Fragment.named "active_start_offsets").map some
    else .stored fun _ => none
  .map₂
    (fun (tables : Relation × Relation) lower =>
      { nullable := tables.1.nullable
        rows := (offsetSourceRows request.replay tables.1 tables.2 lower).map
          (project request.anchorColumnNames) })
    (.map₂ Prod.mk (.stored (anchorRelation request.replay)) (.named "cutoff_offsets"))
    lower

def offsetNamedQueries (request : AdapterDeploymentReplayRequest)
    (lowerCte : Option (Fragment Warehouse Relation)) :
    List (String × Fragment Warehouse Relation) :=
  [("cutoff_offsets", deploymentOffsetCutoffCte engine request)]
    ++ (lowerCte.map fun cte => ("active_start_offsets", cte)).toList
    ++ [("filtered_replay_source", deploymentOffsetSourceSql request lowerCte.isSome)]

def renderDeploymentOffsetReplay (request : AdapterDeploymentReplayRequest) :
    Except AdapterReplayError InsertStatement := do
  let lowerCte ← deploymentOffsetLowerCte engine request
  let query ← rewriteReplayQuery request.replay.replayQuery
    (.named "filtered_replay_source") everyRow (offsetNamedQueries engine request lowerCte)
  return buildReplayInsert request.replay query

/-- The bounds go into the source of an aggregating query, and else into its WHERE clause. -/
def filtersAtSource (replay : AdapterReplayRequest) : Bool :=
  replay.replayQuery.aggregateSemantics || replay.filterBoundariesAtSource

def scalarPredicate (replay : AdapterReplayRequest) (lower : Option (Fragment Warehouse Value))
    (column : String) : Fragment Warehouse (Row → Truth) :=
  (scalarBounds lower).map fun bounds row =>
    dynamicScalarPredicate (row column) bounds.1 bounds.2 replay.window.lowerBoundInclusive

def scalarSource (replay : AdapterReplayRequest) (lower : Option (Fragment Warehouse Value)) :
    Fragment Warehouse Relation :=
  if filtersAtSource replay then
    .map₂
      (fun anchor predicate => { anchor with rows := holding anchor.rows predicate })
      (.stored (anchorRelation replay))
      (scalarPredicate replay lower (physicalBoundaryColumn replay))
  else .stored (anchorRelation replay)

def scalarWhere (replay : AdapterReplayRequest) (lower : Option (Fragment Warehouse Value)) :
    Fragment Warehouse (Row → Truth) :=
  if filtersAtSource replay then everyRow
  else scalarPredicate replay lower (canonicalBoundaryColumn replay.mode)

def renderDeploymentScalarReplay (request : AdapterDeploymentReplayRequest) :
    Except AdapterReplayError InsertStatement := do
  let columnType ← requiredDeploymentBoundaryType request
  let lower ← deploymentScalarLowerExpression engine request columnType
  let query ← rewriteReplayQuery request.replay.replayQuery
    (scalarSource request.replay lower) (scalarWhere request.replay lower)
    [("replay_cutoff", deploymentScalarCutoffCte engine request columnType)]
  return buildReplayInsert request.replay query

/-- The replay of the boundary mode at hand. -/
def renderDeploymentReplay (request : AdapterDeploymentReplayRequest) :
    Except AdapterReplayError InsertStatement :=
  if request.replay.mode = .offsets then renderDeploymentOffsetReplay engine request
  else renderDeploymentScalarReplay engine request

def renderClickhouseReplayFromDeployment (request : AdapterDeploymentReplayRequest) :
    Except AdapterReplayError (List InsertStatement) := do
  let seed ← renderDeploymentSeed engine request
  let replay ← renderDeploymentReplay engine request
  return match seed with
    | some seed => [seed, replay]
    | none => [replay]

end Rendering

end SqlTide.Replay
