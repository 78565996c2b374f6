import SqlTide.Foundations.Runs
import SqlTide.Replay.Selection

/-!
# The replay phase of a root

The cutoff is captured, the input is checked against it, and then the rendered statements
run. Each statement reads the tables as they are when it runs, and rows keep arriving in
the anchor and in the active relation between any two of them.
-/

namespace SqlTide.Replay

open Foundations Sql

section Statements

variable (engine : ClickHouse) (root : PopulationRoot) (request : AdapterDeploymentReplayRequest)
  (warehouse : Warehouse)

/-- `any(boundary_time)` of this deployment. -/
def boundaryTime : Int :=
  anyBoundaryTime (warehouse.deployments request.metadataDatabase) request.deploymentId

/-- `toString` of an aggregate, stored in a column that does not admit NULL. -/
def aggregateText (value : Value) : String := (value.map engine.integerText).getD ""

/-- The greatest offset of each partition, of the rows up to the boundary time where
watermarks persist. -/
def offsetWatermarkCapture : List WatermarkRow :=
  let anchor := anchorRelation request.replay warehouse
  let rows := if root.persistWatermarks
    then (rowsUpTo anchor request.replay.columns.time (boundaryTime request warehouse)).rows
    else anchor.rows
  if capturedWatermarks request warehouse = [] then
    (groupedMax rows (· request.replay.columns.partition) (· request.replay.columns.offset)).map
      fun group =>
        { deploymentId := request.deploymentId
          rootObjectName := request.replay.relations.root
          boundaryKind := "offsets"
          partitionValue := group.1.map engine.integerText
          cutoffValue := aggregateText engine group.2 }
  else []

def scalarWatermarkCapture : List WatermarkRow :=
  let anchor := anchorRelation request.replay warehouse
  if anchor.rows ≠ [] ∧ capturedWatermarks request warehouse = [] then
    [{ deploymentId := request.deploymentId
       rootObjectName := request.replay.relations.root
       boundaryKind := request.replay.mode.value
       partitionValue := none
       cutoffValue :=
        if request.replay.mode = .cursor then
          aggregateText engine (largest (anchor.rows.map (· request.replay.columns.cursor)))
        else engine.timeText (boundaryTime request warehouse) }]
  else []

def watermarkCapture : List WatermarkRow :=
  if request.replay.mode = .offsets then offsetWatermarkCapture engine root request warehouse
  else scalarWatermarkCapture engine request warehouse

def boundaryTypeExpression (mode : AdapterReplayBoundaryMode) : String :=
  if mode = .cursor then "UInt64" else "DateTime64(3, 'UTC')"

/-- The forced start time holds for a qualifying row too. -/
def forcedScalarQualifyingClause (replay : AdapterReplayRequest) (row : Row) : Truth :=
  if replay.window.lowerBoundMode = .forcedTime then
    match replay.window.forcedStartTime with
    | none => some false
    | some time => atMost (some (engine.toDateTime64 time))
        (row (if replay.mode = .landedAt then replay.columns.landedAt else
          replay.columns.timestamp))
  else some true

def qualifies (row : Row) (watermark : WatermarkRow) : Truth :=
  let replay := request.replay
  if replay.mode = .offsets then
    both (some (watermark.partitionValue.isSome && watermark.partitionValue =
        (row replay.columns.partition).map engine.integerText))
      (atMost (row replay.columns.offset) (some (engine.toInt64 watermark.cutoffValue)))
  else
    both (atMost (row (physicalBoundaryColumn replay))
        (some (engine.castText (boundaryTypeExpression replay.mode) watermark.cutoffValue)))
      (forcedScalarQualifyingClause engine replay row)

/-- `throwIf(total_rows > 0 AND qualifying_rows = 0, ..)` lets the workflow go on. -/
def qualifyingInputAssertion (anchorExistedAtConfirmation : Bool) : Bool :=
  let rows := (anchorRelation request.replay warehouse).rows
  !anchorExistedAtConfirmation || rows.isEmpty ||
    rows.any fun row => (capturedWatermarks request warehouse).any fun watermark =>
      qualifies engine request row watermark = some true

end Statements

inductive ReplayStep
  | captureWatermark
  | assertQualifyingInput
  | seed (statement : InsertStatement)
  | replay (statement : InsertStatement)

/-- The last rendered statement is the replay, those before it are seeds. -/
def replayStatements (rendered : List InsertStatement) : List ReplayStep :=
  [.captureWatermark, .assertQualifyingInput] ++ rendered.mapIdx fun index statement =>
    if index = rendered.length - 1 then .replay statement else .seed statement

/-- What an insert read, and the rows it selected. -/
structure Inserted where
  read : Warehouse
  rows : List Row

/-- The tables, the statements still to run, and what the inserts brought into the target.
A statement that fails ends the workflow. -/
structure ReplayState where
  warehouse : Warehouse
  pending : List ReplayStep
  seeded : Option Inserted
  replayed : Option Inserted

inductive ReplayEvent
  | appendAnchor (row : Row)
  | appendActive (row : Row)
  | execute

def Warehouse.append (warehouse : Warehouse) (database name : String) (row : Row) : Warehouse :=
  { warehouse with
    relation := fun database' name' =>
      let relation := warehouse.relation database' name'
      if database' = database ∧ name' = name then
        { relation with rows := relation.rows ++ [row] }
      else relation }

def Warehouse.addWatermarks (warehouse : Warehouse) (database : String)
    (rows : List WatermarkRow) : Warehouse :=
  { warehouse with
    watermarks := Function.update warehouse.watermarks database
      (warehouse.watermarks database ++ rows) }

section Runs

variable (engine : ClickHouse) (root : PopulationRoot) (request : AdapterDeploymentReplayRequest)
  (anchorExistedAtConfirmation : Bool)

def executeStep (state : ReplayState) (rest : List ReplayStep) : ReplayStep → ReplayState
  | .captureWatermark =>
    { state with
      warehouse := state.warehouse.addWatermarks request.metadataDatabase
        (watermarkCapture engine root request state.warehouse)
      pending := rest }
  | .assertQualifyingInput =>
    { state with
      pending := if qualifyingInputAssertion engine request state.warehouse
        anchorExistedAtConfirmation then rest else [] }
  | .seed statement =>
    match statement.query.run state.warehouse with
    | none => { state with pending := [] }
    | some rows => { state with seeded := some ⟨state.warehouse, rows⟩, pending := rest }
  | .replay statement =>
    match statement.query.run state.warehouse with
    | none => { state with pending := [] }
    | some rows => { state with replayed := some ⟨state.warehouse, rows⟩, pending := rest }

def nextReplay (state : ReplayState) : ReplayEvent → ReplayState
  | .appendAnchor row =>
    { state with
      warehouse := state.warehouse.append request.replay.database
        request.replay.relations.anchor row }
  | .appendActive row =>
    { state with
      warehouse := state.warehouse.append request.replay.database request.activeRelationName row }
  | .execute =>
    match state.pending with
    | [] => state
    | step :: rest => executeStep engine root request anchorExistedAtConfirmation state rest step

/-- The tables as they are, with the replay phase of the rendered statements still to come. -/
def startReplay (warehouse : Warehouse) (rendered : List InsertStatement) : ReplayState :=
  { warehouse, pending := replayStatements rendered, seeded := none, replayed := none }

end Runs

end SqlTide.Replay
