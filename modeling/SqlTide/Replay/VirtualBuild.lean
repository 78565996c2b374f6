import SqlTide.Foundations.DecimalText
import SqlTide.Replay.FullReplay
import SqlTide.Replay.SeedSplit

/-!
# The virtual build of a root

The shadow view is created first and is live from then on. After a wait the boundary time
and the cutoffs are captured, and the replay fills in what is at or below them. Rows land
in the anchor between any two statements; the view passes on each row that lands while it
is there, and has no bound of its own.
-/

namespace SqlTide.Replay

open Foundations Sql Runs

inductive BuildStep
  | realize
  | waitForVirtualLiveStabilization
  | captureBoundaryTime
  | captureWatermark
  | assertQualifyingInput
  | insert (statement : InsertStatement)

/-- The phases from the realization on, for one root. -/
def assembleStatements (rendered : List InsertStatement) : List BuildStep :=
  [.realize, .waitForVirtualLiveStabilization, .captureBoundaryTime, .captureWatermark,
    .assertQualifyingInput] ++ rendered.map .insert

/-- What the statements of a root are made from. -/
structure BackfillBootstrapRequest where
  root : PopulationRoot
  replay : AdapterDeploymentReplayRequest
  boundaryTime : Option String
  anchorExistedAtConfirmation : Bool

/-- The tables, whether the shadow view is there, the anchor rows that were passed on to the
shadow table, and the statements still to run. -/
structure VirtualBuild where
  warehouse : Warehouse
  live : Bool
  passedOn : List Row
  pending : List BuildStep
  failed : Bool

inductive BuildEvent
  | land (row : Row)
  | execute (now : Int)

section Workflow

variable (engine : ClickHouse) (request : BackfillBootstrapRequest)

/-- The row of the deployment, unless there is one. -/
def boundaryTimeCapture (now : Int) (warehouse : Warehouse) : List DeploymentRow :=
  if (warehouse.deployments request.replay.metadataDatabase).any
      (·.deploymentId = request.replay.deploymentId) then []
  else [{ deploymentId := request.replay.deploymentId
          boundaryTime := (request.boundaryTime.map engine.toDateTime64).getD now }]

def Warehouse.addDeployments (warehouse : Warehouse) (database : String)
    (rows : List DeploymentRow) : Warehouse :=
  { warehouse with
    deployments := Function.update warehouse.deployments database
      (warehouse.deployments database ++ rows) }

def VirtualBuild.executeStep (build : VirtualBuild) (now : Int) (rest : List BuildStep) :
    BuildStep → VirtualBuild
  | .realize => { build with live := true, pending := rest }
  | .waitForVirtualLiveStabilization => { build with pending := rest }
  | .captureBoundaryTime =>
    { build with
      warehouse := build.warehouse.addDeployments request.replay.metadataDatabase
        (boundaryTimeCapture engine request now build.warehouse)
      pending := rest }
  | .captureWatermark =>
    { build with
      warehouse := build.warehouse.addWatermarks request.replay.metadataDatabase
        (watermarkCapture engine request.root request.replay build.warehouse)
      pending := rest }
  | .assertQualifyingInput =>
    if qualifyingInputAssertion engine request.replay build.warehouse
        request.anchorExistedAtConfirmation then { build with pending := rest }
    else { build with pending := [], failed := true }
  | .insert statement =>
    match statement.query.run build.warehouse with
    | none => { build with pending := [], failed := true }
    | some rows => { build with passedOn := build.passedOn ++ rows, pending := rest }

def nextBuild (build : VirtualBuild) : BuildEvent → VirtualBuild
  | .land row =>
    { build with
      warehouse := build.warehouse.append request.replay.replay.database
        request.replay.replay.relations.anchor row
      passedOn := if build.live then build.passedOn ++ [row] else build.passedOn }
  | .execute now =>
    match build.pending with
    | [] => build
    | step :: rest => build.executeStep engine request now rest step

def startBuild (warehouse : Warehouse) (rendered : List InsertStatement) : VirtualBuild :=
  { warehouse, live := false, passedOn := [], pending := assembleStatements rendered,
    failed := false }

end Workflow

/-- The rows that land before, between and after the statements, and the clock when the
boundary time is captured. They have the columns of the anchor. -/
structure Timeline (names : List String) where
  beforeRealize : List Row
  beforeWait : List Row
  beforeBoundary : List Row
  beforeWatermark : List Row
  beforeAssertion : List Row
  beforeReplay : List Row
  afterReplay : List Row
  now : Int
  columns : ∀ row ∈ beforeRealize ++ beforeWait ++ beforeBoundary ++ beforeWatermark ++
    beforeAssertion ++ beforeReplay, project names row = row

namespace Timeline

variable {names : List String} (timeline : Timeline names)

def events : List BuildEvent :=
  timeline.beforeRealize.map .land ++ .execute timeline.now ::
    (timeline.beforeWait.map .land ++ .execute timeline.now ::
      (timeline.beforeBoundary.map .land ++ .execute timeline.now ::
        (timeline.beforeWatermark.map .land ++ .execute timeline.now ::
          (timeline.beforeAssertion.map .land ++ .execute timeline.now ::
            (timeline.beforeReplay.map .land ++ .execute timeline.now ::
              timeline.afterReplay.map .land)))))

/-- The rows in the anchor when the watermark is captured. -/
def captured : List Row :=
  timeline.beforeRealize ++ timeline.beforeWait ++ timeline.beforeBoundary ++
    timeline.beforeWatermark

/-- The rows that land while the view is there and the replay has not run. -/
def overlap : List Row :=
  timeline.beforeWait ++ timeline.beforeBoundary ++ timeline.beforeWatermark ++
    timeline.beforeAssertion ++ timeline.beforeReplay

def landed : List Row := timeline.beforeRealize ++ timeline.overlap ++ timeline.afterReplay

end Timeline

section Cutoff

variable (engine : ClickHouse) (request : BackfillBootstrapRequest) (captured : List Row)
  (boundary : Int)

/-- The captured rows up to the boundary time. -/
def eligibleRows : List Row :=
  if request.root.persistWatermarks then
    holding captured fun row => atMost (row request.replay.replay.columns.time) (some boundary)
  else captured

/-- The greatest offset of the row's partition among the captured rows up to the boundary
time, as it reads back from its text. -/
def offsetCutoff (row : Row) : Value :=
  let columns := request.replay.replay.columns
  let group := (eligibleRows request captured boundary).filter fun other =>
    other columns.partition = row columns.partition
  if (row columns.partition).isSome ∧ group ≠ [] then
    some (engine.toInt64 (aggregateText engine (largest (group.map (· columns.offset)))))
  else none

/-- The greatest cursor or the boundary time, as it reads back from its text; without a
captured row there is no watermark, and the default of the type stands in for it. -/
def scalarTimelineCutoff : Value :=
  let columnType := request.replay.boundaryColumnType.getD ""
  if captured = [] then typeDefault (engine.nullableType columnType)
  else some (engine.castText columnType
    (if request.replay.replay.mode = .cursor then
      aggregateText engine (largest (captured.map (· request.replay.replay.columns.cursor)))
    else engine.timeText boundary))

/-- The row stands at or below the cutoff that the captured rows give. -/
def AtOrBelowCaptured (row : Row) : Prop :=
  atMost (anchorPosition request.replay.replay row).2
    (if request.replay.replay.mode = .offsets then offsetCutoff engine request captured boundary row
      else scalarTimelineCutoff engine request captured boundary) = some true

instance (row : Row) : Decidable (AtOrBelowCaptured engine request captured boundary row) :=
  inferInstanceAs (Decidable (_ = _))

end Cutoff

section Tables

variable {engine : ClickHouse} {request : BackfillBootstrapRequest}

/-- The tables after these rows landed in the anchor. -/
def Warehouse.land (warehouse : Warehouse) (replay : AdapterReplayRequest) (rows : List Row) :
    Warehouse :=
  rows.foldl (fun warehouse row => warehouse.append replay.database replay.relations.anchor row)
    warehouse

variable (warehouse : Warehouse) (replay : AdapterReplayRequest) (rows : List Row)

@[simp] theorem anchorRelation_land :
    (anchorRelation replay (warehouse.land replay rows)).rows =
      (anchorRelation replay warehouse).rows ++ rows := by
  induction rows generalizing warehouse with
  | nil => simp [Warehouse.land]
  | cons row rows ih =>
    have hstep := ih (warehouse.append replay.database replay.relations.anchor row)
    rw [show warehouse.land replay (row :: rows) =
      (warehouse.append replay.database replay.relations.anchor row).land replay rows from rfl,
      hstep]
    simp [anchorRelation, Warehouse.append]

@[simp] theorem deployments_land :
    (warehouse.land replay rows).deployments = warehouse.deployments := by
  induction rows generalizing warehouse with
  | nil => rfl
  | cons row rows ih => exact ih _

@[simp] theorem watermarks_land :
    (warehouse.land replay rows).watermarks = warehouse.watermarks := by
  induction rows generalizing warehouse with
  | nil => rfl
  | cons row rows ih => exact ih _

@[simp] theorem capturedWatermarks_land (request : AdapterDeploymentReplayRequest) :
    capturedWatermarks request (warehouse.land replay rows) =
      capturedWatermarks request warehouse := by
  simp [capturedWatermarks]

@[simp] theorem boundaryTime_land (request : AdapterDeploymentReplayRequest) :
    boundaryTime request (warehouse.land replay rows) = boundaryTime request warehouse := by
  simp [boundaryTime]

@[simp] theorem anchorRelation_addDeployments (database : String) (added : List DeploymentRow) :
    anchorRelation replay (warehouse.addDeployments database added) =
      anchorRelation replay warehouse := rfl

@[simp] theorem anchorRelation_addWatermarks (database : String) (added : List WatermarkRow) :
    anchorRelation replay (warehouse.addWatermarks database added) =
      anchorRelation replay warehouse := rfl

@[simp] theorem capturedWatermarks_addDeployments (request : AdapterDeploymentReplayRequest)
    (database : String) (added : List DeploymentRow) :
    capturedWatermarks request (warehouse.addDeployments database added) =
      capturedWatermarks request warehouse := rfl

theorem capturedWatermarks_watermarkCapture (root : PopulationRoot)
    (request : AdapterDeploymentReplayRequest) (hnone : capturedWatermarks request warehouse = []) :
    capturedWatermarks request (warehouse.addWatermarks request.metadataDatabase
        (watermarkCapture engine root request warehouse)) =
      watermarkCapture engine root request warehouse := by
  have hold : ((warehouse.watermarks request.metadataDatabase).filter fun watermark =>
      watermark.deploymentId = request.deploymentId
        && watermark.rootObjectName = request.replay.relations.root
        && watermark.boundaryKind = request.replay.mode.value) = [] := hnone
  have hadded : (warehouse.addWatermarks request.metadataDatabase
      (watermarkCapture engine root request warehouse)).watermarks request.metadataDatabase =
        warehouse.watermarks request.metadataDatabase ++
          watermarkCapture engine root request warehouse := by
    simp [Warehouse.addWatermarks]
  rw [capturedWatermarks, hadded, List.filter_append, hold, List.nil_append, List.filter_eq_self]
  intro watermark hwatermark
  unfold watermarkCapture at hwatermark
  split_ifs at hwatermark with hmode
  · simp only [offsetWatermarkCapture, hnone, if_true, List.mem_map] at hwatermark
    obtain ⟨group, -, rfl⟩ := hwatermark
    simp [hmode, AdapterReplayBoundaryMode.value]
  · by_cases hrows : (anchorRelation request.replay warehouse).rows = []
    · simp [scalarWatermarkCapture, hrows] at hwatermark
    · simp only [scalarWatermarkCapture, hrows, hnone, not_false_eq_true, ne_eq, and_self, if_true,
        List.mem_singleton] at hwatermark
      simp [hwatermark]

theorem boundaryTime_capture (now : Int)
    (hnone : ∀ row ∈ warehouse.deployments request.replay.metadataDatabase,
      row.deploymentId ≠ request.replay.deploymentId) :
    boundaryTime request.replay (warehouse.addDeployments request.replay.metadataDatabase
        (boundaryTimeCapture engine request now warehouse)) =
      (request.boundaryTime.map engine.toDateTime64).getD now := by
  have hnew : (warehouse.deployments request.replay.metadataDatabase).any
      (·.deploymentId = request.replay.deploymentId) = false := by
    simpa using hnone
  have hold : (warehouse.deployments request.replay.metadataDatabase).find?
      (·.deploymentId = request.replay.deploymentId) = none := by
    simpa [List.find?_eq_none] using hnone
  simp [boundaryTime, anyBoundaryTime, Warehouse.addDeployments, boundaryTimeCapture, hnew,
    List.find?_append, hold]

end Tables

/-- Integers read back from their texts. -/
def ClickHouse.ReadsBack (engine : ClickHouse) : Prop :=
  ∀ n, engine.toInt64 (engine.integerText n) = n

section Reads

variable {engine : ClickHouse} {request : BackfillBootstrapRequest} {capture warehouse : Warehouse}
  {captured : List Row} {boundary : Int}

/-- These tables hold the watermarks of a capture over the listed rows at this boundary. -/
structure CapturedFrom (engine : ClickHouse) (request : BackfillBootstrapRequest)
    (warehouse : Warehouse) (captured : List Row) (boundary : Int) (capture : Warehouse) :
    Prop where
  fresh : capturedWatermarks request.replay capture = []
  rows : (anchorRelation request.replay.replay capture).rows = captured
  boundary : boundaryTime request.replay capture = boundary
  watermarks : capturedWatermarks request.replay warehouse =
    watermarkCapture engine request.root request.replay capture

theorem watermarkCapture_offsets (hmode : request.replay.replay.mode = .offsets)
    (h : CapturedFrom engine request warehouse captured boundary capture) :
    watermarkCapture engine request.root request.replay capture =
      (groupedMax (eligibleRows request captured boundary)
        (· request.replay.replay.columns.partition)
        (· request.replay.replay.columns.offset)).map fun group =>
          { deploymentId := request.replay.deploymentId
            rootObjectName := request.replay.replay.relations.root
            boundaryKind := "offsets"
            partitionValue := group.1.map engine.integerText
            cutoffValue := aggregateText engine group.2 } := by
  rw [← h.rows, ← h.boundary]
  simp [watermarkCapture, offsetWatermarkCapture, hmode, h.fresh, rowsUpTo, eligibleRows]

theorem atOrBelowCutoff_captured (hengine : engine.ReadsBack)
    (hmode : request.replay.replay.mode = .offsets)
    (h : CapturedFrom engine request warehouse captured boundary capture) (row : Row) :
    AtOrBelowCutoff engine request.replay warehouse (anchorPosition request.replay.replay row) ↔
      AtOrBelowCaptured engine request captured boundary row := by
  have hback : ∀ k : Value, (k.map engine.integerText).map engine.toInt64 = k := by
    intro k
    cases k <;> simp [hengine _]
  have hgroup : ∀ p, ((eligibleRows request captured boundary).filter fun other =>
      other request.replay.replay.columns.partition = some p) ≠ [] ↔
        ∃ item ∈ eligibleRows request captured boundary,
          item request.replay.replay.columns.partition = some p := by
    intro p
    simp [List.filter_eq_nil_iff]
  simp only [AtOrBelowCutoff, AtOrBelowCaptured, anchorPosition, hmode, if_true, h.watermarks,
    watermarkCapture_offsets hmode h, List.mem_map, WatermarkRow.partition, atMost_eq_true,
    exists_exists_and_eq_and, hback, offsetCutoff]
  constructor
  · rintro ⟨⟨k, m⟩, hmem, o, hoffset, ⟨p, hp, hk⟩, hle⟩
    obtain rfl : k = some p := hk
    obtain ⟨hitem, rfl⟩ := mem_groupedMax.mp hmem
    refine ⟨o, _, hoffset, ?_, hle⟩
    rw [hp, if_pos ⟨rfl, (hgroup p).mpr hitem⟩]
  · rintro ⟨o, c, hoffset, hcutoff, hle⟩
    cases hp : row request.replay.replay.columns.partition with
    | none => simp [hp] at hcutoff
    | some p =>
      rw [hp] at hcutoff
      split_ifs at hcutoff with hitem
      · refine ⟨(some p, _), mem_groupedMax.mpr ⟨(hgroup p).mp hitem.2, rfl⟩, o, hoffset,
          ⟨p, rfl, rfl⟩, ?_⟩
        rwa [Option.some.inj hcutoff]

theorem scalarCutoff_captured (hmode : request.replay.replay.mode ≠ .offsets)
    {columnType : String} (htype : request.replay.boundaryColumnType = some columnType)
    (h : CapturedFrom engine request warehouse captured boundary capture) :
    scalarCutoff engine request.replay columnType warehouse =
      scalarTimelineCutoff engine request captured boundary := by
  have hrows := h.rows
  have hboundary := h.boundary
  by_cases hnil : captured = []
  · simp [scalarCutoff, scalarTimelineCutoff, h.watermarks, watermarkCapture, hmode,
      scalarWatermarkCapture, hrows, hnil, htype, maximum, largest, List.reduceOption]
  · simp [scalarCutoff, scalarTimelineCutoff, h.watermarks, watermarkCapture, hmode,
      scalarWatermarkCapture, hrows, hnil, htype, h.fresh, hboundary, maximum, largest,
      List.reduceOption]

/-- The replay passes on the anchor rows at or below the captured cutoff, as often as they
are there. -/
theorem run_fullReplay (hengine : engine.ReadsBack) (hfull : FullReplay request.replay)
    {replay : InsertStatement} (hreplay : renderDeploymentReplay engine request.replay = .ok replay)
    (h : CapturedFrom engine request warehouse captured boundary capture)
    (hcolumns : ∀ row ∈ (anchorRelation request.replay.replay warehouse).rows,
      project request.replay.anchorColumnNames row = row) :
    replay.query.run warehouse =
      some ((anchorRelation request.replay.replay warehouse).rows.filter
        fun row => AtOrBelowCaptured engine request captured boundary row) := by
  classical
  by_cases hmode : request.replay.replay.mode = .offsets
  · rw [hfull.query_offsets hmode hreplay, offsetReplay_full, offsetSourceRows_full hmode]
    simp only [atOrBelowCutoff_captured hengine hmode h]
    have hsame : ((anchorRelation request.replay.replay warehouse).rows.filter fun row =>
        AtOrBelowCaptured engine request captured boundary row).map
          (project request.replay.anchorColumnNames) =
        ((anchorRelation request.replay.replay warehouse).rows.filter fun row =>
          AtOrBelowCaptured engine request captured boundary row).map id :=
      List.map_congr_left fun row hrow => hcolumns row (List.mem_of_mem_filter hrow)
    rw [hsame, List.map_id]
  · obtain ⟨columnType, htype, hquery⟩ := hfull.query_scalar hmode hreplay
    rw [hquery, scalarReplay_full hmode, holding, scalarCutoff_captured hmode htype h]
    simp [AtOrBelowCaptured, hmode]

end Reads

section Runs

variable {engine : ClickHouse} {request : BackfillBootstrapRequest}

/-- Rows that land reach the anchor, and pass the view if it is there. -/
theorem run_land (build : VirtualBuild) (rows : List Row) :
    run (nextBuild engine request) build (rows.map .land) =
      { build with
        warehouse := build.warehouse.land request.replay.replay rows
        passedOn := if build.live then build.passedOn ++ rows else build.passedOn } := by
  induction rows generalizing build with
  | nil => cases build; simp [Warehouse.land]
  | cons row rows ih =>
    rw [List.map_cons, run_cons, ih]
    cases hlive : build.live <;> simp [nextBuild, hlive, Warehouse.land]

theorem failed_of_idle {build : VirtualBuild} (hpending : build.pending = [])
    (events : List BuildEvent) :
    (run (nextBuild engine request) build events).failed = build.failed := by
  induction events generalizing build with
  | nil => rfl
  | cons event events ih =>
    cases event with
    | land row => exact ih hpending
    | execute now =>
      rw [run_cons, nextBuild, hpending]
      exact ih hpending

/-- A deployment of which the metadata holds nothing yet, over an anchor that was empty
before the timeline. -/
structure FreshDeployment (request : AdapterDeploymentReplayRequest) (warehouse : Warehouse) :
    Prop where
  anchor : (anchorRelation request.replay warehouse).rows = []
  deployment : ∀ row ∈ warehouse.deployments request.metadataDatabase,
    row.deploymentId ≠ request.deploymentId
  watermarks : capturedWatermarks request warehouse = []

variable {warehouse : Warehouse}

/-- The boundary time that is captured. -/
def Timeline.boundary {names : List String} (timeline : Timeline names) (engine : ClickHouse)
    (request : BackfillBootstrapRequest) : Int :=
  (request.boundaryTime.map engine.toDateTime64).getD timeline.now

section Tables

variable (timeline : Timeline request.replay.anchorColumnNames) (engine) (warehouse)

/-- The tables when the boundary time is captured. -/
def Timeline.boundaryTables : Warehouse :=
  ((warehouse.land request.replay.replay timeline.beforeRealize).land request.replay.replay
    timeline.beforeWait).land request.replay.replay timeline.beforeBoundary

/-- The tables when the watermark is captured. -/
def Timeline.captureTables : Warehouse :=
  ((timeline.boundaryTables warehouse).addDeployments request.replay.metadataDatabase
    (boundaryTimeCapture engine request timeline.now (timeline.boundaryTables warehouse))).land
      request.replay.replay timeline.beforeWatermark

/-- The tables when the input is checked. -/
def Timeline.assertionTables : Warehouse :=
  ((timeline.captureTables engine warehouse).addWatermarks request.replay.metadataDatabase
    (watermarkCapture engine request.root request.replay
      (timeline.captureTables engine warehouse))).land
        request.replay.replay timeline.beforeAssertion

/-- The tables that the replay reads. -/
def Timeline.replayTables : Warehouse :=
  (timeline.assertionTables engine warehouse).land request.replay.replay timeline.beforeReplay

variable {engine warehouse}

theorem Timeline.anchor_replayTables (hfresh : FreshDeployment request.replay warehouse) :
    (anchorRelation request.replay.replay (timeline.replayTables engine warehouse)).rows =
      timeline.beforeRealize ++ timeline.overlap := by
  simp [Timeline.replayTables, Timeline.assertionTables, Timeline.captureTables,
    Timeline.boundaryTables, Timeline.overlap, hfresh.anchor]

theorem Timeline.capturedFrom (hfresh : FreshDeployment request.replay warehouse) :
    CapturedFrom engine request (timeline.replayTables engine warehouse) timeline.captured
      (timeline.boundary engine request) (timeline.captureTables engine warehouse) where
  fresh := by
    simp [Timeline.captureTables, Timeline.boundaryTables, hfresh.watermarks]
  rows := by
    simp [Timeline.captureTables, Timeline.boundaryTables, Timeline.captured, hfresh.anchor]
  boundary := by
    rw [Timeline.captureTables, boundaryTime_land, boundaryTime_capture, Timeline.boundary]
    simpa [Timeline.boundaryTables] using hfresh.deployment
  watermarks := by
    rw [Timeline.replayTables, capturedWatermarks_land, Timeline.assertionTables,
      capturedWatermarks_land, capturedWatermarks_watermarkCapture]
    simp [Timeline.captureTables, Timeline.boundaryTables, hfresh.watermarks]

/-- The state of a build from its check of the input on. -/
theorem Timeline.run_events {replay : InsertStatement} :
    run (nextBuild engine request) (startBuild warehouse [replay]) timeline.events =
      run (nextBuild engine request)
        { warehouse := timeline.assertionTables engine warehouse
          live := true
          passedOn := timeline.beforeWait ++ timeline.beforeBoundary ++ timeline.beforeWatermark ++
            timeline.beforeAssertion
          pending := [.assertQualifyingInput, .insert replay]
          failed := false }
        (.execute timeline.now :: (timeline.beforeReplay.map .land ++ .execute timeline.now ::
          timeline.afterReplay.map .land)) := by
  simp only [Timeline.events, run_append, run_cons, run_land, nextBuild, startBuild,
    assembleStatements, List.cons_append, List.nil_append, List.map_cons, List.map_nil,
    VirtualBuild.executeStep, if_true, Bool.false_eq_true, if_false]
  rfl

end Tables

theorem passedOn_run (hengine : engine.ReadsBack) (hfull : FullReplay request.replay)
    {rendered : List InsertStatement}
    (hrender : renderClickhouseReplayFromDeployment engine request.replay = .ok rendered)
    (hfresh : FreshDeployment request.replay warehouse)
    (timeline : Timeline request.replay.anchorColumnNames)
    (hcompleted : (run (nextBuild engine request) (startBuild warehouse rendered)
      timeline.events).failed = false) :
    (run (nextBuild engine request) (startBuild warehouse rendered) timeline.events).passedOn =
      timeline.overlap ++ (timeline.beforeRealize ++ timeline.overlap).filter
        (fun row => AtOrBelowCaptured engine request timeline.captured
          (timeline.boundary engine request) row) ++ timeline.afterReplay := by
  obtain ⟨replay, rfl, hreplay⟩ := hfull.rendered_eq hrender
  have hread := run_fullReplay hengine hfull hreplay (timeline.capturedFrom hfresh) (by
    rw [timeline.anchor_replayTables hfresh]
    intro row hrow
    refine timeline.columns row ?_
    simpa [Timeline.overlap] using hrow)
  rw [timeline.anchor_replayTables hfresh] at hread
  rw [timeline.run_events] at hcompleted ⊢
  simp only [run_cons, nextBuild, VirtualBuild.executeStep] at hcompleted ⊢
  split_ifs at hcompleted ⊢ with hassertion
  · simp only [run_append, run_land, run_cons, nextBuild, VirtualBuild.executeStep, if_true]
    rw [show (timeline.assertionTables engine warehouse).land request.replay.replay
      timeline.beforeReplay = timeline.replayTables engine warehouse from rfl, hread]
    simp [Timeline.overlap]
  · rw [failed_of_idle rfl] at hcompleted
    cases hcompleted

/-- Every row that landed was passed on to the shadow table exactly once. -/
def ExactlyOnce {names : List String} (timeline : Timeline names) (build : VirtualBuild) : Prop :=
  build.passedOn.Perm timeline.landed

/-- A selection of two lists together is a rearrangement of the first one exactly when it
takes all of the first and nothing of the second. -/
theorem filter_perm_iff {α : Type} {before overlap : List α} {p : α → Bool} :
    ((before ++ overlap).filter p).Perm before ↔
      (∀ a ∈ before, p a = true) ∧ ∀ a ∈ overlap, p a = false := by
  rw [List.filter_append]
  constructor
  · intro hperm
    have hbefore : ∀ a ∈ before, p a = true := by
      intro a ha
      have hmem := hperm.symm.subset ha
      simp only [List.mem_append, List.mem_filter] at hmem
      exact hmem.elim (·.2) (·.2)
    have hlength := hperm.length_eq
    rw [List.filter_eq_self.mpr hbefore, List.length_append] at hlength
    have hnil : overlap.filter p = [] := List.length_eq_zero_iff.mp (by omega)
    exact ⟨hbefore, by simpa [List.filter_eq_nil_iff] using hnil⟩
  · rintro ⟨hbefore, hoverlap⟩
    have hnil : overlap.filter p = [] := by simpa [List.filter_eq_nil_iff] using hoverlap
    rw [List.filter_eq_self.mpr hbefore, hnil, List.append_nil]

/-- A completed build has passed on every row exactly once if and only if the cutoff parts
the rows that landed before the view from those that landed while it was there. -/
theorem run_exactlyOnce (hengine : engine.ReadsBack)
    (hbuilt : BuiltFor request.root request.replay.replay)
    (hmode : request.root.executionMode = .fullRebuild)
    (hstart : request.root.forcedStartTime = none)
    (hlookback : request.root.executionLookbackSeconds = none) {rendered : List InsertStatement}
    (hrender : renderClickhouseReplayFromDeployment engine request.replay = .ok rendered)
    (hfresh : FreshDeployment request.replay warehouse)
    (timeline : Timeline request.replay.anchorColumnNames)
    (hcompleted : (run (nextBuild engine request) (startBuild warehouse rendered)
      timeline.events).failed = false) :
    ExactlyOnce timeline
        (run (nextBuild engine request) (startBuild warehouse rendered) timeline.events) ↔
      (∀ row ∈ timeline.beforeRealize, AtOrBelowCaptured engine request timeline.captured
        (timeline.boundary engine request) row) ∧
      ∀ row ∈ timeline.overlap, ¬ AtOrBelowCaptured engine request timeline.captured
        (timeline.boundary engine request) row := by
  have hfull := hbuilt.fullReplay hmode hstart hlookback
  rw [ExactlyOnce, passedOn_run hengine hfull hrender hfresh timeline hcompleted, Timeline.landed]
  have hsplit : (timeline.overlap ++ (timeline.beforeRealize ++ timeline.overlap).filter
      (fun row => AtOrBelowCaptured engine request timeline.captured
        (timeline.boundary engine request) row)).Perm
          (timeline.beforeRealize ++ timeline.overlap) ↔
      ((timeline.beforeRealize ++ timeline.overlap).filter
        (fun row => AtOrBelowCaptured engine request timeline.captured
          (timeline.boundary engine request) row)).Perm timeline.beforeRealize := by
    rw [List.perm_append_comm.congr_right, List.perm_append_left_iff]
  rw [List.perm_append_right_iff, hsplit, filter_perm_iff]
  simp only [decide_eq_true_eq, decide_eq_false_iff_not]

end Runs

/-- An engine that writes integers in decimal and reads them back. -/
def decimalEngine : ClickHouse :=
  { toInt64 := fun text => (readDecimal text).getD 0
    toDateTime64 := fun _ => 0
    castText := fun _ _ => 0
    castTime := fun _ time => time
    nullableType := fun _ => false
    integerText := decimalText
    timeText := fun _ => "1970-01-01 00:00:00.000" }

theorem decimalEngine_readsBack : decimalEngine.ReadsBack := by
  intro n
  simp [decimalEngine]

def fullRoot : PopulationRoot :=
  { replayLineageMode := .offsets, executionMode := .fullRebuild, forcedStartTime := none
    executionLookbackSeconds := none, persistWatermarks := true }

def fullBuild : BackfillBootstrapRequest :=
  { root := fullRoot, replay := sampleRequest fullRoot, boundaryTime := none
    anchorExistedAtConfirmation := true }

/-- Tables without a row, and without metadata. -/
def freshTables : Warehouse :=
  { relation := fun _ _ => ⟨fun _ => false, []⟩, deployments := fun _ => []
    watermarks := fun _ => [] }

theorem freshTables_freshDeployment : FreshDeployment fullBuild.replay freshTables :=
  ⟨rfl, by simp [freshTables], rfl⟩

theorem project_sampleRow (n : Int) :
    project fullBuild.replay.anchorColumnNames (sampleRow n) = sampleRow n := by
  funext column
  simp only [project, sampleRow, rowOf, fullBuild, sampleRequest, List.mem_cons, List.not_mem_nil,
    or_false]
  split_ifs with hlisted
  · rfl
  · simp only [not_or] at hlisted
    obtain ⟨h₁, h₂, h₃, h₄, h₅⟩ := hlisted
    simp [List.lookup_cons, beq_false_of_ne h₁, beq_false_of_ne h₂, beq_false_of_ne h₃,
      beq_false_of_ne h₄, beq_false_of_ne h₅]

/-- Positions 1 and 2 land before the view, `waiting` during the wait and 4 before the
replay; the boundary is nine seconds after the epoch. -/
def sampleTimeline (waiting : List Int) : Timeline fullBuild.replay.anchorColumnNames :=
  { beforeRealize := [1, 2].map sampleRow
    beforeWait := waiting.map sampleRow
    beforeBoundary := []
    beforeWatermark := []
    beforeAssertion := []
    beforeReplay := [sampleRow 4]
    afterReplay := [sampleRow 5]
    now := 9000
    columns := by
      intro row hrow
      have hsample : ∃ n, row = sampleRow n := by
        simp only [List.append_nil, List.mem_append, List.mem_map, List.mem_singleton] at hrow
        obtain (⟨n, -, rfl⟩ | ⟨n, -, rfl⟩) | rfl := hrow
        · exact ⟨n, rfl⟩
        · exact ⟨n, rfl⟩
        · exact ⟨4, rfl⟩
      obtain ⟨n, rfl⟩ := hsample
      exact project_sampleRow n }

/-- The build over these landings. -/
def sampleBuild (rendered : List InsertStatement) (waiting : List Int) : VirtualBuild :=
  run (nextBuild decimalEngine fullBuild) (startBuild freshTables rendered)
    (sampleTimeline waiting).events

/-- With nothing during the wait, the cutoff parts the rows of the replay from those of
the view. -/
theorem run_exactlyOnce_quiet :
    ∃ rendered,
      renderClickhouseReplayFromDeployment decimalEngine fullBuild.replay = .ok rendered ∧
        ExactlyOnce (sampleTimeline []) (sampleBuild rendered []) := by
  refine ⟨_, rfl, (run_exactlyOnce decimalEngine_readsBack (sampleRequest_builtFor _) rfl rfl rfl
    rfl freshTables_freshDeployment (sampleTimeline []) ?_).mpr ?_⟩
  · decide +kernel
  · decide +kernel

/-- A row that lands during the wait is at or below the cutoff, which is captured after it:
the view has passed it on, and the replay does so again. -/
theorem not_run_exactlyOnce :
    ∃ rendered,
      renderClickhouseReplayFromDeployment decimalEngine fullBuild.replay = .ok rendered ∧
        (sampleBuild rendered [3]).failed = false ∧
        ¬ ExactlyOnce (sampleTimeline [3]) (sampleBuild rendered [3]) := by
  refine ⟨_, rfl, by decide +kernel, ?_⟩
  intro hperm
  have hlength := hperm.length_eq
  revert hlength
  decide +kernel

end SqlTide.Replay
