import SqlTide.Replay.Selection

/-!
# How a seed and a time-bounded replay split the history

With a forced start time or a lookback, the seed takes the positions before the lower
bound and the replay those from it on. In offset mode the bound of a partition is its
greatest offset at or before the lower time.
-/

namespace SqlTide.Replay

open Foundations Sql Fragment

section LowerTime

variable (engine : ClickHouse) (request : AdapterDeploymentReplayRequest) (warehouse : Warehouse)

/-- The forced start time, or the boundary time less the lookback. -/
def lowerTime : Int :=
  if request.replay.window.lowerBoundMode = .forcedTime then
    engine.toDateTime64 (request.replay.window.forcedStartTime.getD "")
  else anyBoundaryTime (warehouse.deployments request.metadataDatabase) request.deploymentId
    - request.replay.window.lookbackSeconds.getD 0 * 1000

/-- The anchor rows at or before the lower time. -/
def rowsBeforeLowerTime : Relation :=
  rowsUpTo (anchorRelation request.replay warehouse) request.replay.columns.time
    (lowerTime engine request warehouse)

def TimeBounded (window : AdapterReplayWindow) : Prop :=
  window.lowerBoundMode = .forcedTime ∨ window.lowerBoundMode = .lookback

variable {engine request} {root : PopulationRoot}

theorem BuiltFor.timeBounded (hbuilt : BuiltFor root request.replay)
    (hbounded : root.forcedStartTime.isSome ∨ root.executionLookbackSeconds.isSome) :
    TimeBounded request.replay.window := by
  rw [TimeBounded, hbuilt.window]
  by_cases hforced : root.forcedStartTime.isSome
  · exact .inl (if_pos hforced)
  · refine .inr ?_
    simp [lowerBoundMode, hforced, hbounded.resolve_left hforced]

theorem BuiltFor.inclusive (hbuilt : BuiltFor root request.replay) :
    request.replay.window.lowerBoundInclusive = true := by
  rw [hbuilt.window]

theorem evaluatesTo_lowerTime (htime : TimeBounded request.replay.window)
    {lookback : Option (Fragment Warehouse Int)} {fragment : Fragment Warehouse Int}
    (hlookback : deploymentLookback request = .ok lookback)
    (h : replayLowerTimeExpression engine request.replay lookback = .ok fragment) :
    fragment.EvaluatesTo warehouse (lowerTime engine request warehouse) := by
  rcases htime with hforced | hback
  · cases hstart : request.replay.window.forcedStartTime with
    | none => simp [replayLowerTimeExpression, hforced, hstart] at h
    | some time =>
      simp only [replayLowerTimeExpression, hforced, hstart, if_true, Except.ok.injEq] at h
      subst h
      simpa [lowerTime, hforced, hstart] using evaluatesTo_stored _ warehouse
  · cases hseconds : request.replay.window.lookbackSeconds with
    | none =>
      simp [deploymentLookback, deploymentLookbackTimeExpression, hback, hseconds,
        Except.map] at hlookback
    | some seconds =>
      simp only [deploymentLookback, deploymentLookbackTimeExpression, hback, hseconds, if_true,
        Except.map, Except.ok.injEq] at hlookback
      subst hlookback
      simp only [replayLowerTimeExpression, hback, reduceCtorEq, if_false, Except.ok.injEq] at h
      subst h
      simpa [lowerTime, hback, hseconds] using evaluatesTo_stored _ warehouse

/-- The starts of a time-bounded replay are taken from the rows at or before the lower time. -/
theorem evaluatesTo_offsetLower (htime : TimeBounded request.replay.window)
    {lowerCte : Fragment Warehouse Relation}
    (h : deploymentOffsetLowerCte engine request = .ok (some lowerCte)) :
    lowerCte.EvaluatesTo warehouse (startOffsets (rowsBeforeLowerTime engine request warehouse)
      request.replay.columns.partition request.replay.columns.offset) := by
  obtain ⟨lookback, hlookback, hcte⟩ := bind_eq_ok.mp h
  have hbound : ∃ time, replayLowerTimeExpression engine request.replay lookback = .ok time ∧
      lowerCte = .map₂
        (fun anchor time => startOffsets (rowsUpTo anchor request.replay.columns.time time)
          request.replay.columns.partition request.replay.columns.offset)
        (.stored (anchorRelation request.replay)) time := by
    rcases htime with hmode | hmode <;> rw [replayOffsetLowerCte, hmode] at hcte <;>
      obtain ⟨time, htime, hresult⟩ := bind_eq_ok.mp hcte <;>
      exact ⟨time, htime, (Option.some.inj (Except.ok.inj hresult)).symm⟩
  obtain ⟨time, htime', rfl⟩ := hbound
  exact (evaluatesTo_stored _ warehouse).map₂
    (evaluatesTo_lowerTime warehouse htime hlookback htime') _

theorem scalarLower_timeBounded (htime : TimeBounded request.replay.window) {columnType : String}
    {lower : Fragment Warehouse Value}
    (h : deploymentScalarLowerExpression engine request columnType = .ok (some lower)) :
    (request.replay.mode ≠ .cursor → lower.EvaluatesTo warehouse
      (some (engine.castTime columnType (lowerTime engine request warehouse)))) ∧
      (request.replay.mode = .cursor → "replay_cutoff" ∈ lower.reads) := by
  obtain ⟨lookback, hlookback, hexpression⟩ := bind_eq_ok.mp h
  rcases htime with hmode | hmode <;> rw [replayScalarLowerExpression, hmode] at hexpression <;>
    obtain ⟨time, htime', hresult⟩ := bind_eq_ok.mp hexpression
  all_goals
    have hvalue := evaluatesTo_lowerTime warehouse (by simp [TimeBounded, hmode]) hlookback htime'
    refine ⟨fun hcursor => ?_, fun hcursor => ?_⟩
    · rw [if_pos hcursor] at hresult
      obtain rfl := Option.some.inj (Except.ok.inj hresult)
      exact hvalue.map _
    · rw [if_neg (not_not.mpr hcursor)] at hresult
      obtain rfl := Option.some.inj (Except.ok.inj hresult)
      simp [map₂, upperExpression, map, named]

end LowerTime

section Split

variable (engine : ClickHouse) (request : AdapterDeploymentReplayRequest) (warehouse : Warehouse)

/-- The active relation holds exactly the positions of the anchor. -/
def SamePositions : Prop :=
  ∀ position, position ∈ activePositions request warehouse ↔
    position ∈ anchorPositions request warehouse

/-- Both statements read only names that they define, and of the anchor's positions at or
below the cutoff each is selected by exactly one of them. -/
structure SplitsHistory (seed replay : InsertStatement) : Prop where
  seed_closed : seed.query.closed = true
  replay_closed : replay.query.closed = true
  selected_once : ∀ position ∈ anchorPositions request warehouse,
    AtOrBelowCutoff engine request warehouse position →
      Xor (SeedSelects request warehouse seed position)
        (ReplaySelects request warehouse replay position)

/-- A partition with a negative offset at or below its cutoff has an anchor row at or before
the lower time, unless the offset column admits NULL. -/
def StartedBelowZero : Prop :=
  (anchorRelation request.replay warehouse).nullable request.replay.columns.offset = false →
    ∀ p o, (some p, some o) ∈ anchorPositions request warehouse →
      AtOrBelowCutoff engine request warehouse (some p, some o) → o < 0 →
        ∃ row ∈ (rowsBeforeLowerTime engine request warehouse).rows,
          row request.replay.columns.partition = some p

variable {engine request warehouse} {seed replay : InsertStatement}

/-- Below the start or from it on; only a partition without a start can miss both. -/
theorem xor_fromStart {relation : Relation} {partition offset : String} {p o : Int} :
    Xor (∃ f, startOf relation partition offset p = some f ∧ o < f)
        (FromStart relation partition offset p o) ↔
      ((∀ row ∈ relation.rows, row partition ≠ some p) →
        relation.nullable offset = true ∨ 0 ≤ o) := by
  cases hstart : startOf relation partition offset p with
  | none => simp [FromStart, hstart, xor_def]
  | some f =>
    obtain ⟨⟨row, hrow, hp, -⟩, -⟩ := startOf_eq_some.mp hstart
    have hpresent : ¬ ∀ row ∈ relation.rows, row partition ≠ some p :=
      fun habsent => habsent row hrow hp
    simp only [FromStart, hstart, Option.some.injEq, forall_eq', exists_eq_left', hpresent,
      false_implies, and_true, iff_true, xor_def]
    omega

theorem AtOrBelowCutoff.offsets {position : Position} (hmode : request.replay.mode = .offsets)
    (h : AtOrBelowCutoff engine request warehouse position) :
    ∃ p o, position = (some p, some o) := by
  obtain ⟨watermark, -, o, ho, hbound⟩ := h
  rw [if_pos hmode] at hbound
  obtain ⟨⟨p, hp, -⟩, -⟩ := hbound
  exact ⟨p, o, Prod.ext hp ho⟩

theorem splitsHistory_offsets (hmode : request.replay.mode = .offsets)
    (hinclusive : request.replay.window.lowerBoundInclusive = true)
    (htime : TimeBounded request.replay.window)
    (hrender : renderClickhouseReplayFromDeployment engine request = .ok [seed, replay])
    (hsame : SamePositions request warehouse) :
    SplitsHistory engine request warehouse seed replay ↔
      StartedBelowZero engine request warehouse := by
  obtain ⟨lowerCte, hcte, hseed, hreplay⟩ := rendered_offsets hmode hrender
  have hlower := evaluatesTo_offsetLower warehouse htime hcte
  have honce : ∀ p o, (some p, some o) ∈ anchorPositions request warehouse →
      AtOrBelowCutoff engine request warehouse (some p, some o) →
      (Xor (SeedSelects request warehouse seed (some p, some o))
          (ReplaySelects request warehouse replay (some p, some o)) ↔
        ((∀ row ∈ (rowsBeforeLowerTime engine request warehouse).rows,
            row request.replay.columns.partition ≠ some p) →
          (anchorRelation request.replay warehouse).nullable request.replay.columns.offset = true
            ∨ 0 ≤ o)) := by
    intro p o hmem hcutoff
    rw [offsetSeed_selects hmode hinclusive hseed hlower,
      offsetReplay_selects hmode hinclusive hreplay hlower]
    simp only [(hsame _).mpr hmem, hmem, hcutoff, true_and]
    exact xor_fromStart
  constructor
  · intro hsplit hnullable p o hmem hcutoff hneg
    by_contra habsent
    simp only [not_exists, not_and] at habsent
    have hor := (honce p o hmem hcutoff).mp (hsplit.selected_once _ hmem hcutoff) habsent
    rw [hnullable] at hor
    rcases hor with hfalse | hnonneg
    · cases hfalse
    · omega
  · intro hstarted
    refine ⟨?_, ?_, ?_⟩
    · rw [hseed]
      exact offsetSeedQuery_closed hlower
    · rw [hreplay]
      exact offsetReplay_closed hlower
    · intro position hmem hcutoff
      obtain ⟨p, o, rfl⟩ := hcutoff.offsets hmode
      rw [honce p o hmem hcutoff]
      intro habsent
      by_contra hneg
      simp only [not_or, Bool.not_eq_true, not_le] at hneg
      obtain ⟨row, hrow, hp⟩ := hstarted hneg.1 p o hmem hcutoff hneg.2
      exact habsent row hrow hp

theorem AtOrBelowCutoff.scalar {position : Position} (hmode : request.replay.mode ≠ .offsets)
    (hmem : position ∈ anchorPositions request warehouse)
    (h : AtOrBelowCutoff engine request warehouse position) : ∃ v, position = (none, some v) := by
  obtain ⟨row, -, rfl⟩ := List.mem_map.mp hmem
  obtain ⟨watermark, -, v, hv, -⟩ := h
  exact ⟨v, Prod.ext (by simp [anchorPosition, hmode]) hv⟩

theorem splitsHistory_scalar (hmode : request.replay.mode ≠ .offsets)
    (hcursor : request.replay.mode ≠ .cursor)
    (hinclusive : request.replay.window.lowerBoundInclusive = true)
    (htime : TimeBounded request.replay.window)
    (hrender : renderClickhouseReplayFromDeployment engine request = .ok [seed, replay])
    (hsame : SamePositions request warehouse) :
    SplitsHistory engine request warehouse seed replay := by
  obtain ⟨columnType, lower, htype, hexpression, hseed, hreplay⟩ := rendered_scalar hmode hrender
  have hlower := (scalarLower_timeBounded warehouse htime hexpression).1 hcursor
  refine ⟨?_, ?_, ?_⟩
  · rw [hseed]
    exact scalarSeed_closed hlower
  · rw [hreplay]
    exact scalarReplay_closed hlower
  · intro position hmem hcutoff
    obtain ⟨v, rfl⟩ := hcutoff.scalar hmode hmem
    rw [scalarSeed_selects hmode hinclusive hseed hlower,
      scalarReplay_selects hmode hinclusive htype hreplay hlower hcutoff]
    simp only [(hsame _).mpr hmem, hmem, true_and, Option.some.injEq, exists_eq_left', xor_def]
    omega

/-- The seed of a cursor deployment reads the cutoff of the replay, which it does not define. -/
theorem not_splitsHistory_cursor (hcursor : request.replay.mode = .cursor)
    (htime : TimeBounded request.replay.window)
    (hrender : renderClickhouseReplayFromDeployment engine request = .ok [seed, replay]) :
    ¬ SplitsHistory engine request warehouse seed replay := by
  intro hsplit
  obtain ⟨columnType, lower, htype, hexpression, hseed, hreplay⟩ :=
    rendered_scalar (by simp [hcursor]) hrender
  have hreads := (scalarLower_timeBounded warehouse htime hexpression).2 hcursor
  have hclosed := hsplit.seed_closed
  rw [hseed] at hclosed
  simp only [scalarSeedQuery, Query.closed, Query.closedOver, map₂, stored,
    List.nil_append, decide_eq_true_eq, List.subset_nil] at hclosed
  simp [hclosed] at hreads

/-- A seed and a replay bounded by a start time split the history exactly, except in cursor
mode, and except for negative offsets of partitions that start after the lower time. -/
theorem renderClickhouseReplayFromDeployment_splitsHistory {root : PopulationRoot}
    (hbuilt : BuiltFor root request.replay)
    (hbounded : root.forcedStartTime.isSome ∨ root.executionLookbackSeconds.isSome)
    (hrender : renderClickhouseReplayFromDeployment engine request = .ok [seed, replay])
    (hsame : SamePositions request warehouse) :
    SplitsHistory engine request warehouse seed replay ↔
      request.replay.mode ≠ .cursor ∧
        (request.replay.mode = .offsets → StartedBelowZero engine request warehouse) := by
  have htime := hbuilt.timeBounded hbounded
  by_cases hcursor : request.replay.mode = .cursor
  · simp [hcursor, not_splitsHistory_cursor hcursor htime hrender]
  · by_cases hmode : request.replay.mode = .offsets
    · simp only [hmode, ne_eq, reduceCtorEq, not_false_eq_true, true_and, forall_const]
      exact splitsHistory_offsets hmode hbuilt.inclusive htime hrender hsame
    · simp only [ne_eq, hcursor, hmode, not_false_eq_true, false_implies, and_self, iff_true]
      exact splitsHistory_scalar hmode hcursor hbuilt.inclusive htime hrender hsame

end Split

/-- An engine that knows the numbers of one digit and one start time. -/
def sampleEngine : ClickHouse :=
  let digits := ["0", "1", "2", "3", "4", "5", "6", "7", "8", "9"]
  { toInt64 := fun text => digits.idxOf text
    toDateTime64 := fun text => if text = "1970-01-01 00:00:05.000" then 5000 else 0
    castText := fun _ text => digits.idxOf text
    castTime := fun _ time => time
    nullableType := fun _ => false
    integerText := fun number => digits.getD number.toNat "0"
    timeText := fun _ => "1970-01-01 00:00:05.000" }

def sampleRoot (mode : AdapterReplayBoundaryMode) (forcedStartTime : Option String) :
    PopulationRoot :=
  { replayLineageMode := mode
    executionMode := .seededBoundedRebuild
    forcedStartTime
    executionLookbackSeconds := none
    persistWatermarks := true }

def sampleRequest (root : PopulationRoot) : AdapterDeploymentReplayRequest :=
  { replay :=
      { mode := root.replayLineageMode
        database := "orders"
        relations :=
          { root := "tbl__orders", source := "raw__orders", anchor := "raw__orders"
            target := "tbl__orders__dep" }
        replayQuery := { cteNames := [], visible := id, aggregateSemantics := false }
        columns :=
          { partition := "_replay_partition", offset := "_replay_offset"
            timestamp := "_replay_timestamp", landedAt := "_replay_landed_at"
            cursor := "_replay_cursor" }
        window :=
          { lowerBoundMode := lowerBoundMode root
            lowerBoundInclusive := true
            forcedStartTime := root.forcedStartTime
            lookbackSeconds := root.executionLookbackSeconds }
        seedMode := if root.executionMode = .seededBoundedRebuild then .historyPrefix else .none
        targetColumnNames := ["_replay_partition", "_replay_offset", "_replay_cursor"]
        filterBoundariesAtSource := false }
    metadataDatabase := "metadata"
    deploymentId := "dep-1"
    boundaryColumnType := if root.replayLineageMode = .offsets then none else some "UInt64"
    activeRelationName := "tbl__orders"
    activeColumnNames := ["_replay_partition", "_replay_offset", "_replay_cursor"]
    anchorColumnNames := ["_replay_partition", "_replay_offset", "_replay_timestamp",
      "_replay_landed_at", "_replay_cursor"]
    partition_listed := fun _ => by simp
    offset_listed := fun _ => by simp }

theorem sampleRequest_builtFor (root : PopulationRoot) :
    BuiltFor root (sampleRequest root).replay := ⟨rfl, rfl, rfl⟩

/-- The row at position `n`, landed `n` seconds after the epoch. -/
def sampleRow (n : Int) : Row :=
  rowOf [("_replay_partition", some 0), ("_replay_offset", some n), ("_replay_cursor", some n),
    ("_replay_timestamp", some (n * 1000)), ("_replay_landed_at", some (n * 1000))]

/-- These positions in the anchor and in the active relation, and no cutoff yet. -/
def sampleTables (anchor active : List Int) : Warehouse :=
  { relation := fun _ name =>
      ⟨fun _ => false, (if name = "raw__orders" then anchor else active).map sampleRow⟩
    deployments := fun _ => [⟨"dep-1", 9000⟩]
    watermarks := fun _ => [] }

/-- Positions 4 to 7 on both sides, with the cutoff at 7. -/
def sampleWarehouse (mode : AdapterReplayBoundaryMode) : Warehouse :=
  { sampleTables [4, 5, 6, 7] [4, 5, 6, 7] with
    watermarks := fun _ => [{
      deploymentId := "dep-1", rootObjectName := "tbl__orders", boundaryKind := mode.value
      partitionValue := if mode = .offsets then some "0" else none, cutoffValue := "7" }] }

/-- The request of a deployment forced to start five seconds after the epoch. -/
def forcedRequest (mode : AdapterReplayBoundaryMode) : AdapterDeploymentReplayRequest :=
  sampleRequest (sampleRoot mode (some "1970-01-01 00:00:05.000"))

theorem renderClickhouseReplayFromDeployment_splitsHistory_offsets :
    ∃ seed replay,
      renderClickhouseReplayFromDeployment sampleEngine (forcedRequest .offsets)
          = .ok [seed, replay] ∧
        SplitsHistory sampleEngine (forcedRequest .offsets) (sampleWarehouse .offsets)
          seed replay := by
  refine ⟨_, _, rfl, ?_⟩
  refine (renderClickhouseReplayFromDeployment_splitsHistory (sampleRequest_builtFor _)
    (.inl rfl) rfl fun _ => Iff.rfl).mpr ⟨by decide, ?_⟩
  intro _ _ p o hmem _ hneg
  have hpositive : ∀ position ∈ anchorPositions (forcedRequest .offsets)
      (sampleWarehouse .offsets), ∀ o, position.2 = some o → 0 ≤ o := by
    decide
  have := hpositive _ hmem o rfl
  omega

/-- In cursor mode the seed of such a deployment cannot even run. -/
theorem not_renderClickhouseReplayFromDeployment_splitsHistory :
    ∃ seed replay,
      renderClickhouseReplayFromDeployment sampleEngine (forcedRequest .cursor)
          = .ok [seed, replay] ∧
        SamePositions (forcedRequest .cursor) (sampleWarehouse .cursor) ∧
        seed.query.run (sampleWarehouse .cursor) = none ∧
        ¬ SplitsHistory sampleEngine (forcedRequest .cursor) (sampleWarehouse .cursor)
          seed replay := by
  refine ⟨_, _, rfl, fun _ => Iff.rfl, rfl, ?_⟩
  intro hsplit
  cases hsplit.seed_closed

end SqlTide.Replay
