import SqlTide.Replay.DeploymentReplay

/-!
# The positions that a seed and a replay select

A row stands at a position: its partition and offset, or the value of its boundary
column. This file says which positions the rendered statements pick from the tables they
read, whatever their lower bound is.
-/

namespace SqlTide.Replay

open Foundations List Sql

/-- A partition and an offset; without partitions the first part is NULL. -/
abbrev Position := Value × Value

/-- The position of an anchor row, in the columns that the replay reads it from. -/
def anchorPosition (replay : AdapterReplayRequest) (row : Row) : Position :=
  if replay.mode = .offsets then (row replay.columns.partition, row replay.columns.offset)
  else (none, if filtersAtSource replay then row (physicalBoundaryColumn replay)
    else replay.replayQuery.visible row (canonicalBoundaryColumn replay.mode))

/-- The position of a row of the active relation. -/
def activePosition (replay : AdapterReplayRequest) (row : Row) : Position :=
  if replay.mode = .offsets then (row "_replay_partition", row "_replay_offset")
  else (none, row (canonicalBoundaryColumn replay.mode))

def anchorPositions (request : AdapterDeploymentReplayRequest) (warehouse : Warehouse) :
    List Position :=
  (anchorRelation request.replay warehouse).rows.map (anchorPosition request.replay)

def activePositions (request : AdapterDeploymentReplayRequest) (warehouse : Warehouse) :
    List Position :=
  (activeRelation request warehouse).rows.map (activePosition request.replay)

/-- A position at or below the cutoff captured for its partition, or for the root. -/
def AtOrBelowCutoff (engine : ClickHouse) (request : AdapterDeploymentReplayRequest)
    (warehouse : Warehouse) (position : Position) : Prop :=
  ∃ watermark ∈ capturedWatermarks request warehouse, ∃ value, position.2 = some value ∧
    if request.replay.mode = .offsets then
      (∃ partition, position.1 = some partition ∧ watermark.partition engine = some partition) ∧
        value ≤ engine.toInt64 watermark.cutoffValue
    else ∃ columnType, request.boundaryColumnType = some columnType ∧
      value ≤ engine.castText columnType watermark.cutoffValue

/-- The positions that a seed copies from the active relation. -/
def SeedSelects (request : AdapterDeploymentReplayRequest) (warehouse : Warehouse)
    (seed : InsertStatement) (position : Position) : Prop :=
  ∃ rows, seed.query.run warehouse = some rows ∧
    position ∈ rows.map (activePosition request.replay)

/-- The positions that a replay reads from the anchor. -/
def ReplaySelects (request : AdapterDeploymentReplayRequest) (warehouse : Warehouse)
    (replay : InsertStatement) (position : Position) : Prop :=
  ∃ rows, replay.query.run warehouse = some rows ∧
    position ∈ rows.map (anchorPosition request.replay)

section Rendered

variable {engine : ClickHouse} {request : AdapterDeploymentReplayRequest}
  {seed replay : InsertStatement}

theorem renderClickhouseReplayFromDeployment_ok
    (h : renderClickhouseReplayFromDeployment engine request = .ok [seed, replay]) :
    renderDeploymentSeed engine request = .ok (some seed) ∧
      renderDeploymentReplay engine request = .ok replay := by
  obtain ⟨first, hfirst, hrest⟩ := bind_eq_ok.mp h
  obtain ⟨second, hsecond, hpair⟩ := bind_eq_ok.mp hrest
  cases first with
  | none => simp [pure, Except.pure] at hpair
  | some first =>
    simp only [pure, Except.pure, Except.ok.injEq, List.cons.injEq, and_true] at hpair
    obtain ⟨rfl, rfl⟩ := hpair
    exact ⟨hfirst, hsecond⟩

theorem rewriteReplayQuery_ok {authored : AdapterReplayQuery}
    {source : Fragment Warehouse Relation} {predicate : Fragment Warehouse (Row → Truth)}
    {ctes : List (String × Fragment Warehouse Relation)} {query : Query Warehouse}
    (h : rewriteReplayQuery authored source predicate ctes = .ok query) :
    query = rewrittenQuery authored source predicate ctes := by
  rw [rewriteReplayQuery] at h
  split_ifs at h
  exact (Except.ok.inj h).symm

theorem rendered_offsets (hmode : request.replay.mode = .offsets)
    (h : renderClickhouseReplayFromDeployment engine request = .ok [seed, replay]) :
    ∃ lowerCte, deploymentOffsetLowerCte engine request = .ok (some lowerCte) ∧
      seed.query = offsetSeedQuery request lowerCte ∧
      replay.query = rewrittenQuery request.replay.replayQuery
        (.named "filtered_replay_source") everyRow
        (offsetNamedQueries engine request (some lowerCte)) := by
  obtain ⟨hseed, hreplay⟩ := renderClickhouseReplayFromDeployment_ok h
  rw [renderDeploymentReplay, if_pos hmode] at hreplay
  obtain ⟨lowerCte, hlower, hrest⟩ := bind_eq_ok.mp hreplay
  obtain ⟨query, hquery, hinsert⟩ := bind_eq_ok.mp hrest
  cases hinsert
  rw [renderDeploymentSeed] at hseed
  split_ifs at hseed
  · cases hseed
  · cases hseed
  · obtain ⟨lowerCte', hlower', hinsert'⟩ := map_eq_ok.mp hseed
    obtain rfl : lowerCte = lowerCte' := Except.ok.inj (hlower.symm.trans hlower')
    cases lowerCte with
    | none => cases hinsert'
    | some lowerCte =>
      cases hinsert'
      exact ⟨lowerCte, hlower, rfl, rewriteReplayQuery_ok hquery⟩

theorem rendered_scalar (hmode : request.replay.mode ≠ .offsets)
    (h : renderClickhouseReplayFromDeployment engine request = .ok [seed, replay]) :
    ∃ columnType lower, request.boundaryColumnType = some columnType ∧
      deploymentScalarLowerExpression engine request columnType = .ok (some lower) ∧
      seed.query = scalarSeedQuery request lower ∧
      replay.query = rewrittenQuery request.replay.replayQuery
        (scalarSource request.replay (some lower)) (scalarWhere request.replay (some lower))
        [("replay_cutoff", deploymentScalarCutoffCte engine request columnType)] := by
  obtain ⟨hseed, hreplay⟩ := renderClickhouseReplayFromDeployment_ok h
  rw [renderDeploymentReplay, if_neg hmode] at hreplay
  obtain ⟨columnType, htype, hrest⟩ := bind_eq_ok.mp hreplay
  obtain ⟨lower, hlower, hrest⟩ := bind_eq_ok.mp hrest
  obtain ⟨query, hquery, hinsert⟩ := bind_eq_ok.mp hrest
  cases hinsert
  rw [renderDeploymentSeed] at hseed
  split_ifs at hseed
  · cases hseed
  · cases hseed
  · obtain ⟨columnType', htype', hrest'⟩ := bind_eq_ok.mp hseed
    obtain rfl : columnType = columnType' := Except.ok.inj (htype.symm.trans htype')
    obtain ⟨lower', hlower', hinsert'⟩ := bind_eq_ok.mp hrest'
    obtain rfl : lower = lower' := Except.ok.inj (hlower.symm.trans hlower')
    cases lower with
    | none => cases hinsert'
    | some lower =>
      obtain rfl := Option.some.inj (Except.ok.inj hinsert')
      refine ⟨columnType, lower, ?_, hlower, rfl, rewriteReplayQuery_ok hquery⟩
      cases hboundary : request.boundaryColumnType with
      | none => simp [requiredDeploymentBoundaryType, hboundary] at htype
      | some columnType' =>
        rw [requiredDeploymentBoundaryType, hboundary] at htype
        exact congrArg some (Except.ok.inj htype)

end Rendered

section Starts

/-- The greatest offset of a partition. -/
def startOf (relation : Relation) (partition offset : String) (p : Int) : Value :=
  largest ((relation.rows.filter fun row => row partition = some p).map (· offset))

variable {relation : Relation} {partition offset : String} {p o : Int}

theorem startOf_eq_some {f : Int} :
    startOf relation partition offset p = some f ↔
      (∃ row ∈ relation.rows, row partition = some p ∧ row offset = some f) ∧
        ∀ row ∈ relation.rows, row partition = some p → ∀ x, row offset = some x → x ≤ f := by
  simp only [startOf, largest_eq_some, mem_map, mem_filter, decide_eq_true_eq]
  constructor
  · rintro ⟨⟨row, ⟨hrow, hpartition⟩, hoffset⟩, hmax⟩
    exact ⟨⟨row, hrow, hpartition, hoffset⟩,
      fun row hrow hpartition x hx => hmax x ⟨row, ⟨hrow, hpartition⟩, hx⟩⟩
  · rintro ⟨⟨row, hrow, hpartition, hoffset⟩, hmax⟩
    refine ⟨⟨row, ⟨hrow, hpartition⟩, hoffset⟩, ?_⟩
    rintro x ⟨row, ⟨hrow, hpartition⟩, hx⟩
    exact hmax row hrow hpartition x hx

theorem start_of_mem {start : Row} (hstart : start ∈ (startOffsets relation partition offset).rows)
    (hp : start "_replay_partition" = some p) :
    (∃ row ∈ relation.rows, row partition = some p) ∧
      start "start_offset" = startOf relation partition offset p := by
  simp only [startOffsets, mem_map, Prod.exists, mem_groupedMax] at hstart
  obtain ⟨k, m, ⟨hrow, rfl⟩, rfl⟩ := hstart
  obtain rfl : k = some p := hp
  exact ⟨hrow, rfl⟩

theorem exists_mem_startOffsets (offset : String)
    (h : ∃ row ∈ relation.rows, row partition = some p) :
    ∃ start ∈ (startOffsets relation partition offset).rows,
      start "_replay_partition" = some p := by
  simp only [startOffsets, mem_map, Prod.exists, mem_groupedMax]
  exact ⟨_, ⟨some p, _, ⟨h, rfl⟩, rfl⟩, rfl⟩

end Starts

section Selects

variable {engine : ClickHouse} {request : AdapterDeploymentReplayRequest} {warehouse : Warehouse}
  {p o : Int} {scope : Scope}

theorem atOrBelowCutoff_offsets (hmode : request.replay.mode = .offsets) :
    AtOrBelowCutoff engine request warehouse (some p, some o) ↔
      ∃ watermark ∈ capturedWatermarks request warehouse,
        watermark.partition engine = some p ∧ o ≤ engine.toInt64 watermark.cutoffValue := by
  simp [AtOrBelowCutoff, hmode]

theorem offsetUpperBoundClause_inclusive {anchor cutoff : Row} {offset : String}
    (h : cutoff "cutoff_inclusive" = some 1) :
    offsetUpperBoundClause offset anchor cutoff = some true ↔
      atMost (anchor offset) (cutoff "cutoff_offset") = some true := by
  simp [offsetUpperBoundClause, h, asTruth, negated]

/-- The rows of the cutoffs that let a position pass are those of its partition, at or below
a captured cutoff. -/
theorem exists_cutoff {anchor : Row} {offset : String} (hmode : request.replay.mode = .offsets)
    (hoffset : anchor offset = some o) :
    (∃ cutoff ∈ ((deploymentOffsetCutoffCte engine request).meaning warehouse scope).rows,
        cutoff "_replay_partition" = some p ∧
          offsetUpperBoundClause offset anchor cutoff = some true) ↔
      AtOrBelowCutoff engine request warehouse (some p, some o) := by
  rw [atOrBelowCutoff_offsets hmode]
  simp only [deploymentOffsetCutoffCte, Fragment.stored, mem_map, Prod.exists, mem_groupedMax]
  constructor
  · rintro ⟨cutoff, ⟨k, m, ⟨-, rfl⟩, rfl⟩, hk, hcap⟩
    obtain rfl : k = some p := hk
    rw [offsetUpperBoundClause_inclusive rfl, hoffset, atMost_eq_true] at hcap
    obtain ⟨o, m, ho, hm, hle⟩ := hcap
    cases ho
    obtain ⟨hmem, -⟩ := largest_eq_some.mp hm
    simp only [mem_map, mem_filter, decide_eq_true_eq] at hmem
    obtain ⟨watermark, ⟨hwatermark, hpartition⟩, hvalue⟩ := hmem
    exact ⟨watermark, hwatermark, hpartition, by rwa [Option.some.inj hvalue]⟩
  · rintro ⟨watermark, hwatermark, hpartition, hle⟩
    refine ⟨_, ⟨some p, _, ⟨⟨watermark, hwatermark, hpartition⟩, rfl⟩, rfl⟩, rfl, ?_⟩
    rw [offsetUpperBoundClause_inclusive rfl, hoffset, atMost_eq_true]
    have hmem : some (engine.toInt64 watermark.cutoffValue) ∈
        ((capturedWatermarks request warehouse).filter
          fun item => item.partition engine = some p).map
            fun item => some (engine.toInt64 item.cutoffValue) :=
      mem_map.mpr ⟨watermark, by simp [hwatermark, hpartition], rfl⟩
    obtain ⟨m, hm, hle'⟩ := exists_largest hmem
    exact ⟨o, m, rfl, hm, hle.trans hle'⟩

variable {relation : Relation} {partition offset : String}
  {lowerCte : Fragment Warehouse Relation} {seed replay : InsertStatement}

theorem offsetSeedQuery_closed
    (hlower : lowerCte.EvaluatesTo warehouse (startOffsets relation partition offset)) :
    (offsetSeedQuery request lowerCte).closed = true := by
  simp [offsetSeedQuery, Query.closed, Query.closedOver, hlower.reads, Fragment.map₂,
    Fragment.stored, Fragment.named]

/-- The seed copies the active positions below the start of their partition. -/
theorem offsetSeed_selects (hmode : request.replay.mode = .offsets)
    (hinclusive : request.replay.window.lowerBoundInclusive = true)
    (hseed : seed.query = offsetSeedQuery request lowerCte)
    (hlower : lowerCte.EvaluatesTo warehouse (startOffsets relation partition offset)) :
    SeedSelects request warehouse seed (some p, some o) ↔
      (some p, some o) ∈ activePositions request warehouse ∧
        ∃ f, startOf relation partition offset p = some f ∧ o < f := by
  simp only [SeedSelects, hseed, Query.run, offsetSeedQuery_closed hlower, if_true,
    Option.some.injEq, exists_eq_left', activePositions, mem_map, activePosition, hmode,
    Prod.mk.injEq]
  simp only [offsetSeedQuery, Fragment.map₂, Fragment.stored, Fragment.named, Query.scope,
    foldl_cons, foldl_nil, Function.update_self, hlower.meaning, mem_map, mem_holding, seedClause,
    hinclusive, if_true, below_eq_true, Prod.exists, mem_innerJoin, equal_eq_true]
  constructor
  · rintro ⟨row, ⟨row, start, ⟨⟨hrow, hstart, q, hq, hq'⟩, x, f, hx, hf, hlt⟩, rfl⟩, hp, ho⟩
    obtain rfl : q = p := Option.some.inj (hq.symm.trans hp)
    obtain rfl : x = o := Option.some.inj (hx.symm.trans ho)
    obtain ⟨-, hvalue⟩ := start_of_mem hstart hq'
    exact ⟨⟨row, hrow, hp, ho⟩, f, hvalue.symm.trans hf, hlt⟩
  · rintro ⟨⟨row, hrow, hp, ho⟩, f, hf, hlt⟩
    obtain ⟨⟨first, hfirst, hfirst', -⟩, -⟩ := startOf_eq_some.mp hf
    obtain ⟨start, hstart, hq⟩ := exists_mem_startOffsets offset ⟨first, hfirst, hfirst'⟩
    obtain ⟨-, hvalue⟩ := start_of_mem hstart hq
    exact ⟨row, ⟨row, start, ⟨⟨hrow, hstart, p, hp, hq⟩, o, f, ho, hvalue.trans hf, hlt⟩, rfl⟩,
      hp, ho⟩

/-- The positions that the lower bound lets pass: those from the start of their partition
on. A partition that has none is compared with the default of the offset's type. -/
def FromStart (relation : Relation) (partition offset : String) (p o : Int) : Prop :=
  (∀ f, startOf relation partition offset p = some f → f ≤ o) ∧
    ((∀ row ∈ relation.rows, row partition ≠ some p) →
      relation.nullable offset = true ∨ 0 ≤ o)

theorem offsetLowerBoundClause_eq_true {anchor start : Row} {column : String}
    (hoffset : anchor column = some o) :
    offsetLowerBoundClause column true anchor start = some true ↔
      ∀ f, start "start_offset" = some f → f ≤ o := by
  cases hstart : start "start_offset" <;> simp [offsetLowerBoundClause, hstart, hoffset]

/-- Among the start rows that a left join pairs with a row of partition `p`, one lets the
offset pass exactly when the offset is from the start on. -/
theorem exists_start {anchor : Row} {column : String} (hoffset : anchor column = some o) :
    (∃ start : Row,
      (start ∈ (startOffsets relation partition offset).rows ∧
          start "_replay_partition" = some p ∨
        start = (startOffsets relation partition offset).defaultRow ∧
          ∀ start' ∈ (startOffsets relation partition offset).rows,
            start' "_replay_partition" ≠ some p) ∧
      offsetLowerBoundClause column true anchor start = some true) ↔
      FromStart relation partition offset p o := by
  simp only [offsetLowerBoundClause_eq_true hoffset]
  constructor
  · rintro ⟨start, ⟨hstart, hp⟩ | ⟨rfl, hnone⟩, hfrom⟩
    · obtain ⟨⟨row, hrow, hp'⟩, hvalue⟩ := start_of_mem hstart hp
      rw [hvalue] at hfrom
      exact ⟨hfrom, fun habsent => absurd hp' (habsent row hrow)⟩
    · have habsent : ∀ row ∈ relation.rows, row partition ≠ some p := by
        intro row hrow hp
        obtain ⟨start, hstart, hq⟩ := exists_mem_startOffsets offset ⟨row, hrow, hp⟩
        exact hnone start hstart hq
      refine ⟨?_, fun _ => ?_⟩
      · intro f hf
        obtain ⟨⟨row, hrow, hp, -⟩, -⟩ := startOf_eq_some.mp hf
        exact absurd hp (habsent row hrow)
      · cases hnullable : relation.nullable offset with
        | true => exact .inl rfl
        | false =>
          refine .inr (hfrom 0 ?_)
          simp [Relation.defaultRow, startOffsets, typeDefault, hnullable]
  · rintro ⟨hfrom, habsent⟩
    by_cases hpartition : ∃ row ∈ relation.rows, row partition = some p
    · obtain ⟨start, hstart, hp⟩ := exists_mem_startOffsets offset hpartition
      refine ⟨start, .inl ⟨hstart, hp⟩, ?_⟩
      rwa [(start_of_mem hstart hp).2]
    · simp only [not_exists, not_and] at hpartition
      refine ⟨_, .inr ⟨rfl, ?_⟩, ?_⟩
      · intro start hstart hp
        obtain ⟨⟨row, hrow, hp'⟩, -⟩ := start_of_mem hstart hp
        exact hpartition row hrow hp'
      · intro f hf
        rcases habsent hpartition with hnullable | hnonneg
        · simp [Relation.defaultRow, startOffsets, typeDefault, hnullable] at hf
        · simp [Relation.defaultRow, startOffsets, typeDefault] at hf
          omega

theorem offsetSourceRows_position {replay : AdapterReplayRequest} {anchor cutoff : Relation}
    (hinclusive : replay.window.lowerBoundInclusive = true) :
    (∃ row ∈ offsetSourceRows replay anchor cutoff (some (startOffsets relation partition offset)),
        row replay.columns.partition = some p ∧ row replay.columns.offset = some o) ↔
      ∃ row ∈ anchor.rows, (row replay.columns.partition = some p ∧
        row replay.columns.offset = some o) ∧
        (∃ c ∈ cutoff.rows, c "_replay_partition" = some p ∧
          offsetUpperBoundClause replay.columns.offset row c = some true) ∧
        FromStart relation partition offset p o := by
  simp only [offsetSourceRows, mem_map, mem_holding, Prod.exists, mem_leftJoin,
    mem_innerJoin, both_eq_true, hinclusive]
  constructor
  · rintro ⟨_, ⟨row, c, start, ⟨⟨hc, hstart⟩, hupper, hlower⟩, rfl⟩, hp, ho⟩
    simp only [hp, equal_eq_true, Option.some.injEq, exists_eq_left', ne_eq] at hc hstart
    exact ⟨row, hc.1, ⟨hp, ho⟩, ⟨c, hc.2.1, hc.2.2, hupper⟩,
      (exists_start ho).mp ⟨start, hstart, hlower⟩⟩
  · rintro ⟨row, hrow, ⟨hp, ho⟩, ⟨c, hc, hcp, hupper⟩, hfrom⟩
    obtain ⟨start, hstart, hlower⟩ := (exists_start ho).mpr hfrom
    refine ⟨row, ⟨row, c, start, ⟨⟨⟨hrow, hc, ?_⟩, ?_⟩, hupper, hlower⟩, rfl⟩, hp, ho⟩
    · simp [hp, hcp]
    · simpa [hp] using hstart

theorem offsetReplay_closed
    (hlower : lowerCte.EvaluatesTo warehouse (startOffsets relation partition offset)) :
    (rewrittenQuery request.replay.replayQuery (.named "filtered_replay_source") everyRow
      (offsetNamedQueries engine request (some lowerCte))).closed = true := by
  simp [rewrittenQuery, offsetNamedQueries, Query.closed, Query.closedOver, hlower.reads,
    Fragment.map₂, Fragment.stored, Fragment.named, everyRow, deploymentOffsetCutoffCte,
    deploymentOffsetSourceSql, Fragment.map]

theorem offsetReplay_run
    (hlower : lowerCte.EvaluatesTo warehouse (startOffsets relation partition offset)) :
    (rewrittenQuery request.replay.replayQuery (.named "filtered_replay_source") everyRow
        (offsetNamedQueries engine request (some lowerCte))).run warehouse =
      some ((offsetSourceRows request.replay (anchorRelation request.replay warehouse)
          ((deploymentOffsetCutoffCte engine request).meaning warehouse Scope.empty)
          (some (startOffsets relation partition offset))).map
        (project request.anchorColumnNames)) := by
  rw [Query.run, if_pos (offsetReplay_closed hlower)]
  simp [rewrittenQuery, Query.scope, offsetNamedQueries, deploymentOffsetSourceSql, everyRow,
    Fragment.map₂, Fragment.map, Fragment.stored, Fragment.named, Function.update, hlower.meaning]

/-- The replay reads the anchor positions at or below the cutoff, from the start of their
partition on. -/
theorem offsetReplay_selects (hmode : request.replay.mode = .offsets)
    (hinclusive : request.replay.window.lowerBoundInclusive = true)
    (hreplay : replay.query = rewrittenQuery request.replay.replayQuery
      (.named "filtered_replay_source") everyRow
      (offsetNamedQueries engine request (some lowerCte)))
    (hlower : lowerCte.EvaluatesTo warehouse (startOffsets relation partition offset)) :
    ReplaySelects request warehouse replay (some p, some o) ↔
      (some p, some o) ∈ anchorPositions request warehouse ∧
        AtOrBelowCutoff engine request warehouse (some p, some o) ∧
        FromStart relation partition offset p o := by
  simp only [ReplaySelects, hreplay, offsetReplay_run hlower, Option.some.injEq, exists_eq_left',
    anchorPositions, mem_map, anchorPosition, hmode, if_true, Prod.mk.injEq,
    exists_exists_and_eq_and, project, request.partition_listed hmode, request.offset_listed hmode]
  rw [offsetSourceRows_position hinclusive]
  constructor
  · rintro ⟨row, hrow, ⟨hp, ho⟩, hcutoff, hfrom⟩
    exact ⟨⟨row, hrow, hp, ho⟩, (exists_cutoff hmode ho).mp hcutoff, hfrom⟩
  · rintro ⟨⟨row, hrow, hp, ho⟩, hcutoff, hfrom⟩
    exact ⟨row, hrow, ⟨hp, ho⟩, (exists_cutoff hmode ho).mpr hcutoff, hfrom⟩

section Scalar

variable {columnType : String} {lower : Fragment Warehouse Value} {value : Value} {v : Int}

theorem scalarSeed_closed (hlower : lower.EvaluatesTo warehouse value) :
    (scalarSeedQuery request lower).closed = true := by
  simp [scalarSeedQuery, Query.closed, Query.closedOver, hlower.reads, Fragment.map₂,
    Fragment.stored]

/-- The seed copies the active positions below the lower bound, none when it is NULL. -/
theorem scalarSeed_selects (hmode : request.replay.mode ≠ .offsets)
    (hinclusive : request.replay.window.lowerBoundInclusive = true)
    (hseed : seed.query = scalarSeedQuery request lower)
    (hlower : lower.EvaluatesTo warehouse value) :
    SeedSelects request warehouse seed (none, some v) ↔
      (none, some v) ∈ activePositions request warehouse ∧ ∃ l, value = some l ∧ v < l := by
  simp only [SeedSelects, hseed, Query.run, scalarSeed_closed hlower, if_true,
    Option.some.injEq, exists_eq_left', activePositions, mem_map, activePosition, hmode,
    if_false, Prod.mk.injEq, true_and]
  simp only [scalarSeedQuery, Fragment.map₂, Fragment.stored, hlower.meaning, mem_holding,
    seedClause, hinclusive, if_true, below_eq_true]
  constructor
  · rintro ⟨row, ⟨hrow, x, l, hx, hl, hlt⟩, hv⟩
    obtain rfl : x = v := Option.some.inj (hx.symm.trans hv)
    exact ⟨⟨row, hrow, hv⟩, l, hl, hlt⟩
  · rintro ⟨⟨row, hrow, hv⟩, l, hl, hlt⟩
    exact ⟨row, ⟨hrow, v, l, hv, hl, hlt⟩, hv⟩

/-- The cutoff that a scalar replay reads. -/
def scalarCutoff (engine : ClickHouse) (request : AdapterDeploymentReplayRequest)
    (columnType : String) (warehouse : Warehouse) : Value :=
  maximum (engine.nullableType columnType)
    ((capturedWatermarks request warehouse).map fun watermark =>
      some (engine.castText columnType watermark.cutoffValue))

theorem scalarReplay_closed (hlower : lower.EvaluatesTo warehouse value) :
    (rewrittenQuery request.replay.replayQuery (scalarSource request.replay (some lower))
      (scalarWhere request.replay (some lower))
      [("replay_cutoff", deploymentScalarCutoffCte engine request columnType)]).closed = true := by
  cases hfilter : filtersAtSource request.replay <;>
    simp [rewrittenQuery, Query.closed, Query.closedOver, scalarSource, scalarWhere, hfilter,
      everyRow, scalarPredicate, scalarBounds, upperExpression, deploymentScalarCutoffCte,
      hlower.reads, Fragment.map₂, Fragment.map, Fragment.stored, Fragment.named]

/-- Wherever its bounds stand, the replay reads the anchor rows whose position is in them. -/
theorem scalarReplay_run (hmode : request.replay.mode ≠ .offsets)
    (hlower : lower.EvaluatesTo warehouse value) :
    (rewrittenQuery request.replay.replayQuery (scalarSource request.replay (some lower))
        (scalarWhere request.replay (some lower))
        [("replay_cutoff", deploymentScalarCutoffCte engine request columnType)]).run warehouse =
      some (holding (anchorRelation request.replay warehouse).rows fun row =>
        dynamicScalarPredicate (anchorPosition request.replay row).2
          (scalarCutoff engine request columnType warehouse) (some value)
          request.replay.window.lowerBoundInclusive) := by
  rw [Query.run, if_pos (scalarReplay_closed hlower)]
  cases hfilter : filtersAtSource request.replay <;>
    simp [rewrittenQuery, Query.scope, scalarSource, scalarWhere, hfilter, everyRow,
      scalarPredicate, scalarBounds, upperExpression, deploymentScalarCutoffCte, scalarSubquery,
      rowOf, scalarCutoff, anchorPosition, hmode, hlower.meaning, Fragment.map₂, Fragment.map,
      Fragment.stored, Fragment.named]

theorem atOrBelow_scalarCutoff (hmode : request.replay.mode ≠ .offsets)
    (htype : request.boundaryColumnType = some columnType)
    (h : AtOrBelowCutoff engine request warehouse (none, some v)) :
    atMost (some v) (scalarCutoff engine request columnType warehouse) = some true := by
  simp only [AtOrBelowCutoff, hmode, if_false, htype, Option.some.injEq, exists_eq_left'] at h
  obtain ⟨watermark, hwatermark, hle⟩ := h
  have hmem : some (engine.castText columnType watermark.cutoffValue) ∈
      (capturedWatermarks request warehouse).map fun watermark =>
        some (engine.castText columnType watermark.cutoffValue) :=
    mem_map_of_mem hwatermark
  obtain ⟨m, hm, hle'⟩ := exists_largest hmem
  rw [scalarCutoff, maximum_of_mem hmem, atMost_eq_true]
  exact ⟨v, m, rfl, hm, hle.trans hle'⟩

/-- Of the positions at or below the cutoff, the replay reads the anchor's from the lower
bound on, none when it is NULL. -/
theorem scalarReplay_selects (hmode : request.replay.mode ≠ .offsets)
    (hinclusive : request.replay.window.lowerBoundInclusive = true)
    (htype : request.boundaryColumnType = some columnType)
    (hreplay : replay.query = rewrittenQuery request.replay.replayQuery
      (scalarSource request.replay (some lower)) (scalarWhere request.replay (some lower))
      [("replay_cutoff", deploymentScalarCutoffCte engine request columnType)])
    (hlower : lower.EvaluatesTo warehouse value)
    (hcutoff : AtOrBelowCutoff engine request warehouse (none, some v)) :
    ReplaySelects request warehouse replay (none, some v) ↔
      (none, some v) ∈ anchorPositions request warehouse ∧ ∃ l, value = some l ∧ l ≤ v := by
  have hupper := atOrBelow_scalarCutoff hmode htype hcutoff
  simp only [ReplaySelects, hreplay, scalarReplay_run hmode hlower, Option.some.injEq,
    exists_eq_left', anchorPositions, mem_map, mem_holding, dynamicScalarPredicate,
    scalarLowerPredicate, hinclusive, if_true, both_eq_true]
  constructor
  · rintro ⟨row, ⟨hrow, hbound, -⟩, hv⟩
    rw [hv, atMost_eq_true] at hbound
    obtain ⟨l, x, hl, hx, hle⟩ := hbound
    cases hx
    exact ⟨⟨row, hrow, hv⟩, l, hl, hle⟩
  · rintro ⟨⟨row, hrow, hv⟩, l, hl, hle⟩
    refine ⟨row, ⟨hrow, ?_, ?_⟩, hv⟩
    · rw [hv, atMost_eq_true]
      exact ⟨l, v, hl, rfl, hle⟩
    · rwa [hv]

end Scalar

end Selects

end SqlTide.Replay
