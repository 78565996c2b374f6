import SqlTide.Replay.ReplayWorkflow

/-!
# Replays without a lower bound

A full replay reads the anchor up to the captured cutoff and no seed runs before it. Here
its selection is one filter of the anchor's rows, with the cutoff computed from the rows
that the anchor held when the watermark was captured.
-/

namespace SqlTide.Replay

open Foundations Sql Fragment

/-- No seed and no lower bound. -/
structure FullReplay (request : AdapterDeploymentReplayRequest) : Prop where
  seedMode : request.replay.seedMode = .none
  lowerBoundMode : request.replay.window.lowerBoundMode = .none

/-- A root of a full rebuild, without a start time and without a lookback, is replayed in full. -/
theorem BuiltFor.fullReplay {root : PopulationRoot} {request : AdapterDeploymentReplayRequest}
    (h : BuiltFor root request.replay) (hmode : root.executionMode = .fullRebuild)
    (hstart : root.forcedStartTime = none) (hlookback : root.executionLookbackSeconds = none) :
    FullReplay request where
  seedMode := by simp [h.seedMode, hmode]
  lowerBoundMode := by simp [h.window, lowerBoundMode, hmode, hstart, hlookback]

section Rendered

variable {engine : ClickHouse} {request : AdapterDeploymentReplayRequest}
  {rendered : List InsertStatement}

theorem FullReplay.rendered_eq (hfull : FullReplay request)
    (h : renderClickhouseReplayFromDeployment engine request = .ok rendered) :
    ∃ replay, rendered = [replay] ∧ renderDeploymentReplay engine request = .ok replay := by
  obtain ⟨seed, hseed, hrest⟩ := bind_eq_ok.mp h
  obtain ⟨replay, hreplay, hlist⟩ := bind_eq_ok.mp hrest
  have hnone : renderDeploymentSeed engine request = .ok none := by
    simp [renderDeploymentSeed, hfull.seedMode]
  rw [hnone] at hseed
  cases hseed
  exact ⟨replay, (Except.ok.inj hlist).symm, hreplay⟩

theorem FullReplay.query_offsets (hfull : FullReplay request)
    (hmode : request.replay.mode = .offsets) {replay : InsertStatement}
    (h : renderDeploymentReplay engine request = .ok replay) :
    replay.query = rewrittenQuery request.replay.replayQuery (.named "filtered_replay_source")
      everyRow (offsetNamedQueries engine request none) := by
  rw [renderDeploymentReplay, if_pos hmode] at h
  obtain ⟨lowerCte, hlower, hrest⟩ := bind_eq_ok.mp h
  obtain ⟨query, hquery, hinsert⟩ := bind_eq_ok.mp hrest
  cases hinsert
  obtain ⟨lookback, hlookback, hcte⟩ := bind_eq_ok.mp hlower
  rw [replayOffsetLowerCte, hfull.lowerBoundMode] at hcte
  cases hcte
  exact rewriteReplayQuery_ok hquery

theorem FullReplay.query_scalar (hfull : FullReplay request)
    (hmode : request.replay.mode ≠ .offsets) {replay : InsertStatement}
    (h : renderDeploymentReplay engine request = .ok replay) :
    ∃ columnType, request.boundaryColumnType = some columnType ∧
      replay.query = rewrittenQuery request.replay.replayQuery
        (scalarSource request.replay none) (scalarWhere request.replay none)
        [("replay_cutoff", deploymentScalarCutoffCte engine request columnType)] := by
  rw [renderDeploymentReplay, if_neg hmode] at h
  obtain ⟨columnType, htype, hrest⟩ := bind_eq_ok.mp h
  obtain ⟨lower, hlower, hrest⟩ := bind_eq_ok.mp hrest
  obtain ⟨query, hquery, hinsert⟩ := bind_eq_ok.mp hrest
  cases hinsert
  obtain ⟨lookback, hlookback, hexpression⟩ := bind_eq_ok.mp hlower
  rw [replayScalarLowerExpression, hfull.lowerBoundMode] at hexpression
  cases hexpression
  refine ⟨columnType, ?_, rewriteReplayQuery_ok hquery⟩
  cases hboundary : request.boundaryColumnType with
  | none => simp [requiredDeploymentBoundaryType, hboundary] at htype
  | some columnType' =>
    rw [requiredDeploymentBoundaryType, hboundary] at htype
    exact congrArg some (Except.ok.inj htype)

end Rendered

section Rows

variable {engine : ClickHouse} {request : AdapterDeploymentReplayRequest} {warehouse : Warehouse}

theorem cutoffs_unique (scope : Scope) (row : Row) (partition : String) :
    ((deploymentOffsetCutoffCte engine request).meaning warehouse scope).rows.Pairwise
      fun cutoff cutoff' =>
        ¬ (equal (row partition) (cutoff "_replay_partition") = some true ∧
          equal (row partition) ( cutoff' "_replay_partition") = some true) := by
  simp only [deploymentOffsetCutoffCte, stored, groupedMax, List.map_map,
    List.pairwise_map, Function.comp_apply]
  refine (List.nodup_dedup _).imp ?_
  rintro k k' hne ⟨h, h'⟩
  obtain ⟨x, hx, hk⟩ := equal_eq_true.mp h
  obtain ⟨x', hx', hk'⟩ := equal_eq_true.mp h'
  apply hne
  calc k = some x := hk
    _ = some x' := hx.symm.trans hx'
    _ = k' := hk'.symm

/-- The anchor rows at or below the cutoff of their partition, each as often as it is there. -/
theorem offsetSourceRows_full (hmode : request.replay.mode = .offsets) (scope : Scope)
    (anchor : Relation) [DecidablePred (AtOrBelowCutoff engine request warehouse)] :
    offsetSourceRows request.replay anchor
        ((deploymentOffsetCutoffCte engine request).meaning warehouse scope) none =
      anchor.rows.filter fun row =>
        AtOrBelowCutoff engine request warehouse (anchorPosition request.replay row) := by
  rw [offsetSourceRows, map_fst_holding_innerJoin fun row => cutoffs_unique scope row _]
  refine List.filter_congr fun row _ => ?_
  rw [Bool.eq_iff_iff, decide_eq_true_iff, List.any_eq_true]
  simp only [Bool.and_eq_true, decide_eq_true_eq, anchorPosition, hmode, if_true, equal_eq_true]
  constructor
  · rintro ⟨cutoff, hcutoff, ⟨p, hp, hpartition⟩, hupper⟩
    cases hoffset : row request.replay.columns.offset with
    | none =>
      simp only [deploymentOffsetCutoffCte, stored, List.mem_map] at hcutoff
      obtain ⟨group, -, rfl⟩ := hcutoff
      rw [offsetUpperBoundClause_inclusive rfl, hoffset, atMost_eq_true] at hupper
      obtain ⟨x, y, hx, -⟩ := hupper
      cases hx
    | some o =>
      rw [hp]
      exact (exists_cutoff hmode hoffset).mp ⟨cutoff, hcutoff, hpartition, hupper⟩
  · intro h
    obtain ⟨watermark, -, o, hoffset, hbelow⟩ := id h
    rw [if_pos hmode] at hbelow
    obtain ⟨⟨p, hp, -⟩, -⟩ := hbelow
    simp only at hp hoffset
    rw [hp, hoffset] at h
    exact ((exists_cutoff hmode hoffset).mpr h).imp
      fun cutoff hcutoff => ⟨hcutoff.1, ⟨p, hp, hcutoff.2.1⟩, hcutoff.2.2⟩

theorem offsetReplay_full :
    (rewrittenQuery request.replay.replayQuery (.named "filtered_replay_source") everyRow
        (offsetNamedQueries engine request none)).run warehouse =
      some ((offsetSourceRows request.replay (anchorRelation request.replay warehouse)
          ((deploymentOffsetCutoffCte engine request).meaning warehouse Scope.empty) none).map
        (project request.anchorColumnNames)) := by
  have hclosed : (rewrittenQuery request.replay.replayQuery (.named "filtered_replay_source")
      everyRow (offsetNamedQueries engine request none)).closed = true := by
    simp [rewrittenQuery, offsetNamedQueries, Query.closed, Query.closedOver, map₂, stored, named,
      everyRow, deploymentOffsetCutoffCte, deploymentOffsetSourceSql]
  rw [Query.run, if_pos hclosed]
  simp [rewrittenQuery, Query.scope, offsetNamedQueries, deploymentOffsetSourceSql, everyRow,
    map₂, stored, named, Function.update]

theorem scalarReplay_full (hmode : request.replay.mode ≠ .offsets) (columnType : String) :
    (rewrittenQuery request.replay.replayQuery (scalarSource request.replay none)
        (scalarWhere request.replay none)
        [("replay_cutoff", deploymentScalarCutoffCte engine request columnType)]).run warehouse =
      some (holding (anchorRelation request.replay warehouse).rows fun row =>
        atMost (anchorPosition request.replay row).2
          (scalarCutoff engine request columnType warehouse)) := by
  have hclosed : (rewrittenQuery request.replay.replayQuery (scalarSource request.replay none)
      (scalarWhere request.replay none)
      [("replay_cutoff", deploymentScalarCutoffCte engine request columnType)]).closed = true := by
    cases hfilter : filtersAtSource request.replay <;>
      simp [rewrittenQuery, Query.closed, Query.closedOver, scalarSource, scalarWhere, hfilter,
        everyRow, scalarPredicate, scalarBounds, upperExpression, deploymentScalarCutoffCte,
        map₂, map, stored, named]
  rw [Query.run, if_pos hclosed]
  cases hfilter : filtersAtSource request.replay <;>
    simp [rewrittenQuery, Query.scope, scalarSource, scalarWhere, hfilter, everyRow,
      scalarPredicate, scalarBounds, upperExpression, deploymentScalarCutoffCte, scalarSubquery,
      dynamicScalarPredicate, rowOf, scalarCutoff, anchorPosition, hmode, map₂, map, stored, named]

end Rows

end SqlTide.Replay
