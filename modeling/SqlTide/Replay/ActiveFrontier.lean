import SqlTide.Replay.SeedSplit
import SqlTide.Replay.ReplayWorkflow

/-!
# Seed and replay at the active frontier

Without a start time the split is at the greatest position of the active relation. The
frontier is no captured value: the seed and the replay each look it up when they run, and
the active relation may have grown in between.
-/

namespace SqlTide.Replay

open Foundations List Runs Sql

/-- Some listed position of the same partition is later. -/
def Overtaken (positions : List Position) (position : Position) : Prop :=
  ∃ later ∈ positions, later.1 = position.1 ∧ below position.2 later.2 = some true

instance (positions : List Position) (position : Position) :
    Decidable (Overtaken positions position) :=
  inferInstanceAs (Decidable (∃ later ∈ positions, _ ∧ _))

section Frontier

variable (request : AdapterDeploymentReplayRequest) (warehouse : Warehouse)

/-- What the replay's lower bound needs of a position of which the active relation holds no
partition, or no boundary at all: the type's default stands in for the frontier. -/
def PassesDefault (position : Position) : Prop :=
  if request.replay.mode = .offsets then
    (∀ other ∈ activePositions request warehouse, other.1 ≠ position.1) →
      (activeRelation request warehouse).nullable "_replay_offset" = true ∨
        ∀ value, position.2 = some value → 0 ≤ value
  else
    (∀ other ∈ activePositions request warehouse, other.2 = none) →
      (activeRelation request warehouse).nullable
          (canonicalBoundaryColumn request.replay.mode) = false ∧
        ∀ value, position.2 = some value → 0 ≤ value

instance (position : Position) : Decidable (PassesDefault request warehouse position) :=
  inferInstanceAs (Decidable (ite _ _ _))

/-- A position in the form that the boundary mode gives it. -/
def WellFormed (position : Position) : Prop :=
  if request.replay.mode = .offsets then ∃ p o, position = (some p, some o)
  else ∃ v, position = (none, some v)

variable {engine : ClickHouse} {request} {seed replay : InsertStatement}

theorem evaluatesTo_offsetFrontier
    (hfrontier : request.replay.window.lowerBoundMode = .activeFrontier)
    {lowerCte : Fragment Warehouse Relation}
    (h : deploymentOffsetLowerCte engine request = .ok (some lowerCte)) :
    lowerCte.EvaluatesTo warehouse
      (startOffsets (activeRelation request warehouse) "_replay_partition" "_replay_offset") := by
  obtain ⟨lookback, -, hcte⟩ := bind_eq_ok.mp h
  rw [replayOffsetLowerCte, hfrontier] at hcte
  obtain rfl := Option.some.inj (Except.ok.inj hcte)
  exact Fragment.evaluatesTo_stored _ warehouse

theorem evaluatesTo_scalarFrontier
    (hfrontier : request.replay.window.lowerBoundMode = .activeFrontier)
    {columnType : String} {lower : Fragment Warehouse Value}
    (h : deploymentScalarLowerExpression engine request columnType = .ok (some lower)) :
    lower.EvaluatesTo warehouse
      (maximum ((activeRelation request warehouse).nullable
          (canonicalBoundaryColumn request.replay.mode))
        ((activeRelation request warehouse).rows.map
          (· (canonicalBoundaryColumn request.replay.mode)))) := by
  obtain ⟨lookback, -, hexpression⟩ := bind_eq_ok.mp h
  rw [replayScalarLowerExpression, hfrontier] at hexpression
  obtain rfl := Option.some.inj (Except.ok.inj hexpression)
  exact Fragment.evaluatesTo_stored _ warehouse

variable {p o : Int} {nullable : Bool} {position : Position}

/-- An offset below the greatest of its partition is one that was overtaken. -/
theorem exists_startOf_iff {relation : Relation} {partition offset : String} :
    (∃ f, startOf relation partition offset p = some f ∧ o < f) ↔
      Overtaken (relation.rows.map fun row => (row partition, row offset)) (some p, some o) := by
  simp only [Overtaken, mem_map, exists_exists_and_eq_and, below_eq_true, Option.some.injEq]
  constructor
  · rintro ⟨f, hf, hlt⟩
    obtain ⟨⟨row, hrow, hp, hoffset⟩, -⟩ := startOf_eq_some.mp hf
    exact ⟨row, hrow, hp, o, f, rfl, hoffset, hlt⟩
  · rintro ⟨row, hrow, hp, x, y, rfl, hoffset, hlt⟩
    have hmem : some y ∈ (relation.rows.filter fun row => row partition = some p).map (· offset) :=
      mem_map.mpr ⟨row, by simp [hrow, hp], hoffset⟩
    obtain ⟨f, hf, hle⟩ := exists_largest hmem
    exact ⟨f, hf, hlt.trans_le hle⟩

theorem activePositions_offsets (hmode : request.replay.mode = .offsets) :
    activePositions request warehouse = (activeRelation request warehouse).rows.map
      fun row => (row "_replay_partition", row "_replay_offset") := by
  simp [activePositions, activePosition, hmode]

theorem activePositions_scalar (hmode : request.replay.mode ≠ .offsets) :
    activePositions request warehouse = (activeRelation request warehouse).rows.map
      fun row => (none, row (canonicalBoundaryColumn request.replay.mode)) := by
  simp [activePositions, activePosition, hmode]

theorem fromStart_iff (hmode : request.replay.mode = .offsets) :
    FromStart (activeRelation request warehouse) "_replay_partition" "_replay_offset" p o ↔
      ¬ Overtaken (activePositions request warehouse) (some p, some o) ∧
        PassesDefault request warehouse (some p, some o) := by
  rw [activePositions_offsets warehouse hmode, ← exists_startOf_iff]
  simp only [FromStart, PassesDefault, hmode, if_true, activePositions_offsets warehouse hmode,
    forall_mem_map, Option.some.injEq, forall_eq', not_exists, not_and, not_lt]

variable {values : List Value} {v : Int}

theorem overtaken_scalar :
    Overtaken (values.map fun value => (none, value)) (none, some v) ↔
      ∃ l, some l ∈ values ∧ v < l := by
  simp [Overtaken]

/-- A value that has been seen is below the maximum when it was overtaken. -/
theorem below_maximum_iff (hv : some v ∈ values) :
    (∃ l, maximum nullable values = some l ∧ v < l) ↔
      Overtaken (values.map fun value => (none, value)) (none, some v) := by
  rw [maximum_of_mem hv, overtaken_scalar]
  constructor
  · rintro ⟨l, hl, hlt⟩
    exact ⟨l, (largest_eq_some.mp hl).1, hlt⟩
  · rintro ⟨l, hl, hlt⟩
    obtain ⟨m, hm, hle⟩ := exists_largest hl
    exact ⟨m, hm, hlt.trans_le hle⟩

/-- A value is from the maximum on when it was not overtaken; where nothing has been seen,
the default takes the place of the maximum. -/
theorem from_maximum_iff :
    (∃ l, maximum nullable values = some l ∧ l ≤ v) ↔
      ¬ Overtaken (values.map fun value => (none, value)) (none, some v) ∧
        ((∀ value ∈ values, value = none) → nullable = false ∧ 0 ≤ v) := by
  rw [overtaken_scalar]
  cases hlargest : largest values with
  | none =>
    have hunseen := largest_eq_none.mp hlargest
    have hnull : ∀ value ∈ values, value = none := by
      intro value hvalue
      cases value with
      | none => rfl
      | some x => exact absurd hvalue (hunseen x)
    rw [maximum_of_notMem hunseen, imp_iff_right hnull]
    cases nullable <;> simp [typeDefault, hunseen]
  | some m =>
    obtain ⟨hmem, hmax⟩ := largest_eq_some.mp hlargest
    have hseen : ¬ ∀ value ∈ values, value = none := by
      intro hnull
      cases hnull _ hmem
    rw [maximum_of_mem hmem, hlargest]
    simp only [Option.some.injEq, exists_eq_left', hseen, false_implies, and_true, not_exists,
      not_and, not_lt]
    constructor
    · intro hle l hl
      exact (hmax l hl).trans hle
    · intro hbelow
      exact hbelow m hmem

variable (hfrontier : request.replay.window.lowerBoundMode = .activeFrontier)
  (hinclusive : request.replay.window.lowerBoundInclusive = true)
  (hrender : renderClickhouseReplayFromDeployment engine request = .ok [seed, replay])

include hfrontier hinclusive hrender

/-- The seed copies the active positions that were overtaken when it ran. -/
theorem seedSelects_frontier (hform : WellFormed request position) :
    SeedSelects request warehouse seed position ↔
      position ∈ activePositions request warehouse ∧
        Overtaken (activePositions request warehouse) position := by
  by_cases hmode : request.replay.mode = .offsets
  · rw [WellFormed, if_pos hmode] at hform
    obtain ⟨p, o, rfl⟩ := hform
    obtain ⟨lowerCte, hcte, hseed, -⟩ := rendered_offsets hmode hrender
    rw [offsetSeed_selects hmode hinclusive hseed (evaluatesTo_offsetFrontier warehouse hfrontier
      hcte), exists_startOf_iff, ← activePositions_offsets warehouse hmode]
  · rw [WellFormed, if_neg hmode] at hform
    obtain ⟨v, rfl⟩ := hform
    obtain ⟨columnType, lower, -, hexpression, hseed, -⟩ := rendered_scalar hmode hrender
    rw [scalarSeed_selects hmode hinclusive hseed
      (evaluatesTo_scalarFrontier warehouse hfrontier hexpression)]
    refine and_congr_right fun hmem => ?_
    rw [activePositions_scalar warehouse hmode] at hmem ⊢
    rw [below_maximum_iff (by simpa using hmem), map_map]
    rfl

/-- The replay reads the anchor positions that the active relation has not overtaken by the
time it runs. -/
theorem replaySelects_frontier (hform : WellFormed request position)
    (hcutoff : AtOrBelowCutoff engine request warehouse position) :
    ReplaySelects request warehouse replay position ↔
      position ∈ anchorPositions request warehouse ∧
        ¬ Overtaken (activePositions request warehouse) position ∧
        PassesDefault request warehouse position := by
  by_cases hmode : request.replay.mode = .offsets
  · rw [WellFormed, if_pos hmode] at hform
    obtain ⟨p, o, rfl⟩ := hform
    obtain ⟨lowerCte, hcte, -, hreplay⟩ := rendered_offsets hmode hrender
    rw [offsetReplay_selects hmode hinclusive hreplay
      (evaluatesTo_offsetFrontier warehouse hfrontier hcte), fromStart_iff warehouse hmode]
    simp only [hcutoff, true_and]
  · rw [WellFormed, if_neg hmode] at hform
    obtain ⟨v, rfl⟩ := hform
    obtain ⟨columnType, lower, htype, hexpression, -, hreplay⟩ := rendered_scalar hmode hrender
    rw [scalarReplay_selects hmode hinclusive htype hreplay
      (evaluatesTo_scalarFrontier warehouse hfrontier hexpression) hcutoff, from_maximum_iff]
    simp only [PassesDefault, hmode, if_false, activePositions_scalar warehouse hmode,
      forall_mem_map, map_map, Option.some.injEq, forall_eq']
    rfl

end Frontier

section Runs

variable (engine : ClickHouse) (root : PopulationRoot) (request : AdapterDeploymentReplayRequest)
  (anchorExistedAtConfirmation : Bool)

/-- Of the positions at or below the cutoff that the tables held when the replay ran, each
came into the target from exactly one of the seed and the replay. -/
def LosesNothing (state : ReplayState) : Prop :=
  ∀ seeded replayed, state.seeded = some seeded → state.replayed = some replayed →
    ∀ position, AtOrBelowCutoff engine request replayed.read position →
      position ∈ activePositions request replayed.read ∨
        position ∈ anchorPositions request replayed.read →
      Xor (position ∈ seeded.rows.map (activePosition request.replay))
        (position ∈ replayed.rows.map (anchorPosition request.replay))

/-- A position that the active relation had overtaken before the seed was in it by then; any
other is in the anchor, and the active relation has still not overtaken it at the replay. -/
structure Kept (seedTables replayTables : Warehouse) (position : Position) : Prop where
  overtaken : Overtaken (activePositions request seedTables) position →
    position ∈ activePositions request seedTables
  ahead : ¬ Overtaken (activePositions request seedTables) position →
    position ∈ anchorPositions request replayTables ∧
      ¬ Overtaken (activePositions request replayTables) position ∧
      PassesDefault request replayTables position

instance (seedTables replayTables : Warehouse) (position : Position) :
    Decidable (Kept request seedTables replayTables position) :=
  decidable_of_iff (_ ∧ _) ⟨fun h => ⟨h.1, h.2⟩, fun h => ⟨h.1, h.2⟩⟩

/-- Every position of interest was kept between the seed and the replay. -/
def FrontierStood (state : ReplayState) : Prop :=
  ∀ seeded replayed, state.seeded = some seeded → state.replayed = some replayed →
    ∀ position, AtOrBelowCutoff engine request replayed.read position →
      position ∈ activePositions request replayed.read ∨
        position ∈ anchorPositions request replayed.read →
      Kept request seeded.read replayed.read position

/-- What every run keeps: the statements still to run are a tail of the phase, an insert
selected what its statement selects, and the active relation only grows. -/
structure ReplayInv (seed replay : InsertStatement) (state : ReplayState) : Prop where
  pending : state.pending <:+ replayStatements [seed, replay]
  seeded : ∀ s, state.seeded = some s → seed.query.run s.read = some s.rows ∧
    (activeRelation request s.read).rows ⊆ (activeRelation request state.warehouse).rows
  replayed : ∀ r, state.replayed = some r → replay.query.run r.read = some r.rows ∧
    state.pending = [] ∧
    ∀ s, state.seeded = some s →
      (activeRelation request s.read).rows ⊆ (activeRelation request r.read).rows

variable {engine root request anchorExistedAtConfirmation} {seed replay : InsertStatement}
  {state : ReplayState}

theorem rows_subset_append (warehouse : Warehouse) (database name : String) (row : Row) :
    (activeRelation request warehouse).rows ⊆
      (activeRelation request (warehouse.append database name row)).rows := by
  intro row' hrow'
  simp only [activeRelation, Warehouse.append]
  split_ifs
  · exact mem_append_left _ hrow'
  · exact hrow'

theorem ReplayInv.append (h : ReplayInv request seed replay state) (database name : String)
    (row : Row) :
    ReplayInv request seed replay
      { state with warehouse := state.warehouse.append database name row } where
  pending := h.pending
  seeded s hs :=
    ⟨(h.seeded s hs).1,
      List.Subset.trans (h.seeded s hs).2 (rows_subset_append _ database name row)⟩
  replayed := h.replayed

variable {rest : List ReplayStep}

variable {warehouse : Warehouse} {step : ReplayStep} {position : Position}

/-- A step that only shortens what is pending, or adds watermarks, keeps the invariant. -/
theorem ReplayInv.proceed (h : ReplayInv request seed replay state)
    (hrest : rest <:+ replayStatements [seed, replay])
    (hwarehouse : warehouse.relation = state.warehouse.relation) (hpending : state.pending ≠ []) :
    ReplayInv request seed replay { state with warehouse := warehouse, pending := rest } where
  pending := hrest
  seeded s hs := by
    refine ⟨(h.seeded s hs).1, ?_⟩
    simpa [activeRelation, hwarehouse] using (h.seeded s hs).2
  replayed r hr := absurd (h.replayed r hr).2.1 hpending

theorem replayStatements_pair :
    replayStatements [seed, replay] =
      [.captureWatermark, .assertQualifyingInput, .seed seed, .replay replay] := rfl

theorem next_step (h : step :: rest <:+ replayStatements [seed, replay]) :
    step = .captureWatermark ∨ step = .assertQualifyingInput ∨ step = .seed seed ∨
      step = .replay replay ∧ rest = [] := by
  rw [replayStatements_pair] at h
  simp only [suffix_cons_iff, List.cons.injEq, suffix_nil, reduceCtorEq, or_false] at h
  rcases h with ⟨rfl, -⟩ | ⟨rfl, -⟩ | ⟨rfl, -⟩ | ⟨rfl, rfl⟩
  · exact .inl rfl
  · exact .inr (.inl rfl)
  · exact .inr (.inr (.inl rfl))
  · exact .inr (.inr (.inr ⟨rfl, rfl⟩))

theorem ReplayInv.execute
    (h : ReplayInv request seed replay state) (hpending : state.pending = step :: rest) :
    ReplayInv request seed replay
      (executeStep engine root request anchorExistedAtConfirmation state rest step) := by
  have hsuffix : step :: rest <:+ replayStatements [seed, replay] := hpending ▸ h.pending
  have hrest : rest <:+ replayStatements [seed, replay] := (suffix_cons step rest).trans hsuffix
  have hnil : [] <:+ replayStatements [seed, replay] := nil_suffix
  have hsome : state.pending ≠ [] := by simp [hpending]
  rcases next_step hsuffix with rfl | rfl | rfl | ⟨rfl, rfl⟩
  · exact h.proceed hrest rfl hsome
  · simp only [Replay.executeStep]
    split_ifs
    · exact h.proceed hrest rfl hsome
    · exact h.proceed hnil rfl hsome
  · simp only [Replay.executeStep]
    cases hrun : seed.query.run state.warehouse with
    | none => exact h.proceed hnil rfl hsome
    | some rows =>
      refine ⟨hrest, ?_, ?_⟩
      · intro s hs
        obtain rfl := Option.some.inj hs
        exact ⟨hrun, List.Subset.refl _⟩
      · intro r hr
        exact absurd (h.replayed r hr).2.1 hsome
  · simp only [Replay.executeStep]
    cases hrun : replay.query.run state.warehouse with
    | none => exact h.proceed hnil rfl hsome
    | some rows =>
      refine ⟨hnil, h.seeded, ?_⟩
      intro r hr
      obtain rfl := Option.some.inj hr
      exact ⟨hrun, rfl, fun s hs => (h.seeded s hs).2⟩

theorem ReplayInv.next (h : ReplayInv request seed replay state) (event : ReplayEvent) :
    ReplayInv request seed replay
      (nextReplay engine root request anchorExistedAtConfirmation state event) := by
  cases event with
  | appendAnchor row => exact h.append _ _ row
  | appendActive row => exact h.append _ _ row
  | execute =>
    simp only [Replay.nextReplay]
    split
    · exact h
    · next hpending => exact h.execute hpending

theorem replayInv_run (warehouse : Warehouse) (events : List ReplayEvent) :
    ReplayInv request seed replay
      (run (nextReplay engine root request anchorExistedAtConfirmation)
        (startReplay warehouse [seed, replay]) events) := by
  refine run_invariant (P := fun _ _ => True) _ (fun s e h _ => h.next e) ?_ (along_true _ _ events)
  refine ⟨suffix_refl _, ?_, ?_⟩
  · intro s hs
    cases hs
  · intro r hr
    cases hr

theorem xor_iff_kept {seedTables replayTables : Warehouse}
    (hgrows : (activeRelation request seedTables).rows ⊆
      (activeRelation request replayTables).rows) :
    Xor
      (position ∈ activePositions request seedTables ∧
        Overtaken (activePositions request seedTables) position)
      (position ∈ anchorPositions request replayTables ∧
        ¬ Overtaken (activePositions request replayTables) position ∧
        PassesDefault request replayTables position) ↔
      Kept request seedTables replayTables position := by
  have hovertaken : Overtaken (activePositions request seedTables) position →
      Overtaken (activePositions request replayTables) position := by
    rintro ⟨later, hlater, hsame, hbelow⟩
    exact ⟨later, map_subset _ hgrows hlater, hsame, hbelow⟩
  by_cases h : Overtaken (activePositions request seedTables) position
  · simp only [h, hovertaken h, and_true, not_true_eq_false, false_and, and_false, xor_def,
      not_false_eq_true, or_false]
    exact ⟨fun hmem => ⟨fun _ => hmem, fun hnot => absurd h hnot⟩, fun hkept => hkept.overtaken h⟩
  · simp only [h, and_false, xor_def, false_and, not_false_eq_true, and_true, false_or]
    exact ⟨fun hahead => ⟨fun hover => absurd hover h, fun _ => hahead⟩, fun hkept => hkept.ahead h⟩

/-- A position at or below the cutoff of a table's row is one of the boundary mode. -/
theorem AtOrBelowCutoff.wellFormed (h : AtOrBelowCutoff engine request warehouse position)
    (hpresent : position ∈ activePositions request warehouse ∨
      position ∈ anchorPositions request warehouse) : WellFormed request position := by
  by_cases hmode : request.replay.mode = .offsets
  · rw [WellFormed, if_pos hmode]
    exact h.offsets hmode
  · rw [WellFormed, if_neg hmode]
    rcases hpresent with hactive | hanchor
    · obtain ⟨row, -, rfl⟩ := mem_map.mp hactive
      obtain ⟨watermark, -, v, hv, -⟩ := h
      exact ⟨v, Prod.ext (by simp [activePosition, hmode]) hv⟩
    · exact h.scalar hmode hanchor

/-- In every interleaving of arriving rows with the capture, the seed and the replay, nothing
is lost or doubled exactly when no position fell between the two lookups of the frontier. -/
theorem run_losesNothing (hbuilt : BuiltFor root request.replay)
    (hfrontier : lowerBoundMode root = .activeFrontier)
    (hrender : renderClickhouseReplayFromDeployment engine request = .ok [seed, replay])
    (warehouse : Warehouse) (events : List ReplayEvent) :
    LosesNothing engine request
        (run (nextReplay engine root request anchorExistedAtConfirmation)
          (startReplay warehouse [seed, replay]) events) ↔
      FrontierStood engine request
        (run (nextReplay engine root request anchorExistedAtConfirmation)
          (startReplay warehouse [seed, replay]) events) := by
  have hinv : ReplayInv request seed replay
      (run (nextReplay engine root request anchorExistedAtConfirmation)
        (startReplay warehouse [seed, replay]) events) := replayInv_run warehouse events
  have hmode : request.replay.window.lowerBoundMode = .activeFrontier := by
    rw [hbuilt.window]
    exact hfrontier
  refine forall_congr' fun s => forall_congr' fun r => forall_congr' fun hs =>
    forall_congr' fun hr => forall_congr' fun position => forall_congr' fun hcutoff =>
    forall_congr' fun hpresent => ?_
  obtain ⟨hseedRun, -⟩ := hinv.seeded s hs
  obtain ⟨hreplayRun, -, hgrows⟩ := hinv.replayed r hr
  have hform := hcutoff.wellFormed hpresent
  have hseed : position ∈ s.rows.map (activePosition request.replay) ↔
      SeedSelects request s.read seed position := by
    simp [SeedSelects, hseedRun]
  have hreplay : position ∈ r.rows.map (anchorPosition request.replay) ↔
      ReplaySelects request r.read replay position := by
    simp [ReplaySelects, hreplayRun]
  rw [hseed, hreplay, seedSelects_frontier s.read hmode hbuilt.inclusive hrender hform,
    replaySelects_frontier r.read hmode hbuilt.inclusive hrender hform hcutoff]
  exact xor_iff_kept (hgrows s hs)

end Runs

/-- The request of a seeded deployment without a start time. -/
def frontierRequest (mode : AdapterReplayBoundaryMode) : AdapterDeploymentReplayRequest :=
  sampleRequest (sampleRoot mode none)

/-- The replay phase over positions 1 to 3, of which the active relation holds the first two. -/
def frontierRun (seed replay : InsertStatement) (events : List ReplayEvent) : ReplayState :=
  run (nextReplay sampleEngine (sampleRoot .offsets none) (frontierRequest .offsets) true)
    (startReplay (sampleTables [1, 2, 3] [1, 2]) [seed, replay]) events

/-- A row that arrives in the anchor only does no harm. -/
theorem run_losesNothing_quiet :
    ∃ seed replay,
      renderClickhouseReplayFromDeployment sampleEngine (frontierRequest .offsets)
          = .ok [seed, replay] ∧
        LosesNothing sampleEngine (frontierRequest .offsets)
          (frontierRun seed replay
            [.execute, .execute, .execute, .appendAnchor (sampleRow 4), .execute]) := by
  refine ⟨_, _, rfl, (run_losesNothing (sampleRequest_builtFor _) rfl rfl _ _).mpr ?_⟩
  intro s r hs hr position hcutoff hpresent
  obtain rfl := Option.some.inj hs
  obtain rfl := Option.some.inj hr
  clear hcutoff hs hr
  rcases hpresent with hactive | hanchor
  · revert position
    decide
  · revert position
    decide

/-- The active relation catches up by one row after the seed, and the row that was its
frontier until then is in neither statement. -/
theorem not_run_losesNothing :
    ∃ seed replay,
      renderClickhouseReplayFromDeployment sampleEngine (frontierRequest .offsets)
          = .ok [seed, replay] ∧
        ¬ LosesNothing sampleEngine (frontierRequest .offsets)
          (frontierRun seed replay
            [.execute, .execute, .execute, .appendActive (sampleRow 3), .execute]) := by
  refine ⟨_, _, rfl, ?_⟩
  intro hnothing
  have hxor := hnothing _ _ rfl rfl (some 0, some 2)
    ⟨_, mem_cons_self, 2, rfl, ⟨0, rfl, rfl⟩, by decide⟩ (.inl (by decide))
  revert hxor
  decide

end SqlTide.Replay
