import SqlTide.Readiness.OffsetSummary

/-!
# What a ready relation may still lack

A relation that is ready by offsets has fresh staged rows for every raw partition and staged rows
for every active one, except in the partitions that the comparison cannot judge: active partitions
without raw rows, and raw partitions whose missing values the join fills with values that pass.
-/

namespace SqlTide.Readiness

open List OffsetRelation

section Partitions

variable (active staged : OffsetRelation) (source : SourceRelation) (column : BoundaryColumn)
  (maximumLagSeconds : ℚ) (partition : ℤ)

/-- The boundary of the raw row at the staged maximum offset. -/
def reachedBoundary : Option ℤ :=
  (staged.maxOffset partition).bind fun offset =>
    ((source.rowsAt partition offset).filterMap column.value).max?

/-- The staged rows of a raw partition reach a boundary at most the given time before its latest. -/
def Fresh : Prop :=
  ∃ first last, reachedBoundary staged source column partition = some first ∧
    source.latest column partition = some last ∧
    ((last - first : ℤ) : ℚ) ≤ 1000 * maximumLagSeconds

/-- The same, with the time in full seconds begun. -/
def Judged : Prop :=
  ∃ first last, reachedBoundary staged source column partition = some first ∧
    source.latest column partition = some last ∧
    (dateDiffSeconds first last : ℚ) ≤ maximumLagSeconds

/-- The latest boundary is not later than the epoch by more than the maximal lag. -/
def NearEpoch : Prop :=
  ∃ last, source.latest column partition = some last ∧
    (dateDiffSeconds 0 last : ℚ) ≤ maximumLagSeconds

/-- The staged rows of the partition, if any, do not give a boundary. A NULL offset is no staged
offset to compare, and the default of a boundary is the epoch. -/
inductive Unjudged : Prop where
  | nullOffset (noStaged : partition ∉ staged.offsetPartitions)
      (stagedNull : staged.offsetNullable = true) (activeNull : active.offsetNullable = true)
      (noActive : partition ∉ active.offsetPartitions)
      (boundary : column.nullable = true ∨ NearEpoch source column maximumLagSeconds partition)
  | defaultOffset (noStaged : partition ∉ staged.offsetPartitions)
      (stagedDefault : staged.offsetNullable = false) (boundaryDefault : column.nullable = false)
      (boundary : NearEpoch source column maximumLagSeconds partition)
  | noRawRow (offset : ℤ) (stagedOffset : staged.maxOffset partition = some offset)
      (noRow : source.rowsAt partition offset = []) (boundaryDefault : column.nullable = false)
      (boundary : NearEpoch source column maximumLagSeconds partition)

/-- The partition counts as compared. -/
def Compared : Prop :=
  (partition ∈ active.offsetPartitions ∨ active.offsetNullable = false) ∧
    (partition ∈ staged.offsetPartitions ∨ staged.offsetNullable = false)

instance : Decidable (Compared active staged partition) := by
  unfold Compared
  infer_instance

end Partitions

/-- Every active partition has staged rows, and every raw partition fresh ones. -/
structure ReadySound (active staged : OffsetRelation) (source : SourceRelation)
    (maximumLagSeconds : ℚ) : Prop where
  activeStaged : ∀ partition ∈ active.partitions, partition ∈ staged.partitions
  rawFresh : ∀ partition ∈ source.partitions, partition ∈ staged.partitions ∧
    ∃ column, resolveOffsetBoundaryColumn source = some column ∧
      Fresh staged source column maximumLagSeconds partition

/-- All that the comparison judges passes, and a partition is missing or late that it does not
judge. -/
structure Overlooks (active staged : OffsetRelation) (source : SourceRelation)
    (column : BoundaryColumn) (thresholds : ReadinessThresholds) : Prop where
  stagedRows : staged.rows ≠ []
  ratio : ¬ (0 < active.rows.length ∧ (staged.rows.length : ℚ) <
    active.rows.length * thresholds.minimumStagedRowRatio)
  partitions : ∀ partition ∈ source.partitions,
    Judged staged source column thresholds.maximumLagSeconds partition ∨
      Unjudged active staged source column thresholds.maximumLagSeconds partition
  counted : active.partitions.length ≤
    source.partitions.countP fun partition => Compared active staged partition
  judged : column.nullable = true → ∃ partition ∈ source.partitions,
    Judged staged source column thresholds.maximumLagSeconds partition
  gap : (∃ partition ∈ active.partitions, partition ∉ source.partitions ∧
      partition ∉ staged.partitions) ∨
    ∃ partition ∈ source.partitions,
      Unjudged active staged source column thresholds.maximumLagSeconds partition ∨
      Judged staged source column thresholds.maximumLagSeconds partition ∧
        ¬ Fresh staged source column thresholds.maximumLagSeconds partition

section Lemmas

variable {active staged : OffsetRelation} {source : SourceRelation} {column : BoundaryColumn}
  {thresholds : ReadinessThresholds} {partition : ℤ}

variable {relation : OffsetRelation} {offset : ℤ} {maximumLagSeconds : ℚ}

theorem OffsetRelation.maxOffset_eq_none :
    relation.maxOffset partition = none ↔ partition ∉ relation.offsetPartitions := by
  rw [maxOffset, max?_eq_none_iff, filterMap_eq_nil_iff, offsetPartitions, mem_dedup, mem_map]
  simp only [mem_filter, decide_eq_true_eq, not_exists, not_and, and_imp]
  exact ⟨fun h row hrow hsome hpartition => hsome (h row hrow hpartition),
    fun h row hrow hpartition => not_not.mp fun hsome => h row hrow hsome hpartition⟩

theorem OffsetRelation.mem_partitions :
    partition ∈ relation.partitions ↔ ∃ row ∈ relation.rows, row.partition = partition := by
  rw [OffsetRelation.partitions, mem_dedup, mem_map]

theorem OffsetRelation.partitions_of_offset
    (h : partition ∈ relation.offsetPartitions) : partition ∈ relation.partitions := by
  rw [offsetPartitions, mem_dedup, mem_map] at h
  obtain ⟨row, hrow, rfl⟩ := h
  exact mem_partitions.mpr ⟨row, mem_of_mem_filter hrow, rfl⟩

/-- A group whose maximum is NULL joins as a missing group does: its column is nullable. -/
theorem leftJoined_offsets :
    leftJoined relation.offsetNullable (relation.offsets partition) =
      leftJoined relation.offsetNullable ((relation.maxOffset partition).map some) := by
  cases hmax : relation.maxOffset partition with
  | some offset =>
    have hmem : partition ∈ relation.partitions := by
      refine partitions_of_offset (not_not.mp fun hnot => ?_)
      rw [maxOffset_eq_none.mpr hnot] at hmax
      cases hmax
    simp [offsets, hmem, hmax, leftJoined]
  | none =>
    by_cases hmem : partition ∈ relation.partitions
    · have hnullable : relation.offsetNullable = true := by
        obtain ⟨row, hrow, hpartition⟩ := mem_partitions.mp hmem
        refine Bool.not_eq_false _ ▸ fun hrequired => ?_
        rw [maxOffset_eq_none, offsetPartitions, mem_dedup, mem_map] at hmax
        exact hmax ⟨row, by simp [hrow, relation.offset_typed hrequired row hrow], hpartition⟩
      simp [offsets, hmem, hmax, leftJoined, hnullable]
    · simp [offsets, hmem]

theorem leftJoined_offsets_none (h : relation.maxOffset partition = none) :
    leftJoined relation.offsetNullable (relation.offsets partition) =
      if relation.offsetNullable then none else some 0 := by
  rw [leftJoined_offsets, h, Option.map_none, leftJoined]

theorem leftJoined_offsets_some (h : relation.maxOffset partition = some offset) :
    leftJoined relation.offsetNullable (relation.offsets partition) = some offset := by
  rw [leftJoined_offsets, h, Option.map_some, leftJoined]

theorem leftJoined_maxOffset :
    leftJoined relation.offsetNullable (relation.offsets partition) ≠ none ↔
      partition ∈ relation.offsetPartitions ∨ relation.offsetNullable = false := by
  cases hoffset : relation.maxOffset partition with
  | none =>
    have hmem := maxOffset_eq_none.mp hoffset
    rw [leftJoined_offsets_none hoffset]
    simp [hmem]
  | some offset =>
    have hmem : partition ∈ relation.offsetPartitions := by
      by_contra h
      rw [maxOffset_eq_none.mpr h] at hoffset
      cases hoffset
    rw [leftJoined_offsets_some hoffset]
    simp [hmem]

theorem typed_of_resolve (h : resolveOffsetBoundaryColumn source = some column)
    (hrequired : column.nullable = false) : ∀ row ∈ source.rows, column.value row ≠ none := by
  rw [resolveOffsetBoundaryColumn] at h
  split at h
  · next htimestamp =>
    cases h
    exact source.timestamp_typed htimestamp
  · cases h
    cases hrequired
  · next _ hlanded =>
    cases h
    exact source.landedAt_typed hlanded
  · cases h
    cases hrequired
  · cases h

theorem max_ne_none (htyped : ∀ row ∈ source.rows, column.value row ≠ none)
    {rows : List SourceRow} (hrows : rows ≠ []) (hsub : ∀ row ∈ rows, row ∈ source.rows) :
    (rows.filterMap column.value).max? ≠ none := by
  rw [Ne, max?_eq_none_iff, filterMap_eq_nil_iff]
  intro hnone
  obtain ⟨row, hrow⟩ := exists_mem_of_ne_nil rows hrows
  exact htyped row (hsub row hrow) (hnone row hrow)

theorem latest_ne_none (htyped : ∀ row ∈ source.rows, column.value row ≠ none)
    (hpartition : partition ∈ source.partitions) : source.latest column partition ≠ none := by
  apply max_ne_none htyped
  · rw [SourceRelation.partitions, mem_dedup, mem_map] at hpartition
    obtain ⟨row, hrow, rfl⟩ := hpartition
    exact ne_nil_of_mem (mem_filter.mpr ⟨hrow, by simp⟩)
  · intro row hrow
    exact mem_of_mem_filter hrow

/-- What the query requires of a joined row. -/
def JoinedPartition.Passes (row : JoinedPartition) (maximumLagSeconds : ℚ) : Prop :=
  ¬ (row.activeOffset ≠ none ∧ row.stagedOffset = none) ∧
    ¬ (row.stagedOffset ≠ none ∧ (row.stagedBoundary = none ∨ row.rawBoundary = none)) ∧
    ∀ lag, row.lag = some lag → (lag : ℚ) ≤ maximumLagSeconds

theorem lag_of_default (active : OffsetRelation)
    (hcolumn : resolveOffsetBoundaryColumn source = some column)
    (hpartition : partition ∈ source.partitions) (maximumLagSeconds : ℚ)
    (hrequired : column.nullable = false)
    (hprogress : stagedProgress source column staged partition = none) :
    ∃ last, (joinedPartition active staged source (some column) partition).rawBoundary = some last ∧
      (joinedPartition active staged source (some column) partition).stagedBoundary = some 0 ∧
      ((dateDiffSeconds 0 last : ℚ) ≤ maximumLagSeconds ↔
        NearEpoch source column maximumLagSeconds partition) := by
  obtain ⟨last, hlast⟩ := Option.ne_none_iff_exists'.mp
    (latest_ne_none (typed_of_resolve hcolumn hrequired) hpartition)
  refine ⟨last, hlast, by simp [joinedPartition, hprogress, leftJoined, hrequired], ?_⟩
  rw [NearEpoch]
  simp [hlast]

theorem passes_iff_of_not_staged (hcolumn : resolveOffsetBoundaryColumn source = some column)
    (hpartition : partition ∈ source.partitions) (maximumLagSeconds : ℚ)
    (hstaged : staged.maxOffset partition = none) :
    (joinedPartition active staged source (some column) partition).Passes maximumLagSeconds ↔
      Unjudged active staged source column maximumLagSeconds partition := by
  have hmem := maxOffset_eq_none.mp hstaged
  have hprogress : stagedProgress source column staged partition = none := by
    simp [stagedProgress, hstaged]
  have hactive : (joinedPartition active staged source (some column) partition).activeOffset ≠
      none ↔ partition ∈ active.offsetPartitions ∨ active.offsetNullable = false :=
    leftJoined_maxOffset
  have hoffset : (joinedPartition active staged source (some column) partition).stagedOffset =
      if staged.offsetNullable then none else some 0 := leftJoined_offsets_none hstaged
  have hboundary : column.nullable = true →
      (joinedPartition active staged source (some column) partition).stagedBoundary = none := by
    intro hnullable
    simp [joinedPartition, hprogress, leftJoined, hnullable]
  rw [JoinedPartition.Passes, hactive, hoffset, JoinedPartition.lag]
  constructor
  · rintro ⟨hpresent, hfresh, hlag⟩
    cases hnull : staged.offsetNullable with
    | true =>
      simp only [hnull, if_true, and_true, not_or, Bool.not_eq_false] at hpresent
      refine .nullOffset hmem hnull hpresent.2 hpresent.1 ?_
      cases hnullable : column.nullable with
      | true => exact .inl rfl
      | false =>
        obtain ⟨last, hlast, hfirst, hepoch⟩ :=
          lag_of_default active hcolumn hpartition maximumLagSeconds hnullable hprogress
        rw [hfirst, hlast] at hlag
        exact .inr (hepoch.mp (hlag _ rfl))
    | false =>
      cases hnullable : column.nullable with
      | true => simp [hnull, hboundary hnullable] at hfresh
      | false =>
        obtain ⟨last, hlast, hfirst, hepoch⟩ :=
          lag_of_default active hcolumn hpartition maximumLagSeconds hnullable hprogress
        rw [hfirst, hlast] at hlag
        exact .defaultOffset hmem hnull hnullable (hepoch.mp (hlag _ rfl))
  · intro h
    cases h with
    | nullOffset _ hnull hactiveNull hnoActive hepoch =>
      refine ⟨by simp [hactiveNull, hnoActive], by simp [hnull], ?_⟩
      cases hnullable : column.nullable with
      | true => simp [hboundary hnullable]
      | false =>
        obtain ⟨last, hlast, hfirst, hnear⟩ :=
          lag_of_default active hcolumn hpartition maximumLagSeconds hnullable hprogress
        have hepoch := hepoch.resolve_left (by simp [hnullable])
        rw [hfirst, hlast]
        rintro lag ⟨⟩
        exact hnear.mpr hepoch
    | defaultOffset _ hnull hnullable hepoch =>
      obtain ⟨last, hlast, hfirst, hnear⟩ :=
        lag_of_default active hcolumn hpartition maximumLagSeconds hnullable hprogress
      refine ⟨by simp [hnull], by simp [hfirst, hlast], ?_⟩
      rw [hfirst, hlast]
      rintro lag ⟨⟩
      exact hnear.mpr hepoch
    | noRawRow offset hoffset =>
      rw [hstaged] at hoffset
      cases hoffset

theorem passes_iff_of_no_row (hcolumn : resolveOffsetBoundaryColumn source = some column)
    (hpartition : partition ∈ source.partitions) (maximumLagSeconds : ℚ)
    (hstaged : staged.maxOffset partition = some offset)
    (hrows : source.rowsAt partition offset = []) :
    (joinedPartition active staged source (some column) partition).Passes maximumLagSeconds ↔
      Unjudged active staged source column maximumLagSeconds partition := by
  have hmem : partition ∈ staged.offsetPartitions := by
    by_contra hmem
    rw [maxOffset_eq_none.mpr hmem] at hstaged
    cases hstaged
  have hprogress : stagedProgress source column staged partition = none := by
    simp [stagedProgress, hstaged, hrows]
  have hoffset : (joinedPartition active staged source (some column) partition).stagedOffset =
      some offset := leftJoined_offsets_some hstaged
  rw [JoinedPartition.Passes, hoffset, JoinedPartition.lag]
  cases hnullable : column.nullable with
  | true =>
    have hboundary :
        (joinedPartition active staged source (some column) partition).stagedBoundary = none := by
      simp [joinedPartition, hprogress, leftJoined, hnullable]
    refine iff_of_false (by simp [hboundary]) ?_
    intro h
    cases h with
    | nullOffset hnot => exact hnot hmem
    | defaultOffset hnot => exact hnot hmem
    | noRawRow _ _ _ hrequired => simp [hnullable] at hrequired
  | false =>
    obtain ⟨last, hlast, hfirst, hnear⟩ :=
      lag_of_default active hcolumn hpartition maximumLagSeconds hnullable hprogress
    rw [hfirst, hlast]
    constructor
    · rintro ⟨-, -, hlag⟩
      exact .noRawRow offset hstaged hrows hnullable (hnear.mp (hlag _ rfl))
    · intro h
      refine ⟨by simp, by simp, ?_⟩
      rintro lag ⟨⟩
      cases h with
      | nullOffset hnot => exact absurd hmem hnot
      | defaultOffset hnot => exact absurd hmem hnot
      | noRawRow _ _ _ _ hepoch => exact hnear.mpr hepoch

theorem passes_iff_of_row (maximumLagSeconds : ℚ)
    (hstaged : staged.maxOffset partition = some offset)
    (hrows : source.rowsAt partition offset ≠ []) :
    (joinedPartition active staged source (some column) partition).Passes maximumLagSeconds ↔
      Judged staged source column maximumLagSeconds partition := by
  have hreached : leftJoined column.nullable (stagedProgress source column staged partition) =
      reachedBoundary staged source column partition := by
    simp [stagedProgress, reachedBoundary, hstaged, hrows, leftJoined]
  have hoffset := leftJoined_offsets_some hstaged
  simp only [JoinedPartition.Passes, joinedPartition, JoinedPartition.lag, Option.bind_some,
    hreached, hoffset, Judged]
  cases hfirst : reachedBoundary staged source column partition with
  | none => simp
  | some first =>
    cases hlast : source.latest column partition with
    | none => simp
    | some last => simp

/-- A joined row passes where its partition is judged to be fresh, and where it is not judged. -/
theorem passes_iff (hcolumn : resolveOffsetBoundaryColumn source = some column)
    (hpartition : partition ∈ source.partitions) (maximumLagSeconds : ℚ) :
    (joinedPartition active staged source (some column) partition).Passes maximumLagSeconds ↔
      Judged staged source column maximumLagSeconds partition ∨
        Unjudged active staged source column maximumLagSeconds partition := by
  cases hstaged : staged.maxOffset partition with
  | none =>
    have hjudged : ¬ Judged staged source column maximumLagSeconds partition := by
      rintro ⟨first, last, hfirst, -⟩
      simp [reachedBoundary, hstaged] at hfirst
    rw [passes_iff_of_not_staged hcolumn hpartition maximumLagSeconds hstaged]
    simp [hjudged]
  | some offset =>
    by_cases hrows : source.rowsAt partition offset = []
    · have hjudged : ¬ Judged staged source column maximumLagSeconds partition := by
        rintro ⟨first, last, hfirst, -⟩
        simp [reachedBoundary, hstaged, hrows] at hfirst
      rw [passes_iff_of_no_row hcolumn hpartition maximumLagSeconds hstaged hrows]
      simp [hjudged]
    · have hunjudged : ¬ Unjudged active staged source column maximumLagSeconds partition := by
        intro h
        cases h with
        | nullOffset hnot =>
          rw [maxOffset_eq_none.mpr hnot] at hstaged
          cases hstaged
        | defaultOffset hnot =>
          rw [maxOffset_eq_none.mpr hnot] at hstaged
          cases hstaged
        | noRawRow other hother hnone =>
          rw [hstaged, Option.some_inj] at hother
          exact hrows (hother ▸ hnone)
      rw [passes_iff_of_row maximumLagSeconds hstaged hrows]
      simp [hunjudged]

theorem countP_eq_zero_iff {rows : List JoinedPartition} {p : JoinedPartition → Prop}
    [DecidablePred p] : ¬ rows.countP (fun row => p row) > 0 ↔ ∀ row ∈ rows, ¬ p row := by
  rw [Nat.not_lt, Nat.le_zero, countP_eq_zero]
  simp

theorem rowRatioAssessment_eq_ready {activeRows stagedRows : ℕ} {minimumStagedRowRatio : ℚ} :
    rowRatioAssessment (some activeRows) (some stagedRows) minimumStagedRowRatio = .ready ↔
      ¬ (0 < activeRows ∧ (stagedRows : ℚ) < activeRows * minimumStagedRowRatio) := by
  rw [rowRatioAssessment]
  split_ifs with h <;> simp [h]

/-- The largest lag is in bounds where every lag is, and there is one. -/
theorem aggregateMax_le_iff {nullable : Bool} {values : List ℤ} {maximum : ℚ} :
    (∃ lag, aggregateMax nullable values = some lag ∧ ¬ (lag : ℚ) > maximum) ↔
      (∀ lag ∈ values, (lag : ℚ) ≤ maximum) ∧
        (values = [] → nullable = false ∧ 0 ≤ maximum) := by
  cases hmax : values.max? with
  | none =>
    obtain rfl := max?_eq_none_iff.mp hmax
    cases nullable <;> simp [aggregateMax]
  | some last =>
    obtain ⟨hlast, hall⟩ := max?_eq_some_iff.mp hmax
    have hne : values ≠ [] := ne_nil_of_mem hlast
    have hvalue : aggregateMax nullable values = some last := by
      cases nullable <;> simp [aggregateMax, hmax]
    simp only [hvalue, Option.some_inj, exists_eq_left', not_lt, hne, false_imp_iff, and_true]
    constructor
    · intro h lag hlag
      exact le_trans (by exact_mod_cast hall lag hlag) h
    · exact fun h => h last hlast

theorem offsetAssessment_eq_ready_iff {activeRowCount stagedRowCount : Option ℕ}
    {summary : OffsetSummary} {name : String} (hname : summary.lagBoundaryColumn = some name) :
    offsetAssessment true activeRowCount stagedRowCount (some summary) thresholds = .ready ↔
      summary.activePartitionCount ≤ summary.partitionsCompared ∧
      ¬ summary.missingStagedPartitionCount > 0 ∧ ¬ summary.missingFreshnessPartitionCount > 0 ∧
      (∃ lag, summary.maxLagSeconds = some lag ∧ ¬ (lag : ℚ) > thresholds.maximumLagSeconds) ∧
      rowRatioAssessment activeRowCount stagedRowCount thresholds.minimumStagedRowRatio =
        .ready := by
  rw [offsetAssessment, hname]
  cases hlag : summary.maxLagSeconds with
  | none => split_ifs <;> simp
  | some lag =>
    simp only [true_and, Option.some_inj, exists_eq_left']
    split_ifs with hcompared hmissing hfreshness hlate
    · simp [Nat.not_le.mpr hcompared]
    · simp [hmissing]
    · simp [hfreshness]
    · simp [hlate]
    · simp [Nat.not_lt.mp hcompared, hmissing, hfreshness, hlate]

/-- What a ready relation meets, partition by partition. -/
theorem offsetReadiness_eq_ready_iff (hcolumn : resolveOffsetBoundaryColumn source = some column) :
    offsetReadiness active staged source thresholds = .ready ↔
      staged.rows ≠ [] ∧
      ¬ (0 < active.rows.length ∧ (staged.rows.length : ℚ) <
        active.rows.length * thresholds.minimumStagedRowRatio) ∧
      active.partitions.length ≤
        (source.partitions.countP fun partition => Compared active staged partition) ∧
      (∀ partition ∈ source.partitions,
        (joinedPartition active staged source (some column) partition).Passes
          thresholds.maximumLagSeconds) ∧
      ((∀ partition ∈ source.partitions,
        (joinedPartition active staged source (some column) partition).lag = none) →
        column.nullable = false ∧ 0 ≤ thresholds.maximumLagSeconds) := by
  by_cases hstaged : staged.rows = []
  · simp only [hstaged, ne_eq, not_true_eq_false, false_and, iff_false]
    rw [offsetReadiness, buildRootAssessment]
    simp only [hstaged, length_nil, not_true_eq_false, if_false, if_true]
    split_ifs <;> simp
  have hlength : some staged.rows.length ≠ some 0 := by
    simpa using hstaged
  have hcompared : (offsetSummary active staged source).partitionsCompared =
      source.partitions.countP fun partition => Compared active staged partition := by
    rw [offsetSummary, countP_map]
    refine countP_congr fun partition _ => ?_
    rw [Function.comp_apply, decide_eq_true_iff, decide_eq_true_iff]
    exact and_congr leftJoined_maxOffset leftJoined_maxOffset
  have hname : (offsetSummary active staged source).lagBoundaryColumn = some column.name := by
    simp [offsetSummary, hcolumn]
  have hlags : (offsetSummary active staged source).maxLagSeconds =
      aggregateMax column.nullable ((source.partitions.map
        (joinedPartition active staged source (some column))).filterMap JoinedPartition.lag) := by
    simp [offsetSummary, hcolumn]
  have hnoLags : (source.partitions.map (joinedPartition active staged source (some column))
      |>.filterMap JoinedPartition.lag) = [] ↔ ∀ partition ∈ source.partitions,
        (joinedPartition active staged source (some column) partition).lag = none := by
    rw [filterMap_eq_nil_iff]
    simp
  rw [offsetReadiness, buildRootAssessment, if_neg (by simp), if_neg hlength, if_neg (by simp),
    if_pos rfl, offsetAssessment_eq_ready_iff hname, hcompared, hlags, aggregateMax_le_iff, hnoLags,
    rowRatioAssessment_eq_ready]
  have hmissing : ¬ (offsetSummary active staged source).missingStagedPartitionCount > 0 ↔
      ∀ partition ∈ source.partitions,
        ¬ ((joinedPartition active staged source (some column) partition).activeOffset ≠ none ∧
          (joinedPartition active staged source (some column) partition).stagedOffset = none) := by
    simp only [offsetSummary, hcolumn]
    rw [countP_eq_zero_iff]
    simp
  have hfreshness : ¬ (offsetSummary active staged source).missingFreshnessPartitionCount > 0 ↔
      ∀ partition ∈ source.partitions,
        ¬ ((joinedPartition active staged source (some column) partition).stagedOffset ≠ none ∧
          ((joinedPartition active staged source (some column) partition).stagedBoundary = none ∨
          (joinedPartition active staged source (some column) partition).rawBoundary = none)) := by
    simp only [offsetSummary, hcolumn]
    rw [countP_eq_zero_iff]
    simp
  rw [hmissing, hfreshness]
  have hvalues : (∀ lag ∈ ((source.partitions.map
      (joinedPartition active staged source (some column))).filterMap JoinedPartition.lag),
      (lag : ℚ) ≤ thresholds.maximumLagSeconds) ↔ ∀ partition ∈ source.partitions, ∀ lag,
        (joinedPartition active staged source (some column) partition).lag = some lag →
          (lag : ℚ) ≤ thresholds.maximumLagSeconds := by
    simp only [mem_filterMap, mem_map]
    constructor
    · intro h partition hpartition lag hlag
      exact h lag ⟨_, ⟨partition, hpartition, rfl⟩, hlag⟩
    · rintro h lag ⟨_, ⟨partition, hpartition, rfl⟩, hlag⟩
      exact h partition hpartition lag hlag
  rw [hvalues]
  constructor
  · rintro ⟨hcount, hmissing, hfresh, ⟨hlag, hnone⟩, hratio⟩
    exact ⟨hstaged, hratio, hcount, fun partition hpartition => ⟨hmissing partition hpartition,
      hfresh partition hpartition, hlag partition hpartition⟩, hnone⟩
  · rintro ⟨-, hratio, hcount, hpasses, hnone⟩
    exact ⟨hcount, fun partition hpartition => (hpasses partition hpartition).1,
      fun partition hpartition => (hpasses partition hpartition).2.1,
      ⟨fun partition hpartition => (hpasses partition hpartition).2.2, hnone⟩, hratio⟩

theorem reachedBoundary_of_unjudged
    (h : Unjudged active staged source column maximumLagSeconds partition) :
    reachedBoundary staged source column partition = none := by
  cases h with
  | nullOffset hnot => simp [reachedBoundary, maxOffset_eq_none.mpr hnot]
  | defaultOffset hnot => simp [reachedBoundary, maxOffset_eq_none.mpr hnot]
  | noRawRow offset hoffset hrows => simp [reachedBoundary, hoffset, hrows]

theorem mem_partitions_of_fresh (h : Fresh staged source column maximumLagSeconds partition) :
    partition ∈ staged.partitions := by
  obtain ⟨first, last, hfirst, -⟩ := h
  refine partitions_of_offset (not_not.mp fun hnot => ?_)
  simp [reachedBoundary, maxOffset_eq_none.mpr hnot] at hfirst

theorem leftJoined_stagedProgress {first : ℤ}
    (h : reachedBoundary staged source column partition = some first) :
    leftJoined column.nullable (stagedProgress source column staged partition) = some first := by
  obtain ⟨offset, hoffset, hmax⟩ := Option.bind_eq_some_iff.mp h
  have hrows : source.rowsAt partition offset ≠ [] := by
    intro hnone
    simp [hnone] at hmax
  simp [stagedProgress, hoffset, hrows, leftJoined, hmax]

theorem lag_ne_none_of_judged (h : Judged staged source column maximumLagSeconds partition) :
    (joinedPartition active staged source (some column) partition).lag ≠ none := by
  obtain ⟨first, last, hfirst, hlast, -⟩ := h
  simp [JoinedPartition.lag, joinedPartition, leftJoined_stagedProgress hfirst, hlast]

theorem lag_ne_none_of_required (hcolumn : resolveOffsetBoundaryColumn source = some column)
    (hrequired : column.nullable = false) (hpartition : partition ∈ source.partitions) :
    (joinedPartition active staged source (some column) partition).lag ≠ none := by
  have htyped := typed_of_resolve hcolumn hrequired
  obtain ⟨last, hlast⟩ := Option.ne_none_iff_exists'.mp (latest_ne_none htyped hpartition)
  have hfirst : leftJoined column.nullable (stagedProgress source column staged partition) ≠
      none := by
    cases hoffset : staged.maxOffset partition with
    | none => simp [stagedProgress, hoffset, leftJoined, hrequired]
    | some offset =>
      by_cases hrows : source.rowsAt partition offset = []
      · simp [stagedProgress, hoffset, hrows, leftJoined, hrequired]
      · have hmax := max_ne_none htyped hrows fun row hrow => mem_of_mem_filter hrow
        simpa [stagedProgress, hoffset, hrows, leftJoined] using hmax
  obtain ⟨first, hfirst⟩ := Option.ne_none_iff_exists'.mp hfirst
  simp [JoinedPartition.lag, joinedPartition, hfirst, hlast]

/-- A partition that is not judged gives no lag where boundaries can be NULL. -/
theorem judged_of_lag (hnullable : column.nullable = true)
    (h : Judged staged source column maximumLagSeconds partition ∨
      Unjudged active staged source column maximumLagSeconds partition)
    (hlag : (joinedPartition active staged source (some column) partition).lag ≠ none) :
    Judged staged source column maximumLagSeconds partition := by
  refine h.resolve_right fun hunjudged => ?_
  cases hunjudged with
  | nullOffset hnot =>
    simp [JoinedPartition.lag, joinedPartition, stagedProgress,
      maxOffset_eq_none.mpr hnot, leftJoined, hnullable] at hlag
  | defaultOffset _ _ hrequired => simp [hnullable] at hrequired
  | noRawRow _ _ _ hrequired => simp [hnullable] at hrequired

theorem overlooks_of_ready (hcolumn : resolveOffsetBoundaryColumn source = some column)
    (hready : offsetReadiness active staged source thresholds = .ready)
    (hunsound : ¬ ReadySound active staged source thresholds.maximumLagSeconds) :
    Overlooks active staged source column thresholds := by
  obtain ⟨hstaged, hratio, hcounted, hpasses, hlag⟩ :=
    (offsetReadiness_eq_ready_iff hcolumn).mp hready
  have hpartitions := fun partition hpartition =>
    (passes_iff hcolumn hpartition _).mp (hpasses partition hpartition)
  refine ⟨hstaged, hratio, hpartitions, hcounted, fun hnullable => ?_, ?_⟩
  · by_contra hnone
    have hrequired := (hlag fun partition hpartition => by
      by_contra hsome
      exact hnone ⟨partition, hpartition,
        judged_of_lag hnullable (hpartitions partition hpartition) hsome⟩).1
    rw [hnullable] at hrequired
    cases hrequired
  · by_contra hgap
    rw [not_or] at hgap
    obtain ⟨hactive, hraw⟩ := hgap
    have hfresh : ∀ partition ∈ source.partitions,
        Fresh staged source column thresholds.maximumLagSeconds partition := by
      intro partition hpartition
      by_contra hlate
      rcases hpartitions partition hpartition with hjudged | hunjudged
      · exact hraw ⟨partition, hpartition, .inr ⟨hjudged, hlate⟩⟩
      · exact hraw ⟨partition, hpartition, .inl hunjudged⟩
    refine hunsound ⟨fun partition hpartition => ?_, fun partition hpartition =>
      ⟨mem_partitions_of_fresh (hfresh partition hpartition), column, hcolumn,
        hfresh partition hpartition⟩⟩
    by_contra hmissing
    by_cases hmem : partition ∈ source.partitions
    · exact hmissing (mem_partitions_of_fresh (hfresh partition hmem))
    · exact hactive ⟨partition, hpartition, hmem, hmissing⟩

theorem ready_of_overlooks (hcolumn : resolveOffsetBoundaryColumn source = some column)
    (h : Overlooks active staged source column thresholds) :
    offsetReadiness active staged source thresholds = .ready := by
  refine (offsetReadiness_eq_ready_iff hcolumn).mpr ⟨h.stagedRows, h.ratio, h.counted,
    fun partition hpartition => (passes_iff hcolumn hpartition _).mpr
      (h.partitions partition hpartition), fun hnone => ?_⟩
  exfalso
  cases hnullable : column.nullable with
  | true =>
    obtain ⟨partition, hpartition, hjudged⟩ := h.judged hnullable
    exact lag_ne_none_of_judged hjudged (hnone partition hpartition)
  | false =>
    have hempty : source.partitions = [] := by
      rw [eq_nil_iff_forall_not_mem]
      intro partition hpartition
      exact lag_ne_none_of_required hcolumn hnullable hpartition (hnone partition hpartition)
    have hcounted := h.counted
    rw [hempty, countP_nil, Nat.le_zero, length_eq_zero_iff] at hcounted
    rcases h.gap with ⟨partition, hpartition, -⟩ | ⟨partition, hpartition, -⟩
    · rw [hcounted] at hpartition
      cases hpartition
    · rw [hempty] at hpartition
      cases hpartition

theorem not_readySound_of_overlooks (hcolumn : resolveOffsetBoundaryColumn source = some column)
    (h : Overlooks active staged source column thresholds) :
    ¬ ReadySound active staged source thresholds.maximumLagSeconds := by
  rintro ⟨hactive, hraw⟩
  rcases h.gap with ⟨partition, hpartition, -, hmissing⟩ | ⟨partition, hpartition, hbad⟩
  · exact hmissing (hactive partition hpartition)
  · obtain ⟨-, column', hcolumn', hfresh⟩ := hraw partition hpartition
    rw [hcolumn, Option.some_inj] at hcolumn'
    subst hcolumn'
    rcases hbad with hunjudged | ⟨-, hlate⟩
    · obtain ⟨first, last, hfirst, -⟩ := hfresh
      rw [reachedBoundary_of_unjudged hunjudged] at hfirst
      cases hfirst
    · exact hlate hfresh

theorem offsetReadiness_ne_ready (hcolumn : resolveOffsetBoundaryColumn source = none) :
    offsetReadiness active staged source thresholds ≠ .ready := by
  have hname : (offsetSummary active staged source).lagBoundaryColumn = none := by
    simp [offsetSummary, hcolumn]
  rw [offsetReadiness, buildRootAssessment]
  simp only [not_true_eq_false, if_false, if_true, offsetAssessment, hname]
  split_ifs <;> simp

end Lemmas

/-- A ready relation is sound if and only if nothing is overlooked. -/
theorem ready_sound_iff (active staged : OffsetRelation) (source : SourceRelation)
    (thresholds : ReadinessThresholds) :
    (offsetReadiness active staged source thresholds = .ready →
        ReadySound active staged source thresholds.maximumLagSeconds) ↔
      ¬ ∃ column, resolveOffsetBoundaryColumn source = some column ∧
        Overlooks active staged source column thresholds := by
  constructor
  · rintro h ⟨column, hcolumn, hoverlooks⟩
    exact not_readySound_of_overlooks hcolumn hoverlooks (h (ready_of_overlooks hcolumn hoverlooks))
  · intro h hready
    cases hcolumn : resolveOffsetBoundaryColumn source with
    | none => exact absurd hready (offsetReadiness_ne_ready hcolumn)
    | some column =>
      by_contra hunsound
      exact h ⟨column, hcolumn, overlooks_of_ready hcolumn hready hunsound⟩

/-- Rows with one offset in each of the partitions. -/
def sampleRelation (partitions : List ℤ) : OffsetRelation :=
  { rows := partitions.map fun partition => ⟨partition, some 7⟩
    offsetNullable := false
    offset_typed := by simp }

def sampleSource (partitions : List ℤ) : SourceRelation :=
  { rows := partitions.map fun partition => ⟨partition, 7, some 1700000000000, some 1700000000100⟩
    timestamp := .nullable
    landedAt := .required
    timestamp_typed := by simp
    landedAt_typed := by simp }

/-- A raw partition without active rows makes up in the count for an active partition that has
neither raw nor staged rows. -/
theorem not_ready_sound :
    ¬ ∀ (active staged : OffsetRelation) (source : SourceRelation)
      (thresholds : ReadinessThresholds),
      offsetReadiness active staged source thresholds = .ready →
        ReadySound active staged source thresholds.maximumLagSeconds := by
  intro h
  have hready : offsetReadiness (sampleRelation [0, 1]) (sampleRelation [0, 2])
      (sampleSource [0, 2]) ⟨30, 1 / 2⟩ = .ready := by
    decide +kernel
  have hmissing := (h _ _ _ _ hready).activeStaged 1 (by decide +kernel)
  revert hmissing
  decide +kernel

end SqlTide.Readiness
