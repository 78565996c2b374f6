import SqlTide.Replay.CoverageCapture

/-!
# Capture then replay

If no row arrives in between, the replay of a capture in offset mode reads exactly the rows that
the coverage window selects. The ranges of the capture are the maximal runs of the window; what
lies between two of them is not there, and what lies above the least offset of a window is in it.
-/

namespace SqlTide.Replay

open Foundations List Sql

section

variable {replay : AdapterReplayRequest} {anchor : Relation} {start : Option Relation}

/-- The boundary columns hold integers. -/
def Positioned (replay : AdapterReplayRequest) (anchor : Relation) : Prop :=
  ∀ row ∈ anchor.rows, ∃ p o, row replay.columns.partition = some p ∧
    row replay.columns.offset = some o

/-- At most one start offset for each partition. -/
def UniqueStarts (start : Option Relation) : Prop :=
  ∀ relation, start = some relation →
    relation.rows.Pairwise fun a b => a "_replay_partition" ≠ b "_replay_partition"

/-- What lets a row into the window lets in every row of its partition from there on. -/
structure Upward (replay : AdapterReplayRequest) (keep : Row → Bool) : Prop where
  upward : ∀ (row row' : Row) (o o' : Int),
    row replay.columns.partition = row' replay.columns.partition →
      row replay.columns.offset = some o → row' replay.columns.offset = some o' → o ≤ o' →
        keep row = true → keep row' = true

theorem offsetLowerBoundClause_upward {row row' start : Row} {o o' : Int} {column : String}
    (ho : row column = some o) (ho' : row' column = some o') (hle : o ≤ o')
    (h : offsetLowerBoundClause column true row start = some true) :
    offsetLowerBoundClause column true row' start = some true := by
  unfold offsetLowerBoundClause at h ⊢
  simp only [either_eq_true, isNull_eq_true, if_true, atMost_eq_true] at h ⊢
  rcases h with hnull | ⟨f, x, hf, hx, hfx⟩
  · exact .inl hnull
  · obtain rfl : x = o := Option.some.inj (hx.symm.trans ho)
    exact .inr ⟨f, o', hf, ho', hfx.trans hle⟩

theorem coverageWindow_eq_filter (anchor : Relation)
    (hinclusive : replay.window.lowerBoundInclusive = true) (hstart : UniqueStarts start) :
    ∃ keep, coverageWindow replay anchor start = anchor.rows.filter keep ∧
      Upward replay keep := by
  cases start with
  | none => exact ⟨fun _ => true, by simp [coverageWindow], ⟨fun _ _ _ _ _ _ _ _ h => h⟩⟩
  | some relation =>
    have hunique : ∀ row : Row, relation.rows.Pairwise fun a b =>
        ¬ (equal (row replay.columns.partition) (a "_replay_partition") = some true ∧
          equal (row replay.columns.partition) (b "_replay_partition") = some true) := by
      intro row
      refine (hstart relation rfl).imp ?_
      rintro a b hne ⟨ha, hb⟩
      obtain ⟨p, hp, hap⟩ := equal_eq_true.mp ha
      obtain ⟨q, hq, hbq⟩ := equal_eq_true.mp hb
      obtain rfl : p = q := Option.some.inj (hp.symm.trans hq)
      exact hne (hap.trans hbq.symm)
    refine ⟨_, map_fst_holding_leftJoin hunique, ⟨?_⟩⟩
    intro row row' o o' hpartition ho ho' hle hkeep
    rw [hinclusive] at hkeep ⊢
    simp only [hpartition] at hkeep
    split_ifs at hkeep ⊢ with hmatch
    · simp only [any_eq_true, Bool.and_eq_true, decide_eq_true_eq] at hkeep ⊢
      obtain ⟨start, hmem, hon, hclause⟩ := hkeep
      exact ⟨start, hmem, hon, offsetLowerBoundClause_upward ho ho' hle hclause⟩
    · simp only [decide_eq_true_eq] at hkeep ⊢
      exact offsetLowerBoundClause_upward ho ho' hle hkeep

/-- A row of the window has the partition and the offset. -/
def InWindow (replay : AdapterReplayRequest) (anchor : Relation) (start : Option Relation)
    (p o : Int) : Prop :=
  ∃ row ∈ coverageWindow replay anchor start, row replay.columns.partition = some p ∧
    row replay.columns.offset = some o

theorem mem_coveragePositions {p o : Int} :
    (p, o) ∈ coveragePositions replay anchor start ↔ InWindow replay anchor start p o := by
  simp only [coveragePositions, mem_eraseDups, mem_filterMap, rowPosition,
    Option.map₂_eq_some_iff, InWindow, Prod.mk.injEq]
  constructor
  · rintro ⟨row, hrow, p', o', hp, ho, rfl, rfl⟩
    exact ⟨row, hrow, hp, ho⟩
  · rintro ⟨row, hrow, hp, ho⟩
    exact ⟨row, hrow, p, o, hp, ho, rfl, rfl⟩

theorem maximalRuns_coverageRanges :
    Islands.MaximalRuns (InWindow replay anchor start) (coverageRanges replay anchor start) := by
  have hislands := Islands.maximalRuns_islands
    (nodup_eraseDups ((coverageWindow replay anchor start).filterMap (rowPosition replay.columns)))
  have hruns : Islands.MaximalRuns (InWindow replay anchor start)
      (Islands.islands (coveragePositions replay anchor start)) := by
    have heq : InWindow replay anchor start =
        fun p o => (p, o) ∈ coveragePositions replay anchor start := by
      funext p o
      exact propext mem_coveragePositions.symm
    rw [heq]
    exact hislands
  exact hruns.perm (perm_insertionSort _ _).symm

end

/-- The decoded form of a range. -/
def decodedRange (replay : AdapterReplayRequest) (range : Islands.Range Int) :
    DirectReplayRange :=
  { partitionValue := some (decimalText range.partition)
    sourcePartitionColumnName := optionalText (captureRow replay range)
      "source_partition_column_name"
    sourcePositionColumnName := replay.columns.offset
    sourceTimestampColumnName := optionalText (captureRow replay range)
      "source_timestamp_column_name"
    lowerValue := decimalText range.lower
    upperValue := decimalText range.upper
    replayCutoffValue := decimalText range.upper
    cutoffInclusive := true }

section

variable {runtime : DirectRuntimeReplay} {range : Islands.Range Int}

theorem optionalText_of_lookup {row : CaptureRow} {column text : String}
    (hlookup : row.texts.lookup column = some text) (hne : text ≠ "") :
    optionalText row column = some text := by
  simp [optionalText, hlookup, hne]

theorem requiredText_of_lookup {row : CaptureRow} {column text : String}
    (hlookup : row.texts.lookup column = some text) (hne : text ≠ "") :
    requiredText row column = .ok text := by
  simp [requiredText, optionalText_of_lookup hlookup hne]

theorem partitionKey_ne_empty (partition : String) : partitionKey partition ≠ "" := by
  intro h
  have hlength : ("_replay_partition=" ++ partition).length = "".length := congrArg String.length h
  rw [String.length_append] at hlength
  have hpositive : 0 < "_replay_partition=".length := by decide
  have hempty : "".length = 0 := rfl
  omega

theorem validateCaptureRow_eq_ok (hmode : runtime.replay.mode = .offsets) :
    validateCaptureRow runtime (captureRow runtime.replay range) = .ok () := by
  have hrelation : requiredText (captureRow runtime.replay range) "driving_input_relation_name" =
      .ok runtime.replay.relations.anchor :=
    requiredText_of_lookup rfl runtime.anchor_named
  have hboundaryMode : requiredText (captureRow runtime.replay range) "replay_boundary_mode" =
      .ok "offsets" := requiredText_of_lookup rfl (by decide)
  have hpartition : optionalText (captureRow runtime.replay range) "partition_value" =
      some (decimalText range.partition) :=
    optionalText_of_lookup rfl (decimalText_ne_empty _)
  have hkey : requiredText (captureRow runtime.replay range) "boundary_key" =
      .ok (partitionKey (decimalText range.partition)) :=
    requiredText_of_lookup rfl (partitionKey_ne_empty _)
  simp only [validateCaptureRow, hrelation, hboundaryMode, hpartition, hkey, hmode,
    expectedBoundaryKey, AdapterReplayBoundaryMode.value, ensure, decide_true, if_true, bind,
    Except.bind]

theorem decodeRange_eq_ok :
    decodeRange (captureRow runtime.replay range) = .ok (decodedRange runtime.replay range) := by
  have hposition : requiredText (captureRow runtime.replay range) "source_position_column_name" =
      .ok runtime.replay.columns.offset := requiredText_of_lookup rfl runtime.offset_named
  have hlower : requiredText (captureRow runtime.replay range) "lower_value" =
      .ok (decimalText range.lower) := requiredText_of_lookup rfl (decimalText_ne_empty _)
  have hupper : requiredText (captureRow runtime.replay range) "upper_value" =
      .ok (decimalText range.upper) := requiredText_of_lookup rfl (decimalText_ne_empty _)
  have hcutoff : requiredText (captureRow runtime.replay range) "replay_cutoff_value" =
      .ok (decimalText range.upper) := requiredText_of_lookup rfl (decimalText_ne_empty _)
  have hpartition : optionalText (captureRow runtime.replay range) "partition_value" =
      some (decimalText range.partition) :=
    optionalText_of_lookup rfl (decimalText_ne_empty _)
  simp only [decodeRange, hposition, hlower, hupper, hcutoff, hpartition, bind, Except.bind]
  rfl

/-- The rows of the coverage query decode to the ranges they were made from. -/
theorem decodeCapture_eq_ok (hmode : runtime.replay.mode = .offsets) (anchor : Relation)
    (start : Option Relation) :
    decodeCapture runtime (offsetCoverageRows runtime.replay anchor start) = .ok
      { logicalModelName := runtime.modelName
        drivingInputRelationName := runtime.replay.relations.anchor
        boundaryMode := .offsets
        ranges := (coverageRanges runtime.replay anchor start).map
          (decodedRange runtime.replay) } := by
  have hvalid : (offsetCoverageRows runtime.replay anchor start).mapM
      (validateCaptureRow runtime) =
        .ok ((offsetCoverageRows runtime.replay anchor start).map fun _ => ()) := by
    refine mapM_eq_ok_map fun row hrow => ?_
    obtain ⟨range, -, rfl⟩ := mem_map.mp hrow
    exact validateCaptureRow_eq_ok hmode
  have hranges : (offsetCoverageRows runtime.replay anchor start).mapM decodeRange =
      .ok ((coverageRanges runtime.replay anchor start).map (decodedRange runtime.replay)) := by
    rw [offsetCoverageRows, mapM_map]
    exact mapM_eq_ok_map fun range _ => decodeRange_eq_ok
  simp only [decodeCapture, hvalid, hranges, hmode, bind, Except.bind]
  rfl

end

/-- One value for each key: one of its entries, and as extreme as all of them. -/
structure Merged (below : Int → Int → Prop) (entries values : List (String × Int)) : Prop where
  bound : ∀ key n, (key, n) ∈ entries → ∃ v, (key, v) ∈ values ∧ below n v
  entry : ∀ value ∈ values, value ∈ entries
  nodup : (values.map (·.1)).Nodup

/-- What is asked of the function that picks the more extreme of two values. -/
structure Extreme (below : Int → Int → Prop) (extreme : Int → Int → Int) : Prop where
  trans : ∀ a b c, below a b → below b c → below a c
  refl : ∀ a, below a a
  left : ∀ a b, below a (extreme a b)
  right : ∀ a b, below b (extreme a b)
  picks : ∀ a b, extreme a b = a ∨ extreme a b = b

theorem extreme_max : Extreme (· ≤ ·) max :=
  ⟨fun _ _ _ => le_trans, le_refl, le_max_left, le_max_right, max_choice⟩

theorem extreme_min : Extreme (· ≥ ·) min :=
  ⟨fun _ _ _ h h' => le_trans h' h, le_refl, min_le_left, min_le_right, min_choice⟩

section

variable {below : Int → Int → Prop} {extreme : Int → Int → Int}
  {entries values : List (String × Int)}

theorem mem_of_lookup_eq_some {key : String} {v : Int} (h : values.lookup key = some v) :
    (key, v) ∈ values := by
  induction values with
  | nil => cases h
  | cons other values ih =>
    obtain ⟨key', v'⟩ := other
    rw [lookup_cons] at h
    by_cases heq : key == key'
    · rw [heq] at h
      simp only [beq_iff_eq] at heq
      rw [heq, Option.some.inj h]
      exact mem_cons_self
    · rw [Bool.not_eq_true] at heq
      rw [heq] at h
      exact mem_cons_of_mem _ (ih h)

theorem notMem_of_lookup_eq_none {key : String} (h : values.lookup key = none) :
    key ∉ values.map (·.1) := by
  intro hmem
  obtain ⟨⟨other, v⟩, hvalue, rfl⟩ := mem_map.mp hmem
  have hne := lookup_eq_none_iff.mp h _ hvalue
  simp at hne

theorem Merged.mergeExtreme (hextreme : Extreme below extreme) (h : Merged below entries values)
    (entry : String × Int) :
    Merged below (entries ++ [entry]) (mergeExtreme extreme values entry) := by
  unfold Replay.mergeExtreme
  cases hlookup : values.lookup entry.1 with
  | none =>
    refine ⟨?_, ?_, ?_⟩
    · intro key n hmem
      rcases mem_append.mp hmem with hmem | hmem
      · obtain ⟨v, hv, hle⟩ := h.bound key n hmem
        exact ⟨v, mem_append_left _ hv, hle⟩
      · obtain rfl := mem_singleton.mp hmem
        exact ⟨n, mem_append_right _ (by simp), hextreme.refl n⟩
    · intro value hvalue
      rcases mem_append.mp hvalue with hvalue | hvalue
      · exact mem_append_left _ (h.entry value hvalue)
      · exact mem_append_right _ hvalue
    · rw [map_append]
      refine nodup_append.mpr ⟨h.nodup, by simp, ?_⟩
      intro key hkey other hother
      obtain rfl : other = entry.1 := by simpa using hother
      rintro rfl
      exact notMem_of_lookup_eq_none hlookup hkey
  | some old =>
    have hold := mem_of_lookup_eq_some hlookup
    have hmerged : (entry.1, extreme entry.2 old) ∈ values.map (fun other =>
        if other.1 = entry.1 then (entry.1, extreme entry.2 old) else other) :=
      mem_map.mpr ⟨_, hold, if_pos rfl⟩
    refine ⟨?_, ?_, ?_⟩
    · intro key n hmem
      by_cases hkey : key = entry.1
      · subst hkey
        refine ⟨_, hmerged, ?_⟩
        rcases mem_append.mp hmem with hmem | hmem
        · obtain ⟨v, hv, hle⟩ := h.bound _ n hmem
          obtain rfl : v = old := by
            have hsame := inj_on_of_nodup_map h.nodup hv hold rfl
            exact congrArg Prod.snd hsame
          exact hextreme.trans _ _ _ hle (hextreme.right _ _)
        · obtain rfl : n = entry.2 := congrArg Prod.snd (mem_singleton.mp hmem)
          exact hextreme.left _ _
      · rcases mem_append.mp hmem with hmem | hmem
        · obtain ⟨v, hv, hle⟩ := h.bound key n hmem
          exact ⟨v, mem_map.mpr ⟨_, hv, if_neg hkey⟩, hle⟩
        · exact absurd (congrArg Prod.fst (mem_singleton.mp hmem)) hkey
    · intro value hvalue
      obtain ⟨other, hother, rfl⟩ := mem_map.mp hvalue
      split_ifs with hkey
      · rcases hextreme.picks entry.2 old with hpick | hpick
        · rw [hpick]
          exact mem_append_right _ (by simp)
        · rw [hpick]
          exact mem_append_left _ (h.entry _ hold)
      · exact mem_append_left _ (h.entry _ hother)
    · have hkeys : (values.map fun other =>
          if other.1 = entry.1 then (entry.1, extreme entry.2 old) else other).map (·.1) =
            values.map (·.1) := by
        rw [map_map]
        refine map_congr_left fun other _ => ?_
        by_cases hkey : other.1 = entry.1
        · simp [hkey]
        · simp [hkey]
      rw [hkeys]
      exact h.nodup

theorem merged_foldl (hextreme : Extreme below extreme) (entries : List (String × Int)) :
    Merged below entries (entries.foldl (mergeExtreme extreme) []) := by
  induction entries using reverseRecOn with
  | nil => exact ⟨by simp, by simp, by simp⟩
  | append_singleton entries entry ih =>
    rw [foldl_append]
    exact ih.mergeExtreme hextreme entry

theorem Merged.perm {values' : List (String × Int)} (h : Merged below entries values)
    (hperm : values'.Perm values) : Merged below entries values' where
  bound key n hmem := by
    obtain ⟨v, hv, hle⟩ := h.bound key n hmem
    exact ⟨v, hperm.mem_iff.mpr hv, hle⟩
  entry value hvalue := h.entry value (hperm.mem_iff.mp hvalue)
  nodup := ((hperm.map _).nodup_iff).mpr h.nodup

end

section

variable {replay : AdapterReplayRequest} {below : Int → Int → Prop} {extreme : Int → Int → Int}

theorem exists_extremeByPartition (ranges : List (Islands.Range Int))
    (hextreme : Extreme below extreme)
    {value : DirectReplayRange → String} {bound : Islands.Range Int → Int}
    (hvalue : ∀ range, value (decodedRange replay range) = decimalText (bound range)) :
    ∃ values, extremeByPartition extreme value (ranges.map (decodedRange replay)) = .ok values ∧
      Merged below (ranges.map fun range => (decimalText range.partition, bound range)) values := by
  have hentries : (ranges.map (decodedRange replay)).mapM (partitionEntry value) =
      .ok (ranges.map fun range => (decimalText range.partition, bound range)) := by
    rw [mapM_map]
    refine mapM_eq_ok_map fun range _ => ?_
    simp only [Function.comp_apply, partitionEntry, hvalue, readInt, readDecimal_decimalText]
    rfl
  have hmerged := merged_foldl hextreme
    (ranges.map fun range => (decimalText range.partition, bound range))
  have horders : ((ranges.map fun range => (decimalText range.partition, bound range)).foldl
      (mergeExtreme extreme) []).mapM (fun entry => readInt entry.1) =
        .ok (((ranges.map fun range => (decimalText range.partition, bound range)).foldl
          (mergeExtreme extreme) []).map fun entry => (readDecimal entry.1).getD 0) := by
    refine mapM_eq_ok_map fun entry hentry => ?_
    obtain ⟨range, -, rfl⟩ := mem_map.mp (hmerged.entry entry hentry)
    simp [readInt]
  refine ⟨_, by simp only [extremeByPartition, hentries, horders, bind, Except.bind]; rfl, ?_⟩
  refine hmerged.perm (((perm_insertionSort _ _).map _).trans ?_)
  rw [map_snd_zip (by simp)]

end

/-- The text of an integer is a key of a partition. -/
def DecimalKeys (values : List (String × Int)) : Prop :=
  ∀ value ∈ values, ∃ p, value.1 = decimalText p

/-- A lower bound for each partition that has one. -/
def lowerBoundRowsOf (lowers : List (String × Int)) : List (Int × String) :=
  lowers.map fun lower => ((readDecimal lower.1).getD 0, decimalText lower.2)

def boundaryOf (cutoff : String × Int) : AdapterReplayBoundary :=
  { boundaryKey := partitionKey cutoff.1
    cutoffValue := decimalText cutoff.2
    cutoffInclusive := true
    partitionValue := some cutoff.1 }

def lowerBoundOf (lower : String × Int) : AdapterReplayLowerBound :=
  { value := decimalText lower.2, partitionValue := some lower.1 }

section

variable {replay : AdapterReplayRequest} {lowers cutoffs : List (String × Int)}

theorem mapM_lowerBoundRow (hkeys : DecimalKeys lowers) :
    (lowers.map lowerBoundOf).mapM lowerBoundRow = .ok (lowerBoundRowsOf lowers) := by
  rw [mapM_map]
  refine mapM_eq_ok_map fun lower hlower => ?_
  obtain ⟨p, hp⟩ := hkeys lower hlower
  simp only [Function.comp_apply, lowerBoundOf, lowerBoundRow, hp, readInt,
    readDecimal_decimalText, Option.getD_some]
  rfl

theorem lowerByPartition_eq_some (hkeys : DecimalKeys lowers)
    (hnodup : (lowers.map (·.1)).Nodup) {key : String} {w : Int} (hmem : (key, w) ∈ lowers) :
    lowerByPartition (lowerBoundRowsOf lowers) key = some (decimalText w) := by
  have htext : ∀ lower ∈ lowers, decimalText ((readDecimal lower.1).getD 0) = lower.1 := by
    intro lower hlower
    obtain ⟨p, hp⟩ := hkeys lower hlower
    simp [hp]
  have hfind : (lowerBoundRowsOf lowers).reverse.find? (fun row => decimalText row.1 = key) =
      some ((readDecimal key).getD 0, decimalText w) := by
    apply find?_eq_some_of_unique
    · exact mem_reverse.mpr (mem_map.mpr ⟨_, hmem, rfl⟩)
    · simpa using htext (key, w) hmem
    · intro row hrow hkey
      obtain ⟨lower, hlower, rfl⟩ := mem_map.mp (mem_reverse.mp hrow)
      rw [decide_eq_true_eq, htext lower hlower] at hkey
      obtain rfl := inj_on_of_nodup_map hnodup hlower hmem hkey
      rfl
  rw [lowerByPartition, hfind]
  rfl

/-- A clause keeps the rows of its partition between the two bounds. -/
theorem offsetClause_eq_true (hinclusive : replay.window.lowerBoundInclusive = true)
    (hkeys : DecimalKeys lowers) (hnodup : (lowers.map (·.1)).Nodup) {p v w o q : Int} {row : Row}
    (hmem : (decimalText p, w) ∈ lowers) (hrow : row replay.columns.partition = some q)
    (ho : row replay.columns.offset = some o) :
    offsetClause replay (lowerBoundRowsOf lowers) (boundaryOf (decimalText p, v))
      (decimalText p) row = some true ↔ q = p ∧ w ≤ o ∧ o ≤ v := by
  simp only [offsetClause, boundaryOf, if_true, lowerByPartition_eq_some hkeys hnodup hmem,
    hinclusive, literal, readDecimal_decimalText, hrow, ho, both_eq_true, equal_eq_true,
    atMost_eq_true, Option.some.injEq]
  constructor
  · rintro ⟨⟨⟨x, rfl, rfl⟩, x, y, rfl, rfl, hupper⟩, x', y', rfl, rfl, hlower⟩
    exact ⟨rfl, hlower, hupper⟩
  · rintro ⟨rfl, hlower, hupper⟩
    exact ⟨⟨⟨q, rfl, rfl⟩, o, v, rfl, rfl, hupper⟩, w, o, rfl, rfl, hlower⟩

theorem foldl_either_eq_true {clauses : List (Row → Truth)} {truth : Truth} {row : Row} :
    clauses.foldl (fun truth clause => either truth (clause row)) truth = some true ↔
      truth = some true ∨ ∃ clause ∈ clauses, clause row = some true := by
  induction clauses generalizing truth with
  | nil => simp
  | cons clause clauses ih =>
    rw [foldl_cons, ih, either_eq_true, exists_mem_cons_iff]
    exact or_assoc

end

/-- The keys of the partitions, with a value of each range. -/
def partitionEntries (bound : Islands.Range Int → Int) (ranges : List (Islands.Range Int)) :
    List (String × Int) :=
  ranges.map fun range => (decimalText range.partition, bound range)

section

variable {replay : AdapterReplayRequest} {ranges : List (Islands.Range Int)}
  {lowers cutoffs : List (String × Int)} {capture : DirectReplayCapture}

theorem Merged.decimalKeys {below : Int → Int → Prop} {bound : Islands.Range Int → Int}
    {values : List (String × Int)} (h : Merged below (partitionEntries bound ranges) values) :
    DecimalKeys values := by
  intro value hvalue
  obtain ⟨range, -, rfl⟩ := mem_map.mp (h.entry value hvalue)
  exact ⟨range.partition, rfl⟩

theorem exists_capturedBoundaries (hmode : capture.boundaryMode = .offsets)
    (hranges : capture.ranges = ranges.map (decodedRange replay)) :
    ∃ cutoffs, capturedBoundaries capture = .ok (cutoffs.map boundaryOf) ∧
      Merged (· ≤ ·) (partitionEntries (·.upper) ranges) cutoffs := by
  have hvalue : ∀ range, (decodedRange replay range).replayCutoffValue =
      decimalText range.upper := fun _ => rfl
  obtain ⟨cutoffs, hcutoffs, hmerged⟩ :=
    exists_extremeByPartition ranges extreme_max hvalue
  refine ⟨cutoffs, ?_, hmerged⟩
  rw [capturedBoundaries, if_neg (not_not.mpr hmode), hranges, hcutoffs]
  rfl

theorem exists_capturedLowerBounds (hmode : capture.boundaryMode = .offsets)
    (hranges : capture.ranges = ranges.map (decodedRange replay)) :
    ∃ lowers, capturedLowerBounds capture = .ok (lowers.map lowerBoundOf) ∧
      Merged (· ≥ ·) (partitionEntries (·.lower) ranges) lowers := by
  have hvalue : ∀ range, (decodedRange replay range).lowerValue = decimalText range.lower :=
    fun _ => rfl
  obtain ⟨lowers, hlowers, hmerged⟩ :=
    exists_extremeByPartition ranges extreme_min hvalue
  cases ranges with
  | nil =>
    refine ⟨[], ?_, ⟨by simp [partitionEntries], by simp, by simp⟩⟩
    simp [capturedLowerBounds, hranges]
  | cons range ranges =>
    refine ⟨lowers, ?_, hmerged⟩
    rw [map_cons] at hranges hlowers
    simp only [capturedLowerBounds, hranges, hmode, hlowers, ne_eq, not_true_eq_false, if_false]
    rfl

/-- The clauses of the merged bounds. -/
def mergedClauses (replay : AdapterReplayRequest) (cutoffs lowers : List (String × Int)) :
    List (Row → Truth) :=
  cutoffs.map fun cutoff =>
    offsetClause replay (lowerBoundRowsOf lowers) (boundaryOf cutoff) cutoff.1

/-- The replay of a capture is rendered, from the merged bounds of its ranges. -/
theorem exists_capturedRows (hmode : capture.boundaryMode = .offsets)
    (hranges : capture.ranges = ranges.map (decodedRange replay)) (anchor : Relation) :
    ∃ cutoffs lowers, Merged (· ≤ ·) (partitionEntries (·.upper) ranges) cutoffs ∧
      Merged (· ≥ ·) (partitionEntries (·.lower) ranges) lowers ∧
      capturedRows replay anchor capture = .ok (holding anchor.rows fun row =>
        (mergedClauses replay cutoffs lowers).foldl
          (fun truth clause => either truth (clause row)) (some false)) := by
  obtain ⟨cutoffs, hcutoffs, hupper⟩ := exists_capturedBoundaries hmode hranges
  obtain ⟨lowers, hlowers, hlower⟩ := exists_capturedLowerBounds hmode hranges
  refine ⟨cutoffs, lowers, hupper, hlower, ?_⟩
  have hclauses : (cutoffs.map boundaryOf).mapM
      (boundaryClause replay (lowerBoundRowsOf lowers)) =
        .ok (mergedClauses replay cutoffs lowers) := by
    rw [mapM_map]
    exact mapM_eq_ok_map fun _ _ => rfl
  simp only [capturedRows, hcutoffs, hlowers, mapM_lowerBoundRow hlower.decimalKeys,
    offsetLiteralPredicate, hclauses, bind, Except.bind]
  rfl

/-- Some clause keeps a row just if the row lies between the bounds of its partition. -/
theorem exists_mergedClauses_iff (hinclusive : replay.window.lowerBoundInclusive = true)
    (hupper : Merged (· ≤ ·) (partitionEntries (·.upper) ranges) cutoffs)
    (hlower : Merged (· ≥ ·) (partitionEntries (·.lower) ranges) lowers) {row : Row} {p o : Int}
    (hp : row replay.columns.partition = some p) (ho : row replay.columns.offset = some o) :
    (∃ clause ∈ mergedClauses replay cutoffs lowers, clause row = some true) ↔
      ∃ v w, (decimalText p, v) ∈ cutoffs ∧ (decimalText p, w) ∈ lowers ∧ w ≤ o ∧ o ≤ v := by
  constructor
  · rintro ⟨clause, hclause, htrue⟩
    obtain ⟨⟨key, v⟩, hcutoff, rfl⟩ := mem_map.mp hclause
    obtain ⟨range, hrange, hentry⟩ := mem_map.mp (hupper.entry _ hcutoff)
    obtain ⟨rfl, -⟩ := Prod.mk.inj hentry
    obtain ⟨w, hw, -⟩ := hlower.bound (decimalText range.partition) range.lower
      (mem_map.mpr ⟨range, hrange, rfl⟩)
    obtain ⟨rfl, hbetween⟩ :=
      (offsetClause_eq_true hinclusive hlower.decimalKeys hlower.nodup hw hp ho).mp htrue
    exact ⟨v, w, hcutoff, hw, hbetween⟩
  · rintro ⟨v, w, hcutoff, hw, hbetween⟩
    refine ⟨_, mem_map_of_mem hcutoff, ?_⟩
    exact (offsetClause_eq_true hinclusive hlower.decimalKeys hlower.nodup hw hp ho).mpr
      ⟨rfl, hbetween⟩

/-- Where the window goes upward, a row between the merged bounds is in it, gaps or not. -/
theorem between_merged_iff {anchor : Relation} {start : Option Relation} {keep : Row → Bool}
    (hwindow : coverageWindow replay anchor start = anchor.rows.filter keep)
    (hupward : Upward replay keep)
    (hruns : Islands.MaximalRuns (InWindow replay anchor start) ranges)
    (hupper : Merged (· ≤ ·) (partitionEntries (·.upper) ranges) cutoffs)
    (hlower : Merged (· ≥ ·) (partitionEntries (·.lower) ranges) lowers) {row : Row} {p o : Int}
    (hrow : row ∈ anchor.rows) (hp : row replay.columns.partition = some p)
    (ho : row replay.columns.offset = some o) :
    (∃ v w, (decimalText p, v) ∈ cutoffs ∧ (decimalText p, w) ∈ lowers ∧ w ≤ o ∧ o ≤ v) ↔
      keep row = true := by
  constructor
  · rintro ⟨v, w, -, hw, hwo, -⟩
    obtain ⟨range, hrange, hentry⟩ := mem_map.mp (hlower.entry _ hw)
    obtain ⟨hkey, rfl⟩ := Prod.mk.inj hentry
    obtain rfl := decimalText_injective hkey
    obtain ⟨least, hleast, hleastPartition, hleastOffset⟩ := hruns.filled range hrange
      range.partition range.lower ⟨rfl, le_refl _, hruns.nonempty range hrange⟩
    rw [hwindow, mem_filter] at hleast
    exact hupward.upward least row range.lower o (hleastPartition.trans hp.symm) hleastOffset ho
      hwo hleast.2
  · intro hkeep
    have hposition : InWindow replay anchor start p o := by
      refine ⟨row, ?_, hp, ho⟩
      rw [hwindow]
      exact mem_filter.mpr ⟨hrow, hkeep⟩
    obtain ⟨range, hrange, rfl, hge, hle⟩ := hruns.covers p o hposition
    obtain ⟨v, hv, hupperLe⟩ := hupper.bound _ _ (mem_map_of_mem hrange)
    obtain ⟨w, hw, hlowerLe⟩ := hlower.bound _ _ (mem_map_of_mem hrange)
    exact ⟨v, w, hv, hw, le_trans hlowerLe hge, hle.trans hupperLe⟩

end

/-- The replay of a decoded capture reads the rows of the coverage window, in their number, and
the ranges of the capture are the maximal runs of this window. -/
theorem capturedRows_eq_coverageWindow (runtime : DirectRuntimeReplay) (anchor : Relation)
    (start : Option Relation) (hmode : runtime.replay.mode = .offsets)
    (hpositioned : Positioned runtime.replay anchor) (hstart : UniqueStarts start) :
    ∃ capture ranges,
      decodeCapture runtime (offsetCoverageRows runtime.replay anchor start) = .ok capture ∧
      capture.ranges = ranges.map (decodedRange runtime.replay) ∧
      capturedRows runtime.replay anchor capture =
        .ok (coverageWindow runtime.replay anchor start) ∧
      Islands.MaximalRuns (InWindow runtime.replay anchor start) ranges := by
  obtain ⟨capture, hdecode, hoffsets, hranges⟩ : ∃ capture,
      decodeCapture runtime (offsetCoverageRows runtime.replay anchor start) = .ok capture ∧
      capture.boundaryMode = .offsets ∧ capture.ranges =
        (coverageRanges runtime.replay anchor start).map (decodedRange runtime.replay) :=
    ⟨_, decodeCapture_eq_ok hmode anchor start, rfl, rfl⟩
  refine ⟨capture, coverageRanges runtime.replay anchor start, hdecode, hranges, ?_,
    maximalRuns_coverageRanges⟩
  obtain ⟨cutoffs, lowers, hupper, hlower, hrows⟩ := exists_capturedRows hoffsets hranges anchor
  obtain ⟨keep, hwindow, hupward⟩ :=
    coverageWindow_eq_filter anchor runtime.inclusive hstart
  rw [hrows, hwindow]
  congr 1
  refine filter_congr fun row hrow => ?_
  obtain ⟨p, o, hp, ho⟩ := hpositioned row hrow
  have hiff := between_merged_iff hwindow hupward maximalRuns_coverageRanges hupper hlower
    hrow hp ho
  rw [← exists_mergedClauses_iff runtime.inclusive hupper hlower hp ho] at hiff
  rw [← Bool.coe_iff_coe, decide_eq_true_eq, foldl_either_eq_true, ← hiff]
  simp

/-- An offset replay of the rows of `landing`. -/
def landingReplay : DirectRuntimeReplay where
  modelName := "orders"
  replay :=
    { mode := .offsets
      database := "db"
      relations :=
        { root := "orders", source := "landing", anchor := "landing", target := "orders" }
      replayQuery := { cteNames := [], visible := id, aggregateSemantics := false }
      columns :=
        { partition := "part", offset := "off", timestamp := "", landedAt := "", cursor := "" }
      window :=
        { lowerBoundMode := .forcedTime
          lowerBoundInclusive := true
          forcedStartTime := some "2024-01-01 00:00:00"
          lookbackSeconds := none }
      seedMode := .none
      targetColumnNames := ["part", "off"]
      filterBoundariesAtSource := true }
  inclusive := rfl
  anchor_named := by decide
  offset_named := by decide

def landingRow (position : Int × Int) : Row :=
  rowOf [("part", some position.1), ("off", some position.2)]

/-- A gap and a duplicate in the first partition, and a gap in the second. -/
def landingRows : Relation :=
  { nullable := fun _ => false
    rows := [(0, 1), (0, 3), (0, 4), (0, 4), (0, 7), (1, -2), (1, 9)].map landingRow }

/-- The first partition starts at 3, and the second has no start. -/
def landingStarts : Relation :=
  { nullable := fun _ => true
    rows := [rowOf [("_replay_partition", some 0), ("start_offset", some 3)]] }

theorem positioned_landingRows : Positioned landingReplay.replay landingRows := by
  intro row hrow
  obtain ⟨position, -, rfl⟩ := mem_map.mp hrow
  exact ⟨position.1, position.2, rfl, rfl⟩

theorem uniqueStarts_landingStarts : UniqueStarts (some landingStarts) := by
  intro starts hstarts
  cases hstarts
  exact pairwise_singleton _ _

theorem capturedRows_landing :
    coverageRanges landingReplay.replay landingRows (some landingStarts) =
      [⟨0, 3, 4⟩, ⟨0, 7, 7⟩, ⟨1, -2, -2⟩, ⟨1, 9, 9⟩] ∧
    ∃ capture ranges,
      decodeCapture landingReplay
        (offsetCoverageRows landingReplay.replay landingRows (some landingStarts)) = .ok capture ∧
      capture.ranges = ranges.map (decodedRange landingReplay.replay) ∧
      capturedRows landingReplay.replay landingRows capture =
        .ok (coverageWindow landingReplay.replay landingRows (some landingStarts)) ∧
      Islands.MaximalRuns (InWindow landingReplay.replay landingRows (some landingStarts))
        ranges :=
  ⟨by decide +kernel, capturedRows_eq_coverageWindow landingReplay landingRows
    (some landingStarts) rfl positioned_landingRows uniqueStarts_landingStarts⟩

end SqlTide.Replay
