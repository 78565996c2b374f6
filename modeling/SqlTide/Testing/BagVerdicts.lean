import Mathlib.Data.List.Perm.Basic
import SqlTide.Testing.ComparisonResults

/-!
# Verdicts of SQL tests

A target has passed when its expected and its actual rows are the same bag, and the rows that are
reported for it are the two differences of these bags.
-/

namespace SqlTide.Testing

open Adapters Foundations Sql List

/-- A row of the comparison, before it is written to cells. -/
structure Difference where
  index : ℕ
  missing : Bool
  values : List (Option String)
  count : ℕ

def Difference.cells (difference : Difference) : List Cell :=
  [.int difference.index, .str (if difference.missing then "missing" else "unexpected"),
    .list difference.values, .int difference.count]

theorem Difference.cells_injective : Function.Injective Difference.cells := by
  rintro ⟨index, missing, values, count⟩ ⟨index', missing', values', count'⟩ h
  cases missing <;> cases missing' <;> simp_all [Difference.cells]

/-- The rows of one direction that are reported for a case. -/
def rowsOfCase (differences : List Difference) (missing : Bool) (index : ℕ) :
    List (List (Option String)) :=
  (differences.filter fun difference =>
    difference.missing = missing ∧ difference.index = index).flatMap fun difference =>
      List.replicate difference.count difference.values

variable {differences differences' : List Difference} {caseCount : ℕ} {filePath : String}

theorem decodeRow_cells {difference : Difference} (hindex : difference.index < caseCount)
    (hcount : 0 < difference.count) :
    decodeRow filePath caseCount difference.cells = .ok ⟨difference.index,
      if difference.missing then "missing" else "unexpected", difference.values,
      difference.count⟩ := by
  simp [decodeRow, Difference.cells, hindex, hcount]

theorem rowsOfCase_append (differences differences' : List Difference) (missing : Bool)
    (index : ℕ) :
    rowsOfCase (differences ++ differences') missing index =
      rowsOfCase differences missing index ++ rowsOfCase differences' missing index := by
  rw [rowsOfCase, List.filter_append, flatMap_append]
  rfl

theorem rowsOfCase_append_singleton (differences : List Difference) (difference : Difference)
    (missing : Bool) (index : ℕ) :
    rowsOfCase (differences ++ [difference]) missing index =
      rowsOfCase differences missing index ++
        if difference.missing = missing ∧ difference.index = index then
          List.replicate difference.count difference.values else [] := by
  rw [rowsOfCase_append]
  congr 1
  rw [rowsOfCase, filter_singleton]
  by_cases hcase : difference.missing = missing ∧ difference.index = index <;> simp [hcase]

/-- The rows of all cases. -/
def casesOf (differences : List Difference) (caseCount : ℕ) (missing : Bool) :
    List (List (List (Option String))) :=
  (List.range caseCount).map (rowsOfCase differences missing)

theorem casesOf_append_singleton (differences : List Difference) (difference : Difference)
    (caseCount : ℕ) (missing : Bool) :
    casesOf (differences ++ [difference]) caseCount missing =
      if difference.missing = missing then
        (casesOf differences caseCount missing).modify difference.index
          (· ++ List.replicate difference.count difference.values)
      else casesOf differences caseCount missing := by
  rw [casesOf, casesOf]
  split_ifs with hmissing
  · apply ext_getElem?
    intro i
    rw [getElem?_modify, getElem?_map, getElem?_map]
    cases hi : (List.range caseCount)[i]? with
    | none => rfl
    | some index =>
      obtain rfl : i = index := by
        rw [getElem?_range] at hi
        · exact Option.some.inj hi
        · exact (List.getElem?_eq_some_iff.mp hi).1.trans_eq length_range
      simp only [Option.map_some, rowsOfCase_append_singleton, hmissing, true_and]
      split_ifs <;> simp
  · apply map_congr_left
    intro index _
    rw [rowsOfCase_append_singleton, if_neg (fun hcase => hmissing hcase.1), append_nil]

/-- Row by row, from the last one. -/
theorem decodeComparisonRows_cells
    (h : ∀ difference ∈ differences, difference.index < caseCount ∧ 0 < difference.count) :
    decodeComparisonRows (differences.map Difference.cells) caseCount filePath =
      .ok ⟨casesOf differences caseCount true, casesOf differences caseCount false⟩ := by
  induction differences using reverseRecOn with
  | nil =>
    have hnone : ∀ missing, casesOf [] caseCount missing = List.replicate caseCount [] := by
      intro missing
      rw [casesOf, map_eq_replicate_iff.mpr]
      · rw [length_range]
      · exact fun _ _ => rfl
    rw [hnone, hnone]
    rfl
  | append_singleton differences difference ih =>
    have hdecoded := ih fun d hd => h d (List.mem_append_left _ hd)
    obtain ⟨hindex, hcount⟩ := h difference (by simp)
    rw [decodeComparisonRows] at hdecoded ⊢
    rw [map_append, foldlM_append, hdecoded]
    simp only [map_singleton, foldlM_cons, foldlM_nil, bind, Except.bind, addRow,
      decodeRow_cells hindex hcount, casesOf_append_singleton]
    cases difference.missing with
    | true => rfl
    | false => rfl

section Groups

variable {V : Type} {warehouse : Warehouse V} {columnNames : List String}
  {values values' : List (Option V)} {bag primary secondary : List (List (Option V))}
  {relation : String → List (CountedRow V)} {index : ℕ}
  {diffType primaryAlias secondaryAlias primaryName secondaryName : String}

/-- The rows of a counts subquery over a bag. -/
def countedRow (columnNames : List String) (group : List (Option V) × ℕ) : CountedRow V :=
  ⟨columnOf columnNames group.1, some group.2⟩

/-- Rows that have a value for each of the columns. -/
def HasColumns (columnNames : List String) (bag : List (List (Option V))) : Prop :=
  ∀ values ∈ bag, ∃ row : String → Option V, values = columnNames.map row

theorem columnOf_map (row : String → Option V) {column : String} (h : column ∈ columnNames) :
    columnOf columnNames (columnNames.map row) column = row column := by
  rw [columnOf]
  induction columnNames with
  | nil => cases h
  | cons first columnNames ih =>
    rw [map_cons, zip_cons_cons, lookup_cons]
    by_cases heq : column = first
    · subst heq
      simp
    · have hne : (column == first) = false := by simpa using heq
      rw [hne]
      exact ih ((mem_cons.mp h).resolve_left heq)

theorem map_columnOf (row : String → Option V) :
    columnNames.map (columnOf columnNames (columnNames.map row)) = columnNames.map row :=
  map_congr_left fun _ hcolumn => columnOf_map row hcolumn

theorem hasColumns_map (rows : List (String → Option V)) :
    HasColumns columnNames (rows.map fun row => columnNames.map row) := by
  intro values hvalues
  obtain ⟨row, -, rfl⟩ := List.mem_map.mp hvalues
  exact ⟨row, rfl⟩

theorem countsNames_ne (index : ℕ) : expectedCountsName index ≠ actualCountsName index := by
  intro h
  exact absurd ((String.append_left_inj _).mp h) (by decide)

def castRow (warehouse : Warehouse V) (values : List (Option V)) : List (Option String) :=
  values.map (Option.map warehouse.castText)

variable {count i : ℕ} {row : String → Option V} {target : AdapterSetDifferenceTarget}
  {targets : List AdapterSetDifferenceTarget}

theorem castRow_countedRow (h : values = columnNames.map row) :
    (columnNames.map fun column =>
      ((countedRow columnNames (values, count)).column column).map warehouse.castText) =
      castRow warehouse values := by
  rw [castRow, countedRow, h, map_map]
  apply map_congr_left
  intro column hcolumn
  exact congrArg (Option.map warehouse.castText) (columnOf_map row hcolumn)

theorem map_castRow_eq_zero {bag : Multiset (List (Option V))} {rows : List (List (Option String))}
    (h : (rows : Multiset (List (Option String))) = bag.map (castRow warehouse)) :
    rows.isEmpty = true ↔ bag = 0 := by
  rw [List.isEmpty_iff, ← Multiset.coe_eq_zero, h, Multiset.map_eq_zero]

theorem Bound.row_primary (primary secondary missing : CountedRow V) :
    Bound.row [(primaryAlias, primary), (secondaryAlias, secondary)] missing primaryAlias =
      primary := by
  simp [Bound.row]

theorem Bound.row_secondary (h : primaryAlias ≠ secondaryAlias)
    (primary secondary missing : CountedRow V) :
    Bound.row [(primaryAlias, primary), (secondaryAlias, secondary)] missing secondaryAlias =
      secondary := by
  have hne : (secondaryAlias == primaryAlias) = false := by simpa using h.symm
  simp [Bound.row, lookup_cons, hne]

/-- The groups of one direction, as they are reported. -/
def reportGroups (warehouse : Warehouse V) (index : ℕ) (missing : Bool)
    (groups : List (List (Option V) × ℕ)) : List Difference :=
  groups.map fun group => ⟨index, missing, castRow warehouse group.1, group.2⟩

theorem rowsOfCase_of_other {missing : Bool} (h : ∀ difference ∈ differences,
    ¬ (difference.missing = missing ∧ difference.index = index)) :
    rowsOfCase differences missing index = [] := by
  rw [rowsOfCase, filter_eq_nil_iff.mpr]
  · rfl
  · intro difference hdifference
    simpa using h difference hdifference

theorem rowsOfCase_reportGroups (missing : Bool) (groups : List (List (Option V) × ℕ)) :
    rowsOfCase (reportGroups warehouse index missing groups) missing index =
      (expandGroups groups).map (castRow warehouse) := by
  rw [rowsOfCase, List.filter_eq_self.mpr, reportGroups, flatMap_map, expandGroups, map_flatMap]
  · apply flatMap_congr
    intro group _
    rw [map_replicate]
  · intro difference hdifference
    obtain ⟨group, -, rfl⟩ := List.mem_map.mp hdifference
    simp

variable [DecidableEq V]

/-- The condition of a directional join. -/
def sameColumns (columnNames : List String) (primary secondary : CountedRow V) : Truth :=
  columnNames.foldr (fun column truth =>
    both (isNotDistinctFrom (primary.column column) (secondary.column column)) truth) (some true)

theorem sameColumns_eq_true {primary secondary : CountedRow V} :
    sameColumns columnNames primary secondary = some true ↔
      columnNames.map primary.column = columnNames.map secondary.column := by
  rw [sameColumns]
  induction columnNames with
  | nil => simp
  | cons column columnNames ih =>
    rw [foldr_cons, both_eq_true, ih, map_cons, map_cons, List.cons.injEq,
      isNotDistinctFrom, Option.some.injEq, decide_eq_true_eq]

/-- Groups match when they are of the same row, NULLs included. -/
theorem sameColumns_countedRow {count' : ℕ} {row' : String → Option V}
    (h : values = columnNames.map row) (h' : values' = columnNames.map row') :
    sameColumns columnNames (countedRow columnNames (values, count))
      (countedRow columnNames (values', count')) = some true ↔ values = values' := by
  rw [sameColumns_eq_true, countedRow, countedRow, h, h', map_columnOf, map_columnOf]

theorem pairwise_sameColumns (hsecondary : HasColumns columnNames secondary) (l : CountedRow V) :
    ((groupedCounts secondary).map (countedRow columnNames)).Pairwise fun r r' =>
      ¬ (sameColumns columnNames l r = some true ∧ sameColumns columnNames l r' = some true) := by
  rw [groupedCounts, map_map, pairwise_map]
  apply (nodup_dedup secondary).imp_of_mem
  rintro values values' hvalues hvalues' hne ⟨hmatch, hmatch'⟩
  obtain ⟨row, hrow⟩ := hsecondary values (mem_dedup.mp hvalues)
  obtain ⟨row', hrow'⟩ := hsecondary values' (mem_dedup.mp hvalues')
  rw [sameColumns_eq_true] at hmatch hmatch'
  apply hne
  rw [Function.comp_apply, countedRow, hrow, map_columnOf] at hmatch
  rw [Function.comp_apply, countedRow, hrow', map_columnOf] at hmatch'
  rw [hrow, hrow', ← hmatch, ← hmatch']

/-- The multiplicity of the match, or of what stands for a missing one. -/
theorem multiplicity_match
    (hvalues : values = columnNames.map row) (hsecondary : HasColumns columnNames secondary) :
    ifNull ((holding ((groupedCounts secondary).map (countedRow columnNames))
      (sameColumns columnNames (countedRow columnNames (values, count)))).headD
        warehouse.missing).multiplicity 0 = occurrences secondary values := by
  cases hmatches : holding ((groupedCounts secondary).map (countedRow columnNames))
      (sameColumns columnNames (countedRow columnNames (values, count))) with
  | nil =>
    have hnone : values ∉ secondary := by
      intro hmem
      have hgroup : (values, occurrences secondary values) ∈ groupedCounts secondary :=
        mem_groupedCounts.mpr ⟨hmem, rfl⟩
      exact holding_eq_nil.mp hmatches _ (mem_map_of_mem hgroup)
        ((sameColumns_countedRow hvalues hvalues).mpr rfl)
    rw [occurrences_of_notMem hnone]
    exact warehouse.missing_multiplicity
  | cons r rest =>
    have hr : r ∈ holding ((groupedCounts secondary).map (countedRow columnNames))
        (sameColumns columnNames (countedRow columnNames (values, count))) := by
      rw [hmatches]
      exact mem_cons_self
    obtain ⟨hmem, hmatch⟩ := mem_holding.mp hr
    obtain ⟨⟨values', count'⟩, hgroup, rfl⟩ := List.mem_map.mp hmem
    obtain ⟨hvalues', hcount⟩ := mem_groupedCounts.mp hgroup
    obtain ⟨row', hrow'⟩ := hsecondary values' hvalues'
    obtain rfl := (sameColumns_countedRow hvalues hrow').mp hmatch
    rw [headD_cons]
    exact congrArg Int.ofNat hcount

/-- One direction of a comparison has the groups of one difference. -/
theorem directionalRows_rows (halias : primaryAlias ≠ secondaryAlias)
    (hprimaryRelation : relation primaryName =
      (groupedCounts primary).map (countedRow columnNames))
    (hsecondaryRelation : relation secondaryName =
      (groupedCounts secondary).map (countedRow columnNames))
    (hprimary : HasColumns columnNames primary) (hsecondary : HasColumns columnNames secondary) :
    DifferenceSelect.rows warehouse relation (.directionalRows index diffType primaryAlias
        secondaryAlias primaryName secondaryName columnNames) =
      (groupedDifference primary secondary).map fun group =>
        [.int index, .str diffType, .list (castRow warehouse group.1), .int group.2] := by
  rw [DifferenceSelect.rows, hprimaryRelation, hsecondaryRelation]
  simp only [Bound.row_primary, Bound.row_secondary halias]
  change ((holding (leftJoin _ _ (sameColumns columnNames) _) _).map _) = _
  rw [leftJoin_of_unique (pairwise_sameColumns hsecondary), holding, map_map, filter_map,
    map_map, groupedDifference, map_map]
  have hmatch : ∀ group ∈ groupedCounts primary, ifNull ((holding ((groupedCounts secondary).map
      (countedRow columnNames)) (sameColumns columnNames (countedRow columnNames group))).headD
        warehouse.missing).multiplicity 0 = occurrences secondary group.1 := by
    rintro ⟨values, count⟩ hgroup
    obtain ⟨row, hrow⟩ := hprimary values (mem_groupedCounts.mp hgroup).1
    exact multiplicity_match hrow hsecondary
  apply map_filter_congr
  · intro group hgroup
    simp only [Function.comp_apply, hmatch group hgroup, decide_eq_decide]
    simp [countedRow, below, compared]
  · rintro ⟨values, count⟩ hgroup hmore
    obtain ⟨row, hrow⟩ := hprimary values (mem_groupedCounts.mp hgroup).1
    have hle : occurrences secondary values ≤ count := le_of_lt (by simpa using hmore)
    simp only [Function.comp_apply, hmatch _ hgroup, castRow_countedRow hrow]
    simp [countedRow, Nat.cast_sub hle]

/-- The expected rows of a target, none where they are declared empty. -/
def expectedRows (warehouse : Warehouse V) (target : AdapterSetDifferenceTarget) :
    List (List (Option V)) :=
  ((target.expectedQuery.map (warehouse.rowsOf target.ctes)).getD []).map fun row =>
    target.columnNames.map row

def actualRows (warehouse : Warehouse V) (target : AdapterSetDifferenceTarget) :
    List (List (Option V)) :=
  (warehouse.rowsOf target.ctes target.actualQuery).map fun row => target.columnNames.map row

def targetDifferences (warehouse : Warehouse V) (target : AdapterSetDifferenceTarget)
    (index : ℕ) : List Difference :=
  reportGroups warehouse index true
      (groupedDifference (expectedRows warehouse target) (actualRows warehouse target)) ++
    reportGroups warehouse index false
      (groupedDifference (actualRows warehouse target) (expectedRows warehouse target))

theorem unexpectedRows_rows
    (hrelation : relation primaryName = (groupedCounts primary).map (countedRow columnNames))
    (hprimary : HasColumns columnNames primary) :
    DifferenceSelect.rows warehouse relation (.unexpectedRows index primaryName columnNames) =
      (groupedCounts primary).map fun group =>
        [.int index, .str "unexpected", .list (castRow warehouse group.1), .int group.2] := by
  rw [DifferenceSelect.rows, hrelation, map_map]
  apply map_congr_left
  rintro ⟨values, count⟩ hgroup
  obtain ⟨row, hrow⟩ := hprimary values (mem_groupedCounts.mp hgroup).1
  simp only [Function.comp_apply, castRow_countedRow hrow]
  rfl

/-- The statement of a target has its differences, in both directions. -/
theorem renderSetDifferenceTarget_rows (target : AdapterSetDifferenceTarget) (index : ℕ) :
    (renderSetDifferenceTarget target index).rows warehouse =
      (targetDifferences warehouse target index).map Difference.cells := by
  have hexpected : HasColumns target.columnNames (expectedRows warehouse target) := hasColumns_map _
  have hactual : HasColumns target.columnNames (actualRows warehouse target) := hasColumns_map _
  have hreport : ∀ (missing : Bool) (groups : List (List (Option V) × ℕ)),
      (reportGroups warehouse index missing groups).map Difference.cells =
        groups.map fun group => [.int index, .str (if missing then "missing" else "unexpected"),
          .list (castRow warehouse group.1), .int group.2] := by
    intro missing groups
    rw [reportGroups, map_map]
    rfl
  rw [targetDifferences, map_append, hreport, hreport, TargetComparison.rows]
  cases hquery : target.expectedQuery with
  | none =>
    have hempty : expectedRows warehouse target = [] := by simp [expectedRows, hquery]
    rw [hempty, groupedDifference_nil]
    simp only [renderSetDifferenceTarget, hquery, Option.map_none, Option.toList_none, nil_append,
      map_singleton, flatMap_singleton, renderUnexpectedRows, Option.isNone_none, if_true]
    rw [unexpectedRows_rows _ hactual]
    · rfl
    · rw [lookup_cons, beq_self_eq_true]
      rfl
  | some query =>
    have hne : (actualCountsName index == expectedCountsName index) = false := by
      simpa using (countsNames_ne index).symm
    have hrows : expectedRows warehouse target = (warehouse.rowsOf target.ctes query).map fun row =>
        target.columnNames.map row := by
      rw [expectedRows, hquery]
      rfl
    simp only [renderSetDifferenceTarget, hquery, Option.map_some, Option.toList_some,
      singleton_append, map_cons, map_nil, flatMap_cons, flatMap_nil,
      renderUnexpectedRows, Option.isNone_some, Bool.false_eq_true, if_false, renderMissingRows]
    rw [directionalRows_rows (by decide) _ _ hexpected hactual,
      directionalRows_rows (by decide) _ _ hactual hexpected]
    · simp
    · rw [lookup_cons, hne, lookup_cons, beq_self_eq_true]
      rfl
    · rw [lookup_cons, beq_self_eq_true, hrows]
      rfl
    · rw [lookup_cons, beq_self_eq_true, hrows]
      rfl
    · rw [lookup_cons, hne, lookup_cons, beq_self_eq_true]
      rfl

/-- The differences of all targets of a statement. -/
def allDifferences (warehouse : Warehouse V) (targets : List AdapterSetDifferenceTarget)
    (start : ℕ) : List Difference :=
  (targets.zipIdx start).flatMap fun (target, index) => targetDifferences warehouse target index

theorem comparisonRows_eq (targets : List AdapterSetDifferenceTarget) :
    comparisonRows warehouse
        (targets.zipIdx.map fun (target, index) => renderSetDifferenceTarget target index) =
      (allDifferences warehouse targets 0).map Difference.cells := by
  rw [comparisonRows, allDifferences, flatMap_map, map_flatMap]
  apply flatMap_congr
  rintro ⟨target, index⟩ _
  exact renderSetDifferenceTarget_rows target index

theorem rowsOfCase_targetDifferences (target : AdapterSetDifferenceTarget) (missing : Bool) :
    rowsOfCase (targetDifferences warehouse target index) missing index =
      (expandGroups (if missing then
        groupedDifference (expectedRows warehouse target) (actualRows warehouse target)
      else groupedDifference (actualRows warehouse target) (expectedRows warehouse target))).map
        (castRow warehouse) := by
  have hother : ∀ (missing' : Bool) (groups : List (List (Option V) × ℕ)), missing' ≠ missing →
      rowsOfCase (reportGroups warehouse index missing' groups) missing index = [] := by
    intro missing' groups hne
    apply rowsOfCase_of_other
    intro difference hdifference hcase
    obtain ⟨group, -, rfl⟩ := List.mem_map.mp hdifference
    exact hne hcase.1
  rw [targetDifferences, rowsOfCase_append]
  cases missing with
  | true =>
    rw [rowsOfCase_reportGroups, hother false _ Bool.false_ne_true, append_nil]
    rfl
  | false =>
    rw [rowsOfCase_reportGroups, hother true _ Bool.false_ne_true.symm, nil_append]
    rfl

variable {difference : Difference} {rows : List (List Cell)} {testCase : SqlTestCase}

theorem mem_targetDifferences (h : difference ∈ targetDifferences warehouse target index) :
    difference.index = index ∧ 0 < difference.count := by
  have hreport : ∀ (missing : Bool) (primary secondary : List (List (Option V))),
      difference ∈ reportGroups warehouse index missing (groupedDifference primary secondary) →
        difference.index = index ∧ 0 < difference.count := by
    intro missing primary secondary hmem
    obtain ⟨group, hgroup, rfl⟩ := List.mem_map.mp hmem
    obtain ⟨group', hgroup', rfl⟩ := List.mem_map.mp hgroup
    exact ⟨rfl, Nat.sub_pos_of_lt (by simpa using (mem_filter.mp hgroup').2)⟩
  rcases mem_append.mp h with h | h
  · exact hreport _ _ _ h
  · exact hreport _ _ _ h

theorem mem_allDifferences {start : ℕ} (h : difference ∈ allDifferences warehouse targets start) :
    start ≤ difference.index ∧ difference.index < start + targets.length ∧
      0 < difference.count := by
  obtain ⟨⟨target, index⟩, hitem, hdifference⟩ := mem_flatMap.mp h
  obtain ⟨hindex, hcount⟩ := mem_targetDifferences hdifference
  obtain ⟨hstart, hend, -⟩ := mem_zipIdx hitem
  rw [hindex]
  exact ⟨hstart, hend, hcount⟩

theorem rowsOfCase_allDifferences (warehouse : Warehouse V) (start : ℕ)
    (h : targets[i]? = some target) (missing : Bool) :
    rowsOfCase (allDifferences warehouse targets start) missing (start + i) =
      rowsOfCase (targetDifferences warehouse target (start + i)) missing (start + i) := by
  induction targets generalizing start i with
  | nil => cases h
  | cons first targets ih =>
    have hsplit : allDifferences warehouse (first :: targets) start =
        targetDifferences warehouse first start ++ allDifferences warehouse targets
          (start + 1) := rfl
    rw [hsplit, rowsOfCase_append]
    cases i with
    | zero =>
      obtain rfl : first = target := Option.some.inj h
      have hlater : rowsOfCase (allDifferences warehouse targets (start + 1)) missing
        start = [] := by
        apply rowsOfCase_of_other
        intro difference hdifference hcase
        have hbounds := mem_allDifferences hdifference
        omega
      rw [Nat.add_zero, hlater, append_nil]
    | succ i =>
      have hrest := ih (start + 1) h
      rw [Nat.add_right_comm, Nat.add_assoc] at hrest
      rw [rowsOfCase_of_other, nil_append, ← hrest]
      intro difference hdifference hcase
      have hbounds := mem_targetDifferences hdifference
      omega

theorem exists_differences_of_perm (h : rows.Perm (differences.map Difference.cells)) :
    ∃ found : List Difference, rows = found.map Difference.cells ∧ found.Perm differences := by
  have hall : rows ∈ Set.range (List.map Difference.cells) := by
    rw [Set.range_list_map]
    intro row hrow
    obtain ⟨difference, -, hcells⟩ := List.mem_map.mp (h.mem_iff.mp hrow)
    exact Set.mem_range.mpr ⟨difference, hcells⟩
  obtain ⟨found, rfl⟩ := hall
  have hperm := (map_perm_map_iff Difference.cells_injective).mp h
  exact ⟨found, rfl, hperm⟩

theorem perm_rowsOfCase (h : differences.Perm differences') (missing : Bool) (index : ℕ) :
    (rowsOfCase differences missing index).Perm (rowsOfCase differences' missing index) :=
  (h.filter _).flatMap_right _

def expectedBag (warehouse : Warehouse V) (target : AdapterSetDifferenceTarget) :
    Multiset (List (Option V)) := expectedRows warehouse target

def actualBag (warehouse : Warehouse V) (target : AdapterSetDifferenceTarget) :
    Multiset (List (Option V)) := actualRows warehouse target

/-- The rows of a result are the differences of the bags of its target, and it has passed when the
bags are equal. -/
structure TargetVerdict (warehouse : Warehouse V) (target : AdapterSetDifferenceTarget)
    (result : SqlTestTargetExecutionResult) : Prop where
  targetModelName : result.targetModelName = target.name
  columnNames : result.columnNames = target.columnNames
  passed : result.passed = true ↔ expectedBag warehouse target = actualBag warehouse target
  missingRows : (result.missingRows : Multiset (List (Option String))) =
    (expectedBag warehouse target - actualBag warehouse target).map (castRow warehouse)
  unexpectedRows : (result.unexpectedRows : Multiset (List (Option String))) =
    (actualBag warehouse target - expectedBag warehouse target).map (castRow warehouse)

theorem coe_rowsOfCase (htarget : targets[i]? = some target)
    (h : differences.Perm (allDifferences warehouse targets 0)) (missing : Bool) :
    (rowsOfCase differences missing i : Multiset (List (Option String))) =
      (if missing then expectedBag warehouse target - actualBag warehouse target
        else actualBag warehouse target - expectedBag warehouse target).map
          (castRow warehouse) := by
  have hcase := rowsOfCase_allDifferences warehouse 0 htarget missing
  rw [Nat.zero_add] at hcase
  rw [Multiset.coe_eq_coe.mpr (perm_rowsOfCase h missing i), hcase, rowsOfCase_targetDifferences,
    ← Multiset.map_coe]
  cases missing with
  | true => exact congrArg _ (expandGroups_groupedDifference _ _)
  | false => exact congrArg _ (expandGroups_groupedDifference _ _)

theorem caseLabels_eq (testCase : SqlTestCase) :
    caseLabels testCase = testCase.targets.map (·.name) := by
  rw [caseLabels, SqlTestCase.targets, map_append, map_map, map_map]
  rfl

theorem caseColumnNames_eq (testCase : SqlTestCase) :
    caseColumnNames testCase = testCase.targets.map (·.columnNames) := by
  rw [caseColumnNames, SqlTestCase.targets, map_append, map_map, map_map]
  rfl

theorem targetVerdict (htarget : targets[i]? = some target)
    (h : differences.Perm (allDifferences warehouse targets 0)) :
    TargetVerdict warehouse target (targetResult
      ⟨casesOf differences targets.length true, casesOf differences targets.length false⟩
      (targets.map (·.columnNames)) target.name i) := by
  have hi : i < targets.length := (List.getElem?_eq_some_iff.mp htarget).1
  have hcase : ∀ missing : Bool,
      (casesOf differences targets.length missing).getD i
        [] = rowsOfCase differences missing i := by
    intro missing
    rw [casesOf, getD_eq_getElem?_getD, getElem?_map, getElem?_range hi]
    rfl
  have hmissing := coe_rowsOfCase htarget h true
  have hunexpected := coe_rowsOfCase htarget h false
  constructor
  case targetModelName => rfl
  case columnNames =>
    simp [targetResult, htarget]
  case passed =>
    simp only [targetResult, hcase, Bool.and_eq_true, map_castRow_eq_zero hmissing,
      map_castRow_eq_zero hunexpected, if_true, Bool.false_eq_true, if_false]
    rw [tsub_eq_zero_iff_le, tsub_eq_zero_iff_le]
    exact ⟨fun hle => le_antisymm hle.1 hle.2, fun heq => ⟨heq.le, heq.ge⟩⟩
  case missingRows =>
    simp only [targetResult, hcase]
    exact hmissing
  case unexpectedRows =>
    simp only [targetResult, hcase]
    exact hunexpected

theorem buildTargetResults_eq (h : rows.Perm (comparisonRows warehouse (testCase.targets.zipIdx.map
      fun (target, index) => renderSetDifferenceTarget target index))) :
    ∃ results, buildTargetResults testCase rows = .ok results ∧
      List.Forall₂ (TargetVerdict warehouse) testCase.targets results := by
  rw [comparisonRows_eq] at h
  obtain ⟨found, rfl, hperm⟩ := exists_differences_of_perm h
  have hvalid : ∀ difference ∈ found,
      difference.index < testCase.targets.length ∧ 0 < difference.count := by
    intro difference hdifference
    have hbounds := mem_allDifferences (hperm.mem_iff.mp hdifference)
    omega
  rw [buildTargetResults, caseLabels_eq, caseColumnNames_eq, length_map,
    decodeComparisonRows_cells hvalid]
  refine ⟨_, rfl, ?_⟩
  rw [forall₂_iff_get]
  refine ⟨by simp, fun i hi hi' => ?_⟩
  have htarget : testCase.targets[i]? = some testCase.targets[i] := getElem?_eq_getElem hi
  simpa using targetVerdict htarget hperm

/-- The answer to the statement of a test case, with its rows in any order. -/
def Answers (warehouse : Warehouse V) (client : AdapterConnection) (testCase : SqlTestCase) :
    Prop :=
  ∃ comparisons rows,
    renderClickhouseSetDifferenceComparison testCase.targets = .ok comparisons ∧
    testCase.query = comparisonText comparisons ∧ client.query testCase.query = .ok rows ∧
    rows.Perm (comparisonRows warehouse comparisons)

/-- The verdict on a test case. -/
structure TestVerdict (warehouse : Warehouse V) (testCase : SqlTestCase)
    (result : SqlTestExecutionResult) : Prop where
  passed : result.passed = true ↔
    ∀ target ∈ testCase.targets, expectedBag warehouse target = actualBag warehouse target
  targetResults : List.Forall₂ (TargetVerdict warehouse) testCase.targets result.targetResults

theorem all_passed_iff {results : List SqlTestTargetExecutionResult}
    (h : List.Forall₂ (TargetVerdict warehouse) targets results) :
    results.all (·.passed) = true ↔
      ∀ target ∈ targets, expectedBag warehouse target = actualBag warehouse target := by
  induction h with
  | nil => simp
  | cons hfirst _ ih =>
    rw [all_cons, Bool.and_eq_true, ih, hfirst.passed, forall_mem_cons]

theorem executeSqlTest_eq {client : AdapterConnection} (h : Answers warehouse client testCase) :
    ∃ result, executeSqlTest client testCase = .ok result ∧
      TestVerdict warehouse testCase result := by
  obtain ⟨comparisons, rows, hrender, -, hquery, hrows⟩ := h
  rw [renderClickhouseSetDifferenceComparison] at hrender
  split_ifs at hrender
  cases hrender
  obtain ⟨results, hresults, hverdicts⟩ := buildTargetResults_eq hrows
  rw [executeSqlTest, hquery]
  simp only [hresults]
  exact ⟨_, rfl, all_passed_iff hverdicts, hverdicts⟩

end Groups

/-- Each target has passed exactly when its two bags are equal, and the rows reported for it are the
differences of the bags. -/
theorem verdicts_are_bag_equality {V : Type} [DecidableEq V] (warehouse : Warehouse V)
    (client : AdapterConnection) (testCases : List SqlTestCase)
    (hcapable : client.setDifferenceComparison = true)
    (hanswers : ∀ testCase ∈ testCases, Answers warehouse client testCase) :
    ∃ results, executeSqlTests testCases client = .ok results ∧
      List.Forall₂ (TestVerdict warehouse) testCases results := by
  rw [executeSqlTests, if_pos hcapable]
  clear hcapable
  induction testCases with
  | nil => exact ⟨[], rfl, .nil⟩
  | cons testCase testCases ih =>
    rw [forall_mem_cons] at hanswers
    obtain ⟨result, hresult, hverdict⟩ := executeSqlTest_eq hanswers.1
    obtain ⟨results, hresults, hverdicts⟩ := ih hanswers.2
    refine ⟨result :: results, ?_, .cons hverdict hverdicts⟩
    rw [mapM_cons, hresult, hresults]
    rfl

/-- Two rows, the first one with a NULL. -/
def exampleRow (first : Bool) (column : String) : Option ℕ :=
  if column = "id" then some (if first then 1 else 2) else if first then none else some 3

def exampleWarehouse : Warehouse ℕ where
  rowsOf := fun _ query =>
    if query = "SELECT id, amount FROM expected" then [exampleRow true, exampleRow true,
      exampleRow false]
    else [exampleRow false, exampleRow true, exampleRow false]
  castText := toString
  missing := ⟨fun _ => none, none⟩
  missing_multiplicity := rfl

def exampleStep : SqlTestChainStep where
  targetModelName := "orders"
  expectedColumnNames := ["id", "amount"]
  ctes := []
  actualQuery := "SELECT id, amount FROM orders"
  expectedQuery := some "SELECT id, amount FROM expected"

def exampleComparisons : List TargetComparison :=
  [renderSetDifferenceTarget (chainTarget exampleStep) 0]

def exampleCase : SqlTestCase where
  filePath := "tests/orders.sql"
  query := comparisonText exampleComparisons
  targetCases := [exampleStep]
  assertionCases := []
  warnings := []
  name := none
  testIndex := 1

def exampleClient : AdapterConnection where
  setDifferenceComparison := true
  query := fun _ => .ok (comparisonRows exampleWarehouse exampleComparisons).reverse

theorem verdicts_are_bag_equality_orders :
    ∃ results, executeSqlTests [exampleCase] exampleClient = .ok results ∧
      List.Forall₂ (TestVerdict exampleWarehouse) [exampleCase] results := by
  apply verdicts_are_bag_equality exampleWarehouse exampleClient [exampleCase] rfl
  intro testCase htestCase
  obtain rfl := mem_singleton.mp htestCase
  exact ⟨exampleComparisons, _, rfl, rfl, rfl, reverse_perm _⟩

end SqlTide.Testing
