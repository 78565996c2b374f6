import SqlTide.Foundations.BagDifference

/-!
# Set difference comparisons

The statement that compares expected and actual rows: for each target, the rows of both queries are
counted in groups, and each group is joined with the same group of the other side. What a statement
evaluates to stands next to its text.
-/

namespace SqlTide.Adapters

open Sql

structure AdapterSetDifferenceTarget where
  name : String
  columnNames : List String
  ctes : List (String × String)
  actualQuery : String
  expectedQuery : Option String
  deriving DecidableEq

/-- `name AS (SELECT .., count() .. GROUP BY ..)`. -/
structure GroupedCountsCte where
  name : String
  query : String
  columnNames : List String

def GroupedCountsCte.text (cte : GroupedCountsCte) : String :=
  let columns := ", ".intercalate cte.columnNames
  cte.name ++ " AS (\n" ++ "SELECT " ++ columns ++ ", count() AS __sqltide_multiplicity\n" ++
    "FROM (\n" ++ cte.query ++ "\n)\n" ++ "GROUP BY " ++ columns ++ "\n)"

def rowValuesText (relationAlias : String) (columnNames : List String) : String :=
  "[" ++ ", ".intercalate (columnNames.map fun column =>
    "CAST(" ++ relationAlias ++ "." ++ column ++ " AS Nullable(String))") ++ "]"

/-- The rows of one direction of a comparison. -/
inductive DifferenceSelect
  | unexpectedRows (index : ℕ) (actualCountsName : String) (columnNames : List String)
  | directionalRows (index : ℕ) (diffType primaryAlias secondaryAlias primaryName secondaryName :
      String) (columnNames : List String)

def DifferenceSelect.text : DifferenceSelect → String
  | .unexpectedRows index actualCountsName columnNames =>
    "SELECT " ++ toString index ++ " AS _case_index, 'unexpected' AS _diff_type,\n" ++
      "       " ++ rowValuesText "actual_rows" columnNames ++ " AS _row_values,\n" ++
      "       actual_rows.__sqltide_multiplicity AS _multiplicity\n" ++
      "FROM " ++ actualCountsName ++ " AS actual_rows"
  | .directionalRows index diffType primaryAlias secondaryAlias primaryName secondaryName
      columnNames =>
    "SELECT " ++ toString index ++ " AS _case_index, '" ++ diffType ++ "' AS _diff_type,\n" ++
      "       " ++ rowValuesText primaryAlias columnNames ++ " AS _row_values,\n" ++
      "       " ++ primaryAlias ++ ".__sqltide_multiplicity - " ++
      "ifNull(" ++ secondaryAlias ++ ".__sqltide_multiplicity, 0) AS _multiplicity\n" ++
      "FROM " ++ primaryName ++ " AS " ++ primaryAlias ++ "\n" ++
      "ALL LEFT JOIN " ++ secondaryName ++ " AS " ++ secondaryAlias ++ "\n" ++
      "ON " ++ " AND ".intercalate (columnNames.map fun column =>
        "isNotDistinctFrom(" ++ primaryAlias ++ "." ++ column ++ ", " ++ secondaryAlias ++ "." ++
          column ++ ")") ++ "\n" ++
      "WHERE " ++ primaryAlias ++ ".__sqltide_multiplicity > " ++
      "ifNull(" ++ secondaryAlias ++ ".__sqltide_multiplicity, 0)"

/-- `WITH .. SELECT .. UNION ALL SELECT ..`. -/
structure TargetComparison where
  ctes : List (String × String)
  counts : List GroupedCountsCte
  selects : List DifferenceSelect

def TargetComparison.text (comparison : TargetComparison) : String :=
  "WITH\n" ++ ",\n".intercalate
      ((comparison.ctes.map fun (name, query) => name ++ " AS (\n" ++ query ++ "\n)") ++
        comparison.counts.map GroupedCountsCte.text) ++
    "\n" ++ "\nUNION ALL\n".intercalate (comparison.selects.map DifferenceSelect.text)

def expectedCountsName (index : ℕ) : String := "__sqltide_expected_counts_" ++ toString index

def actualCountsName (index : ℕ) : String := "__sqltide_actual_counts_" ++ toString index

def renderMissingRows (index : ℕ) (columnNames : List String) : DifferenceSelect :=
  .directionalRows index "missing" "expected_rows" "actual_rows" (expectedCountsName index)
    (actualCountsName index) columnNames

def renderUnexpectedRows (index : ℕ) (columnNames : List String) (expectedEmpty : Bool) :
    DifferenceSelect :=
  if expectedEmpty then .unexpectedRows index (actualCountsName index) columnNames
  else .directionalRows index "unexpected" "actual_rows" "expected_rows" (actualCountsName index)
    (expectedCountsName index) columnNames

def renderSetDifferenceTarget (target : AdapterSetDifferenceTarget) (index : ℕ) :
    TargetComparison where
  ctes := target.ctes
  counts :=
    (target.expectedQuery.map fun query =>
      ⟨expectedCountsName index, query, target.columnNames⟩).toList ++
    [⟨actualCountsName index, target.actualQuery, target.columnNames⟩]
  selects :=
    (target.expectedQuery.map fun _ => renderMissingRows index target.columnNames).toList ++
    [renderUnexpectedRows index target.columnNames target.expectedQuery.isNone]

def renderClickhouseSetDifferenceComparison (targets : List AdapterSetDifferenceTarget) :
    Except String (List TargetComparison) :=
  if targets = [] then .error "ClickHouse comparison requires at least one target"
  else .ok (targets.zipIdx.map fun (target, index) => renderSetDifferenceTarget target index)

def comparisonText (comparisons : List TargetComparison) : String :=
  "\nUNION ALL\n".intercalate (comparisons.map fun comparison => "(\n" ++ comparison.text ++ "\n)")

/-- What a client gets in a column of a row. -/
inductive Cell
  | null
  | bool (value : Bool)
  | int (value : ℤ)
  | str (value : String)
  | list (values : List (Option String))
  deriving DecidableEq

variable {V : Type} [DecidableEq V]

/-- A group, with its columns and its `__sqltide_multiplicity`. -/
structure CountedRow (V : Type) where
  column : String → Option V
  multiplicity : Value

/-- `rowsOf` are the rows of a query that is read behind subqueries, and `missing` is what a left
join puts in the place of a group that has no match. -/
structure Warehouse (V : Type) where
  rowsOf : List (String × String) → String → List (String → Option V)
  castText : V → String
  missing : CountedRow V
  missing_multiplicity : missing.multiplicity.getD 0 = 0

def isNotDistinctFrom (a b : Option V) : Truth := some (decide (a = b))

def ifNull (value : Value) (otherwise : ℤ) : ℤ := value.getD otherwise

/-- The row with the values of the listed columns. -/
def columnOf (columnNames : List String) (values : List (Option V)) (column : String) : Option V :=
  ((columnNames.zip values).lookup column).join

def GroupedCountsCte.rows (warehouse : Warehouse V) (ctes : List (String × String))
    (cte : GroupedCountsCte) : List (CountedRow V) :=
  (groupedCounts ((warehouse.rowsOf ctes cte.query).map fun row => cte.columnNames.map row)).map
    fun (values, count) => ⟨columnOf cte.columnNames values, some count⟩

/-- What the aliases of a statement stand for. -/
abbrev Bound (V : Type) := List (String × CountedRow V)

def Bound.row (bound : Bound V) (missing : CountedRow V) (relationAlias : String) : CountedRow V :=
  (bound.lookup relationAlias).getD missing

def DifferenceSelect.rows (warehouse : Warehouse V) (relation : String → List (CountedRow V)) :
    DifferenceSelect → List (List Cell)
  | .unexpectedRows index actualCountsName columnNames =>
    (relation actualCountsName).map fun actual =>
      [.int index, .str "unexpected",
        .list (columnNames.map fun column => (actual.column column).map warehouse.castText),
        actual.multiplicity.elim .null .int]
  | .directionalRows index diffType primaryAlias secondaryAlias primaryName secondaryName
      columnNames =>
    let bound := fun primary secondary : CountedRow V =>
      Bound.row [(primaryAlias, primary), (secondaryAlias, secondary)] warehouse.missing
    let on := fun primary secondary => columnNames.foldr (fun column truth =>
      both (isNotDistinctFrom ((bound primary secondary primaryAlias).column column)
        ((bound primary secondary secondaryAlias).column column)) truth) (some true)
    let joined := leftJoin (relation primaryName) (relation secondaryName) on warehouse.missing
    (holding joined fun (primary, secondary) =>
        below (some (ifNull (bound primary secondary secondaryAlias).multiplicity 0))
          (bound primary secondary primaryAlias).multiplicity).map fun (primary, secondary) =>
      [.int index, .str diffType,
        .list (columnNames.map fun column =>
          ((bound primary secondary primaryAlias).column column).map warehouse.castText),
        ((bound primary secondary primaryAlias).multiplicity.map
          (· - ifNull (bound primary secondary secondaryAlias).multiplicity 0)).elim .null .int]

def TargetComparison.rows (warehouse : Warehouse V) (comparison : TargetComparison) :
    List (List Cell) :=
  let scope := comparison.counts.map fun cte => (cte.name, cte.rows warehouse comparison.ctes)
  comparison.selects.flatMap
    (DifferenceSelect.rows warehouse fun name => (scope.lookup name).getD [])

def comparisonRows (warehouse : Warehouse V) (comparisons : List TargetComparison) :
    List (List Cell) := comparisons.flatMap (TargetComparison.rows warehouse)

end SqlTide.Adapters
