import SqlTide.Adapters.SetDifference
import SqlTide.Foundations.Failures

/-!
# Results of SQL tests

The rows of a comparison are decoded to the missing and the unexpected rows of each target, and a
target has passed when it has neither.
-/

namespace SqlTide.Testing

open Adapters

structure ComparisonRow where
  caseIndex : ℕ
  diffType : String
  values : List (Option String)
  multiplicity : ℕ

/-- Missing and unexpected rows, case by case. -/
structure ComparisonRows where
  missing : List (List (List (Option String)))
  unexpected : List (List (List (Option String)))

inductive SqlTestExecutionError where
  | invalidRow (filePath : String)
  | unsupportedDiffType (filePath diffType : String)
  | unsupportedComparison
  deriving DecidableEq, Repr

def SqlTestExecutionError.message : SqlTestExecutionError → String
  | .invalidRow filePath =>
    "SQL test query for '" ++ filePath ++ "' returned an invalid comparison row"
  | .unsupportedDiffType filePath diffType =>
    "SQL test query for '" ++ filePath ++ "' returned unsupported diff type '" ++ diffType ++ "'"
  | .unsupportedComparison =>
    "The selected adapter does not support SQL-test set-difference comparison"

def decodeRow (filePath : String) (caseCount : ℕ) (rawRow : List Cell) :
    Except SqlTestExecutionError ComparisonRow :=
  match rawRow with
  | [.int caseIndex, .str diffType, .list values, .int multiplicity] =>
    if 0 ≤ caseIndex ∧ caseIndex < caseCount ∧ 0 < multiplicity then
      .ok ⟨caseIndex.toNat, diffType, values, multiplicity.toNat⟩
    else .error (.invalidRow filePath)
  | _ => .error (.invalidRow filePath)

/-- The row is added to its case, as often as it occurs. -/
def ComparisonRow.extend (row : ComparisonRow) (cases : List (List (List (Option String)))) :
    List (List (List (Option String))) :=
  cases.modify row.caseIndex (· ++ List.replicate row.multiplicity row.values)

def addRow (filePath : String) (caseCount : ℕ) (rows : ComparisonRows) (rawRow : List Cell) :
    Except SqlTestExecutionError ComparisonRows := do
  let decoded ← decodeRow filePath caseCount rawRow
  if decoded.diffType = "missing" then
    return { rows with missing := decoded.extend rows.missing }
  else if decoded.diffType = "unexpected" then
    return { rows with unexpected := decoded.extend rows.unexpected }
  else .error (.unsupportedDiffType filePath decoded.diffType)

def decodeComparisonRows (rows : List (List Cell)) (caseCount : ℕ) (filePath : String) :
    Except SqlTestExecutionError ComparisonRows :=
  rows.foldlM (addRow filePath caseCount)
    ⟨List.replicate caseCount [], List.replicate caseCount []⟩

structure SqlTestChainStep where
  targetModelName : String
  expectedColumnNames : List String
  ctes : List (String × String)
  actualQuery : String
  expectedQuery : Option String

structure SqlTestAssertionStep where
  name : String
  columnNames : List String
  ctes : List (String × String)
  query : String

structure SqlTestCase where
  filePath : String
  query : String
  targetCases : List SqlTestChainStep
  assertionCases : List SqlTestAssertionStep
  warnings : List String
  name : Option String
  testIndex : ℕ

def chainTarget (step : SqlTestChainStep) : AdapterSetDifferenceTarget where
  name := step.targetModelName
  columnNames := step.expectedColumnNames
  ctes := step.ctes
  actualQuery := step.actualQuery
  expectedQuery := step.expectedQuery

def assertionTarget (step : SqlTestAssertionStep) : AdapterSetDifferenceTarget where
  name := "assert " ++ step.name
  columnNames := step.columnNames
  ctes := step.ctes
  actualQuery := step.query
  expectedQuery := none

/-- The targets of the comparison of a test case. -/
def SqlTestCase.targets (testCase : SqlTestCase) : List AdapterSetDifferenceTarget :=
  testCase.targetCases.map chainTarget ++ testCase.assertionCases.map assertionTarget

def caseLabels (testCase : SqlTestCase) : List String :=
  testCase.targetCases.map (·.targetModelName) ++
    testCase.assertionCases.map ("assert " ++ ·.name)

def caseColumnNames (testCase : SqlTestCase) : List (List String) :=
  testCase.targetCases.map (·.expectedColumnNames) ++ testCase.assertionCases.map (·.columnNames)

structure SqlTestTargetExecutionResult where
  targetModelName : String
  passed : Bool
  columnNames : List String
  missingRows : List (List (Option String))
  unexpectedRows : List (List (Option String))
  deriving DecidableEq

structure SqlTestExecutionResult where
  filePath : String
  passed : Bool
  targetResults : List SqlTestTargetExecutionResult
  executedSql : String
  warnings : List String
  name : Option String
  testIndex : ℕ
  errorMessage : Option String
  deriving DecidableEq

def targetResult (rows : ComparisonRows) (columnNames : List (List String)) (label : String)
    (index : ℕ) : SqlTestTargetExecutionResult where
  targetModelName := label
  passed := (rows.missing.getD index []).isEmpty && (rows.unexpected.getD index []).isEmpty
  columnNames := columnNames.getD index []
  missingRows := rows.missing.getD index []
  unexpectedRows := rows.unexpected.getD index []

def buildTargetResults (testCase : SqlTestCase) (rows : List (List Cell)) :
    Except SqlTestExecutionError (List SqlTestTargetExecutionResult) := do
  let labels := caseLabels testCase
  let columnNames := caseColumnNames testCase
  let decoded ← decodeComparisonRows rows labels.length testCase.filePath
  return labels.zipIdx.map fun (label, index) => targetResult decoded columnNames label index

/-- The answer of a client to a query is its rows, or the text of a warehouse error. -/
structure AdapterConnection where
  setDifferenceComparison : Bool
  query : String → Except String (List (List Cell))

def executeSqlTest (client : AdapterConnection) (testCase : SqlTestCase) :
    Except SqlTestExecutionError SqlTestExecutionResult :=
  match client.query testCase.query with
  | .error message => .ok {
      filePath := testCase.filePath
      passed := false
      targetResults := []
      executedSql := testCase.query
      warnings := testCase.warnings
      name := testCase.name
      testIndex := testCase.testIndex
      errorMessage := some message }
  | .ok rows => do
    let targetResults ← buildTargetResults testCase rows
    return {
      filePath := testCase.filePath
      passed := targetResults.all (·.passed)
      targetResults
      executedSql := testCase.query
      warnings := testCase.warnings
      name := testCase.name
      testIndex := testCase.testIndex
      errorMessage := none }

def executeSqlTests (testCases : List SqlTestCase) (client : AdapterConnection) :
    Except SqlTestExecutionError (List SqlTestExecutionResult) :=
  if client.setDifferenceComparison then testCases.mapM (executeSqlTest client)
  else .error .unsupportedComparison

end SqlTide.Testing
