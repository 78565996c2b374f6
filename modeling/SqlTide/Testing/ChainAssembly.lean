import SqlTide.Baselines.ModelFingerprint
import SqlTide.Testing.ComparisonResults
import SqlTide.Testing.LoadedTests

/-!
# Assembly of SQL tests

The relations that a test names are resolved to mocks, or to the compiled models, which are
assembled as further common table expressions behind those they read. Every expectation becomes a
comparison, every assertion a query without rows. How references are found and rewritten, and which
columns a query has, is left to the SQL analysis.
-/

namespace SqlTide.Testing

open Adapters Baselines Foundations

inductive AssemblyFailure where
  /-- `SqlTestAssemblyError`. -/
  | assembly (message : String)
  /-- `PipelineCompileError`, and the `SqlAnalysisError` of references that cannot be read. -/
  | analysis (message : String)
  | keyError (name : String)
  /-- The bound on the loop of the model is used up. -/
  | exhausted
  deriving DecidableEq, Repr

/-- What the SQL analysis does, in one dialect. -/
structure SqlAnalysis where
  extractReferences : String → Except String (List String)
  replaceRefs : String → (String → Option String) → Except String String
  inferProjectionNames : String → Except String (List String)

def assembledModelCtePrefix : String := "__model__"

structure SqlTestChainAssembler where
  loadedTest : LoadedSqlTest
  compiledPipelines : List CompiledPipeline
  analysis : SqlAnalysis

/-- What an assembler has assembled so far; dictionaries are lists of their entries. -/
structure AssembledChain where
  assembledCteByName : List (String × String) := []
  assembledPositionByName : List (String × ℕ) := []
  assembledCtes : List (String × String) := []
  usedMockCteNames : List String := []
  deriving DecidableEq, Repr

namespace SqlTestChainAssembler

variable (assembler : SqlTestChainAssembler)

def filePath : String := assembler.loadedTest.filePath

def payload : SqlTestModelPayload := assembler.loadedTest.payload

/-- `_build_registry`. -/
def registry : List (String × CompiledModel) :=
  assembler.compiledPipelines.flatMap fun compiledPipeline =>
    compiledPipeline.models.map fun compiledModel => (compiledModel.key.name, compiledModel)

def sourceNames : List String :=
  assembler.compiledPipelines.filterMap fun compiledPipeline => compiledPipeline.source.map (·.name)

def mockCteByName : List (String × String) :=
  assembler.payload.mocks.map fun mock => (mock.name, mock.cteName)

def cyclicMessage (logicalName : String) : String :=
  "SQL test '" ++ assembler.filePath ++ "' encountered a cyclic dependency while assembling '" ++
    logicalName ++ "'"

def unresolvedMessage (logicalName : String) : String :=
  let suggestionPrefix :=
    if logicalName ∈ assembler.sourceNames then sourceCtePrefix else refCtePrefix
  let targetModelNames := ", ".intercalate
    (assembler.payload.expectedTargets.map fun cte => removePrefix cte.name expectedCtePrefix)
  "SQL test '" ++ assembler.filePath ++ "' targets '" ++ targetModelNames ++
    "', but dependency '" ++
    logicalName ++ "' cannot be resolved. Add `" ++ suggestionPrefix ++ logicalName ++
    "` to mock it directly."

def resolvedCteName (chain : AssembledChain) (logicalName : String) :
    Except AssemblyFailure String :=
  match dictGet assembler.mockCteByName logicalName with
  | some mockCteName => .ok mockCteName
  | none =>
    match dictGet chain.assembledCteByName logicalName with
    | some cteName => .ok cteName
    | none => .error (.keyError logicalName)

def rewrite (sql : String) (resolver : List (String × String)) : Except AssemblyFailure String :=
  (assembler.analysis.replaceRefs sql (dictGet resolver)).mapError .analysis

def assemble (chain : AssembledChain) (logicalName : String) (entry : CompiledModel) :
    Except AssemblyFailure AssembledChain := do
  let resolver ← entry.references.mapM fun parsedRef => do
    return (parsedRef.name, ← assembler.resolvedCteName chain parsedRef.name)
  let cteName := assembledModelCtePrefix ++ logicalName
  let sql ← assembler.rewrite entry.authoredSql resolver
  return { chain with
    assembledPositionByName :=
      chain.assembledPositionByName ++ [(logicalName, chain.assembledCtes.length)]
    assembledCtes := chain.assembledCtes ++ [(cteName, sql)]
    assembledCteByName := chain.assembledCteByName ++ [(logicalName, cteName)] }

/-- The loop of `resolve`; the stack ends where the list begins. -/
def resolveLoop : ℕ → List (String × Bool) → List String → AssembledChain →
    Except AssemblyFailure AssembledChain
  | _, [], _, chain => .ok chain
  | 0, _ :: _, _, _ => .error .exhausted
  | fuel + 1, (currentName, expanded) :: pending, active, chain =>
    match dictGet assembler.mockCteByName currentName with
    | some mockCteName =>
      resolveLoop fuel pending active
        { chain with usedMockCteNames := mockCteName :: chain.usedMockCteNames }
    | none =>
      if (dictGet chain.assembledCteByName currentName).isSome then
        resolveLoop fuel pending active chain
      else if expanded then
        match dictGet assembler.registry currentName with
        | none => .error (.keyError currentName)
        | some entry => do
          let chain ← assembler.assemble chain currentName entry
          if currentName ∈ active then
            resolveLoop fuel pending (active.erase currentName) chain
          else .error (.keyError currentName)
      else if currentName ∈ active then .error (.assembly (assembler.cyclicMessage currentName))
      else
        match dictGet assembler.registry currentName with
        | none => .error (.assembly (assembler.unresolvedMessage currentName))
        | some entry =>
          resolveLoop fuel
            (entry.references.map (·.name, false) ++ (currentName, true) :: pending)
            (currentName :: active) chain

/-- As many turns as the names of all models and of all their references. -/
def resolutionBound : ℕ :=
  1 + ((dictItems assembler.registry).map fun item => item.2.references.length + 1).sum

def resolve (chain : AssembledChain) (logicalName : String) :
    Except AssemblyFailure (String × AssembledChain) := do
  let chain ← assembler.resolveLoop assembler.resolutionBound [(logicalName, false)] [] chain
  return (← assembler.resolvedCteName chain logicalName, chain)

def assembledPosition (chain : AssembledChain) (logicalName : String) : Except AssemblyFailure ℕ :=
  match dictGet chain.assembledPositionByName logicalName with
  | some position => .ok position
  | none => .error (.keyError logicalName)

def unreachableMockWarnings (chain : AssembledChain) : List String :=
  (assembler.payload.mocks.filter fun mock => mock.cteName ∉ chain.usedMockCteNames).map fun mock =>
    "SQL test '" ++ assembler.filePath ++ "' never reaches mock '" ++ mock.cteName ++ "'"

/-- `authored_ctes` of `_build_model_test_case`. -/
def authoredCtes : List (String × String) :=
  assembler.loadedTest.authoredCtes.map fun cte => (cte.name, cte.query)

def wrapWithCtes (query : String) (ctes : List (String × String)) : String :=
  if ctes = [] then query
  else "WITH\n" ++ ",\n".intercalate (ctes.map fun cte => cte.1 ++ " AS (\n" ++ cte.2 ++ "\n)") ++
    "\n" ++ query

def deriveColumnNames (query label : String) (ctes : List (String × String)) :
    Except AssemblyFailure (List String) :=
  (assembler.analysis.inferProjectionNames (wrapWithCtes query ctes)).mapError fun error =>
    .assembly ("SQL test '" ++ assembler.filePath ++ "' cannot resolve " ++ label ++ " columns: " ++
      error)

def outputColumnTypeByName (entry : CompiledModel) : List (String × String) :=
  entry.outputColumns.map fun column => (column.name, column.type)

def rejectUnknownColumns (targetModelName : String) (expectedColumnNames : List String)
    (outputColumnTypeByName : List (String × String)) : Except AssemblyFailure Unit :=
  let missingColumns := expectedColumnNames.filter fun columnName =>
    dictGet outputColumnTypeByName columnName = none
  if missingColumns ≠ [] then
    .error (.assembly ("SQL test '" ++ assembler.filePath ++
      "' expects columns not produced by '" ++ targetModelName ++ "': " ++
      ", ".intercalate missingColumns))
  else .ok ()

def buildTypedExpectedQuery (expectedQuery : String) (expectedColumnNames : List String)
    (outputColumnTypeByName : List (String × String)) : Except AssemblyFailure String := do
  let castProjections ← expectedColumnNames.mapM fun columnName =>
    match dictGet outputColumnTypeByName columnName with
    | some columnType =>
      .ok ("    CAST(" ++ columnName ++ " AS " ++ columnType ++ ") AS " ++ columnName)
    | none => .error (.keyError columnName)
  return "SELECT\n" ++ ",\n".intercalate castProjections ++ "\nFROM (\n" ++ expectedQuery ++
    "\n) AS expected_source"

def buildChainStep (chain : AssembledChain) (entry : CompiledModel) (expectedTarget : SqlTestCte)
    (targetModelName actualCteName : String) : Except AssemblyFailure SqlTestChainStep := do
  let expectedColumnNames ← assembler.deriveColumnNames expectedTarget.query
    ("__expected__ " ++ targetModelName) assembler.authoredCtes
  assembler.rejectUnknownColumns targetModelName expectedColumnNames (outputColumnTypeByName entry)
  let expectedQuery ← buildTypedExpectedQuery expectedTarget.query expectedColumnNames
    (outputColumnTypeByName entry)
  return {
    targetModelName := targetModelName
    expectedColumnNames := expectedColumnNames
    ctes := assembler.authoredCtes ++ chain.assembledCtes
    actualQuery := "SELECT " ++ ", ".intercalate expectedColumnNames ++ " FROM " ++ actualCteName
    expectedQuery := some expectedQuery }

def expectedTargetName (expectedTarget : SqlTestCte) : String :=
  removePrefix expectedTarget.name expectedCtePrefix

/-- One turn of the loop of `build_chain_steps`. -/
def addChainStep (progress : List (ℕ × SqlTestChainStep) × AssembledChain)
    (expectedTarget : SqlTestCte) :
    Except AssemblyFailure (List (ℕ × SqlTestChainStep) × AssembledChain) := do
  let targetModelName := expectedTargetName expectedTarget
  match dictGet assembler.registry targetModelName with
  | none => .error (.assembly ("SQL test '" ++ assembler.filePath ++ "' targets unknown model '" ++
      targetModelName ++ "'"))
  | some entry =>
    let (actualCteName, chain) ← assembler.resolve progress.2 targetModelName
    let position ← assembledPosition chain targetModelName
    let step ← assembler.buildChainStep chain entry expectedTarget targetModelName actualCteName
    return (progress.1 ++ [(position, step)], chain)

def buildChainSteps (chain : AssembledChain) :
    Except AssemblyFailure (List SqlTestChainStep × AssembledChain) := do
  let (steps, chain) ← assembler.payload.expectedTargets.foldlM assembler.addChainStep ([], chain)
  return ((steps.insertionSort fun step step' => step.1 ≤ step'.1).map (·.2), chain)

/-- One turn of the loop over the references of an assertion. -/
def resolveReference (progress : List (String × String) × AssembledChain) (referenceName : String) :
    Except AssemblyFailure (List (String × String) × AssembledChain) := do
  let (cteName, chain) ← assembler.resolve progress.2 referenceName
  return (progress.1 ++ [(referenceName, cteName)], chain)

/-- One turn of the loop of `build_assertion_steps`. -/
def addAssertionStep (progress : List SqlTestAssertionStep × AssembledChain)
    (assertion : SqlTestCte) :
    Except AssemblyFailure (List SqlTestAssertionStep × AssembledChain) := do
  let assertionName := removePrefix assertion.name assertCtePrefix
  let references ← (assembler.analysis.extractReferences assertion.query).mapError .analysis
  let (resolver, chain) ← references.foldlM assembler.resolveReference ([], progress.2)
  let resolvedQuery ← assembler.rewrite assertion.query resolver
  let ctes := assembler.authoredCtes ++ chain.assembledCtes
  let columnNames ← assembler.deriveColumnNames resolvedQuery ("__assert__ " ++ assertionName) ctes
  return (progress.1 ++ [⟨assertionName, columnNames, ctes, resolvedQuery⟩], chain)

def buildAssertionSteps (chain : AssembledChain) :
    Except AssemblyFailure (List SqlTestAssertionStep × AssembledChain) :=
  assembler.payload.assertions.foldlM assembler.addAssertionStep ([], chain)

/-- `_build_model_test_case`, with the query as `render_comparison_query` renders it. -/
def buildModelTestCase (renderComparison : List AdapterSetDifferenceTarget → String) :
    Except AssemblyFailure SqlTestCase := do
  let (targetCases, chain) ← assembler.buildChainSteps {}
  let (assertionCases, chain) ← assembler.buildAssertionSteps chain
  return {
    filePath := assembler.filePath
    query := renderComparison (targetCases.map chainTarget ++ assertionCases.map assertionTarget)
    targetCases := targetCases
    assertionCases := assertionCases
    warnings := assembler.unreachableMockWarnings chain
    name := assembler.loadedTest.name
    testIndex := assembler.loadedTest.testIndex }

end SqlTestChainAssembler

end SqlTide.Testing
