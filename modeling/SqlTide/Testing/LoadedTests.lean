import SqlTide.Foundations.PythonText
import SqlTide.SqlText.References

/-!
# The common table expressions of SQL tests

By their names, the expressions of a test are mocks, expectations, assertions or helpers. Mocks and
helpers are authored: they are put before every query of the test.
-/

namespace SqlTide.Testing

open Foundations

def removePrefix (text start : String) : String :=
  if startsWith text start then String.ofList (text.toList.drop start.toList.length) else text

structure SqlTestCte where
  name : String
  query : String
  deriving DecidableEq, Repr

structure SqlTestMock where
  cteName : String
  name : String
  relationType : SqlText.RelationType
  query : String
  deriving DecidableEq, Repr

structure SqlTestModelPayload where
  mocks : List SqlTestMock
  expectedTargets : List SqlTestCte
  assertions : List SqlTestCte
  deriving DecidableEq, Repr

inductive SqlTestParseError where
  | unsupportedCte (filePath name : String)
  | macroModeCte (filePath name : String)
  | missingSuffix (filePath start : String)
  | reservedCte (filePath name : String)
  | noMocks (filePath : String)
  | noTargets (filePath : String)
  deriving DecidableEq, Repr

def SqlTestParseError.message : SqlTestParseError → String
  | .unsupportedCte filePath name => "SQL test '" ++ filePath ++
      "' mode 'model' does not support CTE '" ++ name ++ "'; SQLTide supports __source__, " ++
      "__ref__, __expected__, __assert__, __macro_actual__, and __macro_expected__"
  | .macroModeCte filePath name => "SQL test '" ++ filePath ++
      "' is mode 'model' but defines macro-test CTE '" ++ name ++ "'; use TEST (mode macro)"
  | .missingSuffix filePath start => "SQL test '" ++ filePath ++ "' must use " ++ start ++
      "<name> to identify a target"
  | .reservedCte filePath name =>
    "SQL test '" ++ filePath ++ "' uses reserved helper CTE name '" ++ name ++ "'"
  | .noMocks filePath => "SQL test '" ++ filePath ++
      "' must define at least one __ref__* or __source__* mock CTE"
  | .noTargets filePath => "SQL test '" ++ filePath ++
      "' must define at least one __expected__<model> or __assert__<assertion> CTE"

def expectedCtePrefix : String := "__expected__"

def refCtePrefix : String := "__ref__"

def sourceCtePrefix : String := "__source__"

def assertCtePrefix : String := "__assert__"

def macroActualCteName : String := "__macro_actual__"

def macroExpectedCteName : String := "__macro_expected__"

def reservedSqlTestCteNames : List String :=
  ["__actual", "__expected__typed", "__actual__projected", "__missing__", "__unexpected__"]

def unsupportedModeCteNames : List String :=
  ["__udf_actual__", "__udf_expected__", "__table_fn_actual__", "__table_fn_expected__"]

def unsupportedModeCtePrefixes : List String := ["__macro__", "__seed__", "__dbt_ref__"]

section

variable (filePath : String)

/-- `_reject_unsupported_cte` in model mode. -/
def rejectUnsupportedCte (cte : SqlTestCte) : Except SqlTestParseError Unit :=
  if cte.name ∈ unsupportedModeCteNames ∨ unsupportedModeCtePrefixes.any (startsWith cte.name) then
    .error (.unsupportedCte filePath cte.name)
  else .ok ()

def rejectMacroModeCte (cte : SqlTestCte) : Except SqlTestParseError Unit :=
  if cte.name = macroActualCteName ∨ cte.name = macroExpectedCteName then
    .error (.macroModeCte filePath cte.name)
  else .ok ()

def rejectReservedCte (cte : SqlTestCte) : Except SqlTestParseError Unit :=
  if cte.name ∈ reservedSqlTestCteNames then .error (.reservedCte filePath cte.name) else .ok ()

def requireSuffix (cte : SqlTestCte) (start : String) : Except SqlTestParseError Unit :=
  if removePrefix cte.name start = "" then .error (.missingSuffix filePath start) else .ok ()

/-- One of the two branches of `_mock_for`. -/
def mockWithPrefix (cte : SqlTestCte) (start : String) (relationType : SqlText.RelationType) :
    Except SqlTestParseError (Option SqlTestMock) := do
  requireSuffix filePath cte start
  return some ⟨cte.name, removePrefix cte.name start, relationType, cte.query⟩

def mockFor (cte : SqlTestCte) : Except SqlTestParseError (Option SqlTestMock) :=
  if startsWith cte.name refCtePrefix then mockWithPrefix filePath cte refCtePrefix .ref
  else if startsWith cte.name sourceCtePrefix then mockWithPrefix filePath cte
    sourceCtePrefix .source
  else .ok none

/-- The four lists of `classify_model_test_ctes`. -/
structure ClassifiedCtes where
  authoredCtes : List SqlTestCte
  mocks : List SqlTestMock
  expectedTargets : List SqlTestCte
  assertions : List SqlTestCte

def classifyCte (classified : ClassifiedCtes) (cte : SqlTestCte) :
    Except SqlTestParseError ClassifiedCtes := do
  rejectUnsupportedCte filePath cte
  rejectMacroModeCte filePath cte
  match ← mockFor filePath cte with
  | some mock =>
    return { classified with
      authoredCtes := classified.authoredCtes ++ [cte], mocks := classified.mocks ++ [mock] }
  | none =>
    if startsWith cte.name expectedCtePrefix then do
      requireSuffix filePath cte expectedCtePrefix
      return { classified with expectedTargets := classified.expectedTargets ++ [cte] }
    else if startsWith cte.name assertCtePrefix then do
      requireSuffix filePath cte assertCtePrefix
      return { classified with assertions := classified.assertions ++ [cte] }
    else do
      rejectReservedCte filePath cte
      return { classified with authoredCtes := classified.authoredCtes ++ [cte] }

def validateModelCompleteness (classified : ClassifiedCtes) : Except SqlTestParseError Unit :=
  if classified.mocks = [] then .error (.noMocks filePath)
  else if classified.expectedTargets = [] ∧ classified.assertions = [] then
    .error (.noTargets filePath)
  else .ok ()

def classifyModelTestCtes (ctes : List SqlTestCte) :
    Except SqlTestParseError (List SqlTestCte × SqlTestModelPayload) := do
  let classified ← ctes.foldlM (classifyCte filePath) ⟨[], [], [], []⟩
  validateModelCompleteness filePath classified
  return (classified.authoredCtes,
    ⟨classified.mocks, classified.expectedTargets, classified.assertions⟩)

end

/-- Every mock is one of the authored expressions, under its own name and with its query. -/
def MocksAuthored (authoredCtes : List SqlTestCte) (mocks : List SqlTestMock) : Prop :=
  ∀ mock ∈ mocks, ⟨mock.cteName, mock.query⟩ ∈ authoredCtes

section

variable {filePath : String} {cte : SqlTestCte}

theorem mockFor_eq_some {mock : SqlTestMock} (h : mockFor filePath cte = .ok (some mock)) :
    mock.cteName = cte.name ∧ mock.query = cte.query := by
  have hmock : ∀ start relationType,
      mockWithPrefix filePath cte start relationType = .ok (some mock) →
        mock.cteName = cte.name ∧ mock.query = cte.query := by
    intro start relationType h
    obtain ⟨-, -, hmock⟩ := bind_eq_ok.mp h
    obtain rfl := Option.some.inj (Except.ok.inj hmock)
    exact ⟨rfl, rfl⟩
  unfold mockFor at h
  split_ifs at h
  · exact hmock _ _ h
  · exact hmock _ _ h
  · cases Except.ok.inj h

theorem mocksAuthored_classifyCte {classified classified' : ClassifiedCtes}
    (h : classifyCte filePath classified cte = .ok classified')
    (hmocks : MocksAuthored classified.authoredCtes classified.mocks) :
    MocksAuthored classified'.authoredCtes classified'.mocks := by
  obtain ⟨-, -, h⟩ := bind_eq_ok.mp h
  obtain ⟨-, -, h⟩ := bind_eq_ok.mp h
  obtain ⟨mock, hmock, h⟩ := bind_eq_ok.mp h
  have hmore : MocksAuthored (classified.authoredCtes ++ [cte]) classified.mocks :=
    fun mock hmem => List.mem_append_left _ (hmocks mock hmem)
  cases mock with
  | some mock =>
    cases h
    obtain ⟨hname, hquery⟩ := mockFor_eq_some hmock
    intro mock' hmem
    rcases List.mem_append.mp hmem with hmem | hmem
    · exact hmore mock' hmem
    · rw [List.mem_singleton.mp hmem, hname, hquery]
      simp
  | none =>
    dsimp only at h
    split_ifs at h
    · obtain ⟨-, -, h⟩ := bind_eq_ok.mp h
      exact Except.ok.inj h ▸ hmocks
    · obtain ⟨-, -, h⟩ := bind_eq_ok.mp h
      exact Except.ok.inj h ▸ hmocks
    · obtain ⟨-, -, h⟩ := bind_eq_ok.mp h
      exact Except.ok.inj h ▸ hmore

theorem mocksAuthored_classifyModelTestCtes {ctes authoredCtes : List SqlTestCte}
    {payload : SqlTestModelPayload}
    (h : classifyModelTestCtes filePath ctes = .ok (authoredCtes, payload)) :
    MocksAuthored authoredCtes payload.mocks := by
  obtain ⟨classified, hfold, h⟩ := bind_eq_ok.mp h
  obtain ⟨-, -, h⟩ := bind_eq_ok.mp h
  obtain ⟨rfl, rfl⟩ := Prod.mk.inj (Except.ok.inj h)
  exact foldlM_invariant (I := fun classified =>
      MocksAuthored classified.authoredCtes classified.mocks)
    (fun cte _ classified classified' h => mocksAuthored_classifyCte h)
    (by simp [MocksAuthored]) hfold

end

/-- `LoadedSqlTest` in model mode. -/
structure LoadedSqlTest where
  filePath : String
  authoredCtes : List SqlTestCte
  payload : SqlTestModelPayload
  mocks_authored : MocksAuthored authoredCtes payload.mocks
  name : Option String := none
  testIndex : ℕ := 1

/-- `_build_loaded_test` in model mode. -/
def buildLoadedTest (filePath : String) (name : Option String) (ctes : List SqlTestCte)
    (testIndex : ℕ) : Except SqlTestParseError LoadedSqlTest :=
  match h : classifyModelTestCtes filePath ctes with
  | .error e => .error e
  | .ok (authoredCtes, payload) => .ok
    { filePath, authoredCtes, payload, name, testIndex
      mocks_authored := mocksAuthored_classifyModelTestCtes h }

end SqlTide.Testing
