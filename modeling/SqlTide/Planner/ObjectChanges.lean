import SqlTide.Compiler.DesiredGraph

/-!
# Desired against actual objects

The comparison that decides which objects a deployment creates or rebuilds. Each desired object
is compared with the actual object of its key: tables by their columns and storage, views by
their queries, up to the canonical form of SQL. What parses and renders SQL is a parameter.
-/

namespace SqlTide.Planner

open Foundations Compiler

/-- What the SQL analysis offers to planning: the canonical form of a query, and of a type.
Either fails on text that does not parse. -/
structure SqlAnalyzer where
  canonicalizeSql : String → Option String
  normalizeDataType : String → Option String

inductive DeploymentPlanError
  | type (message : String)
  | graph (error : GraphInputError)
  deriving DecidableEq, Repr

structure ActualKafkaTable where
  name : String
  spec : KafkaTableSpec
  deriving DecidableEq, Repr

structure ActualTable where
  name : String
  spec : TableSpec
  deriving DecidableEq, Repr

structure ActualMaterializedView where
  name : String
  spec : MaterializedViewSpec
  deriving DecidableEq, Repr

structure ActualView where
  name : String
  spec : ViewSpec
  deriving DecidableEq, Repr

inductive ActualObject
  | kafkaTable (table : ActualKafkaTable)
  | table (table : ActualTable)
  | materializedView (view : ActualMaterializedView)
  | view (view : ActualView)
  deriving DecidableEq, Repr

def ActualObject.key : ActualObject → ObjectKey
  | .kafkaTable t => ⟨.kafkaTable, t.name⟩
  | .table t => ⟨.table, t.name⟩
  | .materializedView v => ⟨.materializedView, v.name⟩
  | .view v => ⟨.view, v.name⟩

structure ActualState where
  objects : List ActualObject
  deriving DecidableEq, Repr

/-- `actual_by_key.get(key)`: of two objects with one key the last is kept. -/
def ActualState.objectByKey (S : ActualState) (key : ObjectKey) : Option ActualObject :=
  S.objects.reverse.find? fun object => object.key = key

inductive PlannedChangeType
  | rebuild
  | create
  | noOp
  deriving DecidableEq, Repr

inductive TableSchemaChangeKind
  | nonBreaking
  | breaking
  deriving DecidableEq, Repr

inductive TableSchemaSeedCompatibility
  | seedable
  | nonSeedable
  deriving DecidableEq, Repr

structure PlannedObjectChange where
  key : ObjectKey
  changeType : PlannedChangeType
  forceFullRefresh : Bool := false
  forcedStartTime : Option String := none
  schemaChangeKind : Option TableSchemaChangeKind := none
  seedCompatibility : Option TableSchemaSeedCompatibility := none
  deriving DecidableEq, Repr

section

variable (A : SqlAnalyzer)

def normalizeType (typeSql : String) : Except DeploymentPlanError String :=
  match A.normalizeDataType typeSql with
  | some normalized => .ok normalized
  | none => .error (.type ("Could not normalize ClickHouse type '" ++ typeSql ++ "'"))

/-- `_column_matches`: the types are compared only where the names agree. -/
def columnMatches (desired actual : Column) : Except DeploymentPlanError Bool :=
  if desired.name ≠ actual.name then .ok false
  else do
    let desiredType ← normalizeType A desired.type
    let actualType ← normalizeType A actual.type
    return desiredType = actualType ∧ desired.default = actual.default

def allColumnsMatch : List (Column × Column) → Except DeploymentPlanError Bool
  | [] => .ok true
  | (desired, actual) :: rest => do
    if ← columnMatches A desired actual then allColumnsMatch rest else return false

def columnsMatch (desiredColumns actualColumns : List Column) :
    Except DeploymentPlanError Bool :=
  if desiredColumns.length ≠ actualColumns.length then .ok false
  else allColumnsMatch A (desiredColumns.zip actualColumns)

/-- `_queries_equal`: a query that does not parse equals only itself. -/
def queriesEqual (desiredQuery actualQuery : String) : Bool :=
  desiredQuery = actualQuery ||
    match A.canonicalizeSql desiredQuery, A.canonicalizeSql actualQuery with
    | some desired, some actual => desired = actual
    | _, _ => false

/-- `_table_specs_equal`: the storage is compared only where the columns agree. -/
def tableSpecsEqual (desired actual : TableSpec) : Except DeploymentPlanError Bool := do
  if ← columnsMatch A desired.columns actual.columns then
    return desired.storage = actual.storage
  else return false

def specsEqual : DesiredObject → ActualObject → Except DeploymentPlanError Bool
  | .table desired, .table actual => tableSpecsEqual A desired.spec actual.spec
  | .kafkaTable desired, .kafkaTable actual => .ok (desired.spec = actual.spec)
  | .materializedView desired, .materializedView actual =>
    .ok (desired.spec.sourceTableName = actual.spec.sourceTableName ∧
      desired.spec.targetTableName = actual.spec.targetTableName ∧
      queriesEqual A desired.spec.query actual.spec.query)
  | .view desired, .view actual => .ok (queriesEqual A desired.spec.query actual.spec.query)
  | _, _ => .ok false

inductive ColumnDifference
  | typeChange
  | addOnly
  | removeOnly
  | addAndRemove
  deriving DecidableEq, Repr

/-- `{column.name: column for column in columns}[name]`. -/
def columnByName (columns : List Column) (name : String) : Option Column :=
  columns.reverse.find? fun column => column.name = name

/-- Whether one of the names that both sides have stands for different columns. -/
def anyColumnChanged (desiredColumns actualColumns : List Column) :
    List String → Except DeploymentPlanError Bool
  | [] => .ok false
  | name :: names => do
    let changed ←
      match columnByName desiredColumns name, columnByName actualColumns name with
      | some desired, some actual => do
        let unchanged ← columnsMatch A [desired] [actual]
        return !unchanged
      | _, _ => .ok false
    let rest ← anyColumnChanged desiredColumns actualColumns names
    return changed || rest

def classifyTableColumnDifference (desiredColumns actualColumns : List Column) :
    Except DeploymentPlanError (Option ColumnDifference) := do
  let desiredNames := desiredColumns.map (·.name)
  let actualNames := actualColumns.map (·.name)
  let added := desiredNames.any (· ∉ actualNames)
  let removed := actualNames.any (· ∉ desiredNames)
  let changed ← anyColumnChanged A desiredColumns actualColumns
    (desiredNames.filter (· ∈ actualNames))
  return match changed, added, removed with
    | true, _, _ => some .typeChange
    | false, true, false => some .addOnly
    | false, false, true => some .removeOnly
    | false, true, true => some .addAndRemove
    | false, false, false => none

def tableColumnDifference : DesiredObject → ActualObject →
    Except DeploymentPlanError (Option ColumnDifference)
  | .table desired, .table actual =>
    classifyTableColumnDifference A desired.spec.columns actual.spec.columns
  | _, _ => .ok none

def classifyTableSchemaChangeKind (desired : DesiredObject) (actual : ActualObject) :
    Except DeploymentPlanError (Option TableSchemaChangeKind) := do
  let difference ← tableColumnDifference A desired actual
  return difference.map fun
    | .addOnly => .nonBreaking
    | _ => .breaking

def classifyTableSeedCompatibility (desired : DesiredObject) (actual : ActualObject) :
    Except DeploymentPlanError (Option TableSchemaSeedCompatibility) := do
  let difference ← tableColumnDifference A desired actual
  return difference.map fun
    | .typeChange => .nonSeedable
    | _ => .seedable

def classifyObjectChangeType (desired : DesiredObject) (actual : ActualObject)
    (forceFullRefresh : Bool) (forcedStartTime : Option String) :
    Except DeploymentPlanError PlannedChangeType :=
  if forceFullRefresh then .ok .rebuild
  else if forcedStartTime.isSome then .ok .rebuild
  else do
    let equal ← specsEqual A desired actual
    return if equal then .noOp else .rebuild

/-- What a build forces: full refreshes, and replays from a start time. -/
structure PlanningOptions where
  fullRefreshKeys : Finset ObjectKey := ∅
  startTimeKeys : Finset ObjectKey := ∅
  startTime : Option String := none

variable (options : PlanningOptions) (S : ActualState)

def forcedStartTime (key : ObjectKey) : Option String :=
  if key ∈ options.startTimeKeys then options.startTime else none

def classifyObject (desired : DesiredObject) : Except DeploymentPlanError PlannedObjectChange :=
  match S.objectByKey desired.key with
  | none => .ok
    { key := desired.key
      changeType := .create
      forceFullRefresh := desired.key ∈ options.fullRefreshKeys
      forcedStartTime := forcedStartTime options desired.key }
  | some actual => do
    let changeType ← classifyObjectChangeType A desired actual
      (desired.key ∈ options.fullRefreshKeys) (forcedStartTime options desired.key)
    let schemaChangeKind ← classifyTableSchemaChangeKind A desired actual
    let seedCompatibility ← classifyTableSeedCompatibility A desired actual
    return {
      key := desired.key
      changeType := changeType
      forceFullRefresh := desired.key ∈ options.fullRefreshKeys
      forcedStartTime := forcedStartTime options desired.key
      schemaChangeKind := schemaChangeKind
      seedCompatibility := seedCompatibility }

def classifyObjectChanges (D : DesiredState) :
    Except DeploymentPlanError (List PlannedObjectChange) :=
  D.objects.mapM (classifyObject A options S)

end

/-- The object with the key is to be created or rebuilt. -/
def Changed (changes : List PlannedObjectChange) (key : ObjectKey) : Prop :=
  ∃ change ∈ changes, change.key = key ∧
    (change.changeType = .create ∨ change.changeType = .rebuild)

section

variable {A : SqlAnalyzer} {options : PlanningOptions} {S : ActualState} {D : DesiredState}

theorem key_of_classifyObject {desired : DesiredObject} {change : PlannedObjectChange}
    (h : classifyObject A options S desired = .ok change) : change.key = desired.key := by
  unfold classifyObject at h
  split at h
  · cases h
    rfl
  · obtain ⟨_, -, h⟩ := bind_eq_ok.mp h
    obtain ⟨_, -, h⟩ := bind_eq_ok.mp h
    obtain ⟨_, -, h⟩ := bind_eq_ok.mp h
    cases h
    rfl

theorem classified_known {changes : List PlannedObjectChange}
    (h : classifyObjectChanges A options S D = .ok changes) :
    ∀ change ∈ changes, change.key ∈ D.keys := by
  intro change hchange
  obtain ⟨object, hobject, hclassify⟩ := (mem_of_mapM_eq_ok h change).mp hchange
  rw [key_of_classifyObject hclassify]
  exact List.mem_map_of_mem hobject

theorem changed_of_absent {changes : List PlannedObjectChange}
    (h : classifyObjectChanges A options S D = .ok changes) {key : ObjectKey}
    (hkey : key ∈ D.keys) (hnone : S.objectByKey key = none) : Changed changes key := by
  obtain ⟨object, hobject, rfl⟩ := List.mem_map.mp hkey
  have hclassify : classifyObject A options S object = .ok
      { key := object.key
        changeType := .create
        forceFullRefresh := object.key ∈ options.fullRefreshKeys
        forcedStartTime := forcedStartTime options object.key } := by
    rw [classifyObject, hnone]
  exact ⟨_, (mem_of_mapM_eq_ok h _).mpr ⟨object, hobject, hclassify⟩, rfl, .inl rfl⟩

end

end SqlTide.Planner
