import SqlTide.Baselines.ModelFingerprint
import SqlTide.Kafka.SourceDrift
import SqlTide.SqlAnalysis.TemplateSubstitution

/-!
# Realization of models

The resources that the adapter makes of a model. Its own definition gives the table and the target,
and so does its fingerprint. What the query reads comes from the sources of the project: the
relation that stands for each reference, and the schedule of a source refreshed from Postgres.
-/

namespace SqlTide.Baselines

open Foundations SqlText SqlAnalysis
open Compiler (LogicalResourceKey LogicalResourceType)

structure ReplayBoundaryColumns where
  partition : Option String := none
  offset : Option String := none
  timestamp : Option String := none
  landedAt : Option String := none
  cursor : Option String := none
  deriving DecidableEq, Repr

structure ExternalTableSourceStep where
  tableName : String
  columns : ReplayBoundaryColumns
  deriving DecidableEq, Repr

structure PostgresRefreshSourceStep where
  host : String
  database : String
  table : String
  user : String
  refresh : String
  port : ℤ := 5432
  passwordEnv : Option String := none
  append : Bool := true
  deriving DecidableEq, Repr

/-- An authored source; a managed one with the Kafka table that the adapter realizes for it. -/
inductive SourceStep
  | kafkaLanding (managed : Kafka.AdapterManagedSource)
  | externalTable (source : ExternalTableSourceStep)
  | postgresRefresh (source : PostgresRefreshSourceStep)
  deriving DecidableEq, Repr

structure CompiledSource where
  name : String
  source : SourceStep
  deriving DecidableEq, Repr

def CompiledSource.key (source : CompiledSource) : LogicalResourceKey := ⟨.source, source.name⟩

def CompiledSource.postgres (source : CompiledSource) : Option PostgresRefreshSourceStep :=
  match source.source with
  | .postgresRefresh step => some step
  | _ => none

/-- An alias of `_external_source_relation_sql`. -/
def aliasExpression (canonical : String) : Option String → List String
  | none => []
  | some column => if column = canonical then [] else [column ++ " AS " ++ canonical]

def externalSourceRelationSql (source : ExternalTableSourceStep) : String :=
  let aliasExpressions := aliasExpression "_replay_partition" source.columns.partition ++
    aliasExpression "_replay_offset" source.columns.offset ++
    aliasExpression "_replay_timestamp" source.columns.timestamp ++
    aliasExpression "_replay_landed_at" source.columns.landedAt ++
    aliasExpression "_replay_cursor" source.columns.cursor
  if aliasExpressions = [] then source.tableName
  else "(SELECT\n    *,\n    " ++ ",\n    ".intercalate aliasExpressions ++ "\nFROM " ++
    source.tableName ++ ")"

def postgresSourceRelationSql (source : PostgresRefreshSourceStep) : String :=
  let password := match source.passwordEnv with
    | none => ""
    | some passwordEnv => "__sqltide_secret__" ++ passwordEnv ++ "__"
  "postgresql('" ++ source.host ++ ":" ++ toString source.port ++ "', '" ++ source.database ++
    "', '" ++ source.table ++ "', '" ++ source.user ++ "', '" ++ password ++ "')"

/-- `realize_clickhouse_source(request=_source_request(source)).relation_name`. -/
def sourceRelationName (source : CompiledSource) : String :=
  match source.source with
  | .kafkaLanding _ => Compiler.rawTableName source.name
  | .externalTable step => step.tableName
  | .postgresRefresh step => postgresSourceRelationSql step

/-- What `compile_model` checks of the references of a table model, with `validate_transform_refs`:
the driving input is referenced without a type, and any other resource as a typed `__ref`. -/
def validateTransformRefs (name source : String) : List SqlReference → Except String Unit
  | [] => .ok ()
  | reference :: references =>
    if reference.name = source then
      if reference.refType ≠ none then
        .error ("Transform '" ++ name ++ "' must not declare ref_type for its driving input '" ++
          source ++ "'")
      else validateTransformRefs name source references
    else if reference.refType = none then
      .error ("Transform '" ++ name ++ "' must declare ref_type for additional ref '" ++
        reference.name ++ "'")
    else if reference.relationType ≠ .ref then
      .error ("Transform '" ++ name ++ "' must reference additional dependency '" ++
        reference.name ++ "' with __ref(...)")
    else validateTransformRefs name source references

structure CompiledProject (tables : PythonTables) where
  sources : List CompiledSource
  pipelines : List CompiledPipeline
  model_key : ∀ model ∈ projectModels pipelines, model.key.resourceType = .model
  names_nodup :
    (sources.map (·.name) ++ (projectModels pipelines).map (·.key.name)).Nodup
  extracted : ∀ model ∈ projectModels pipelines,
    extractReferences tables model.authoredSql.toList = .ok model.references
  driving : ∀ model ∈ projectModels pipelines, ∀ transform, model.definition = .table transform →
    validateTransformRefs model.key.name transform.source model.references = .ok () ∧
      transform.source ∈ model.references.map (·.name)

namespace CompiledProject

variable {tables : PythonTables} (project : CompiledProject tables)

def models : List CompiledModel := projectModels project.pipelines

def relationNames : List (LogicalResourceKey × String) :=
  project.sources.map (fun source => (source.key, sourceRelationName source)) ++
    project.models.map fun model => (model.key, model.relationName)

def relationNameByLogicalName : List (String × String) :=
  project.relationNames.map fun entry => (entry.1.name, entry.2)

/-- `_relation_sql_by_logical_name`: the relations of adopted sources come last and count. -/
def relationSqlByLogicalName : List (String × String) :=
  project.relationNameByLogicalName ++ project.sources.filterMap fun source =>
    match source.source with
    | .kafkaLanding _ => none
    | .externalTable step => some (source.name, externalSourceRelationSql step)
    | .postgresRefresh step => some (source.name, postgresSourceRelationSql step)

/-- `_postgres_refresh_by_source_name`. -/
def postgresBySourceName : List (String × PostgresRefreshSourceStep) :=
  project.sources.filterMap fun source => source.postgres.map fun step => (source.name, step)

/-- The resolver of the references. -/
def relationSql (name : String) : Option String := dictGet project.relationSqlByLogicalName name

end CompiledProject

/-- The dialect: its checks of a parsed model against its references and the resolver, and the
relations that it parses. -/
structure QueryAnalyzer where
  checked : List Char → List SqlReference → (String → Option String) → AnalysisResult Unit
  relation : String → AnalysisResult Template

/-- `SqlModelAnalyzer.resolve`. -/
def resolveModel (analyzer : QueryAnalyzer) (authored : List Char) (references : List SqlReference)
    (resolver : String → Option String) : AnalysisResult ResolvedQuery :=
  resolve (analyzer.checked authored references resolver) analyzer.relation authored references
    resolver adapterDatabasePlaceholder

/-- The two texts that the relations of a resolver give. -/
def canonicalText (analyzer : QueryAnalyzer) (authored : List Char)
    (references : List SqlReference) (resolver : String → Option String) :
    AnalysisResult (List Char) :=
  substituted authored (references.insertionSort fun a b => a.span.start ≤ b.span.start) resolver
    (rendered analyzer.relation id)

def templateText (analyzer : QueryAnalyzer) (authored : List Char)
    (references : List SqlReference) (resolver : String → Option String) :
    AnalysisResult (List Char) :=
  substituted authored (references.insertionSort fun a b => a.span.start ≤ b.span.start) resolver
    (rendered analyzer.relation (placeholderRelation adapterDatabasePlaceholder))

/-- `AdapterModelRealizationRequest` and `AdapterViewRealizationRequest`. -/
inductive RealizationRequest
  | model (logicalName targetRelationName sourceRelationName : String)
      (resolvedQuery : ResolvedQuery) (columns : List OutputColumn) (engine : String)
      (orderBy : List String) (partitionBy ttl : Option String)
      (settings : List (String × String)) (refresh : Option String) (append : Bool)
  | view (logicalName targetRelationName : String) (resolvedQuery : ResolvedQuery)
  deriving DecidableEq, Repr

inductive AdapterResource
  | table (name : String) (columns : List OutputColumn) (engine : String) (orderBy : List String)
      (partitionBy ttl : Option String) (settings : List (String × String))
  | materializedView (name sourceRelationName targetRelationName : String)
      (query databaseTemplate : List Char) (refresh : Option String) (append : Bool)
  | view (name : String) (query databaseTemplate : List Char)
  deriving DecidableEq, Repr

inductive RealizationError
  | analysis (error : AnalysisError)
  | keyError (name : String)
  deriving DecidableEq, Repr

/-- `tuple(sorted(settings.items()))`. -/
def sortedSettings : Option (List (String × String)) → List (String × String)
  | none => []
  | some settings => sortedBy (fun setting => [setting.1, setting.2]) (dictItems settings)

section
variable {tables : PythonTables} (analyzer : QueryAnalyzer) (project : CompiledProject tables)

def modelRequest (model : CompiledModel) (resolvedQuery : ResolvedQuery) :
    Except RealizationError RealizationRequest :=
  match model.definition with
  | .view => .ok (.view model.key.name model.relationName resolvedQuery)
  | .table transform =>
    let postgresSource := dictGet project.postgresBySourceName transform.source
    match dictGet project.relationNameByLogicalName transform.source with
    | none => .error (.keyError transform.source)
    | some sourceRelationName =>
      .ok (.model model.key.name model.relationName sourceRelationName resolvedQuery
        model.outputColumns transform.engine transform.orderBy transform.partitionBy transform.ttl
        (sortedSettings transform.settings) (postgresSource.map (·.refresh))
        (postgresSource.elim true (·.append)))

/-- `realize_clickhouse_model`. -/
def realizeModel : RealizationRequest → List AdapterResource
  | .view _ targetRelationName resolvedQuery =>
    [.view targetRelationName resolvedQuery.canonicalSql resolvedQuery.databaseTemplate]
  | .model logicalName targetRelationName sourceRelationName resolvedQuery columns engine orderBy
      partitionBy ttl settings refresh append =>
    [.table targetRelationName columns engine orderBy partitionBy ttl settings,
      .materializedView (Compiler.materializedViewName logicalName) sourceRelationName
        targetRelationName resolvedQuery.canonicalSql resolvedQuery.databaseTemplate refresh append]

/-- The resources that `build_realized_project` gives a model. -/
def modelResources (model : CompiledModel) : Except RealizationError (List AdapterResource) := do
  let resolvedQuery ← (resolveModel analyzer model.authoredSql.toList model.references
    project.relationSql).mapError .analysis
  let request ← modelRequest project model resolvedQuery
  .ok (realizeModel request)

end

/-- What a table model takes from its driving input. -/
@[ext] structure DrivingRead where
  relationName : Option String
  refresh : Option String
  append : Bool
  deriving DecidableEq, Repr

def CompiledProject.drivingRead {tables : PythonTables} (project : CompiledProject tables)
    (source : String) : DrivingRead where
  relationName := dictGet project.relationNameByLogicalName source
  refresh := (dictGet project.postgresBySourceName source).map (·.refresh)
  append := (dictGet project.postgresBySourceName source).elim true (·.append)

/-- Two versions of a project hand a model the same: the relations in place of its references, and
the relation and the schedule of its driving input. -/
structure SameReads {tables : PythonTables} (analyzer : QueryAnalyzer)
    (project later : CompiledProject tables) (model : CompiledModel) : Prop where
  canonical :
    canonicalText analyzer model.authoredSql.toList model.references project.relationSql =
      canonicalText analyzer model.authoredSql.toList model.references later.relationSql
  template :
    templateText analyzer model.authoredSql.toList model.references project.relationSql =
      templateText analyzer model.authoredSql.toList model.references later.relationSql
  driving : ∀ transform, model.definition = .table transform →
    project.drivingRead transform.source = later.drivingRead transform.source

section
variable {tables : PythonTables} {analyzer : QueryAnalyzer} {project later : CompiledProject tables}
  {first second model : CompiledModel}

theorem sortedSettings_eq {settings settings' : Option (List (String × String))}
    (h : sameSettings settings settings' = true) :
    sortedSettings settings = sortedSettings settings' := by
  have hkey : Function.Injective fun setting : String × String => [setting.1, setting.2] := by
    rintro ⟨name, value⟩ ⟨name', value'⟩ heq
    simpa using heq
  cases settings with
  | none =>
    cases settings' with
    | none => rfl
    | some items' => simp [sameSettings] at h
  | some items =>
    cases settings' with
    | none => simp [sameSettings] at h
    | some items' => exact sortedBy_eq_of_perm hkey (perm_dictItems h)

variable {source logicalName target : String} {references : List SqlReference}
  {transform : TransformStep} {resources : List AdapterResource}

theorem validateTransformRefs_eq_ok {name : String}
    (h : validateTransformRefs name source references = .ok ()) {reference : SqlReference}
    (hreference : reference ∈ references) : reference.name = source ↔ reference.refType = none := by
  induction references with
  | nil => cases hreference
  | cons head references ih =>
    rw [validateTransformRefs] at h
    split_ifs at h with hname htyped huntyped hrelation
    · rcases List.mem_cons.mp hreference with rfl | hrest
      · simp only [ne_eq, not_not] at htyped
        exact iff_of_true hname htyped
      · exact ih h hrest
    · rcases List.mem_cons.mp hreference with rfl | hrest
      · exact iff_of_false hname huntyped
      · exact ih h hrest

theorem source_eq {earlier : TransformStep} (hmodel : model ∈ later.models)
    (htable : model.definition = .table transform) (hfirst : first ∈ project.models)
    (hearlier : first.definition = .table earlier) (hrefs : first.references = model.references) :
    earlier.source = transform.source := by
  obtain ⟨hvalid, -⟩ := later.driving model hmodel transform htable
  obtain ⟨hvalid', hmem⟩ := project.driving first hfirst earlier hearlier
  obtain ⟨reference, hreference, hname⟩ := List.mem_map.mp hmem
  have huntyped := (validateTransformRefs_eq_ok hvalid' hreference).mp hname
  rw [hrefs] at hreference
  rw [← hname, (validateTransformRefs_eq_ok hvalid hreference).mpr huntyped]

theorem references_eq (hfirst : first ∈ project.models) (hsecond : second ∈ later.models)
    (hquery : first.authoredSql = second.authoredSql) : first.references = second.references := by
  have hextracted := project.extracted first hfirst
  rw [hquery, later.extracted second hsecond] at hextracted
  exact (Except.ok.inj hextracted).symm

variable {query query' : ResolvedQuery}

theorem resolveModel_eq_ok {authored : List Char} {resolver : String → Option String}
    (h : resolveModel analyzer authored references resolver = .ok query) :
    canonicalText analyzer authored references resolver = .ok query.canonicalSql ∧
      templateText analyzer authored references resolver = .ok query.databaseTemplate := by
  simp only [resolveModel, resolve, bind_eq_ok] at h
  obtain ⟨-, -, canonicalSql, hcanonical, -, -, -, -, databaseTemplate, htemplate, hquery⟩ := h
  cases hquery
  exact ⟨hcanonical, htemplate⟩

theorem modelResources_eq_ok (h : modelResources analyzer project model = .ok resources) :
    ∃ query request, resolveModel analyzer model.authoredSql.toList model.references
        project.relationSql = .ok query ∧
      modelRequest project model query = .ok request ∧ resources = realizeModel request := by
  simp only [modelResources, bind_eq_ok, mapError_eq_ok] at h
  obtain ⟨query, hquery, request, hrequest, hresources⟩ := h
  exact ⟨query, request, hquery, hrequest, (Except.ok.inj hresources).symm⟩

/-- The request of a table model, in terms of what its driving input gives. -/
theorem modelRequest_table
    {request : RealizationRequest} (htable : model.definition = .table transform)
    (h : modelRequest project model query = .ok request) :
    ∃ sourceRelationName,
      (project.drivingRead transform.source).relationName = some sourceRelationName ∧
        request = .model model.key.name model.relationName sourceRelationName query
          model.outputColumns transform.engine transform.orderBy transform.partitionBy
          transform.ttl (sortedSettings transform.settings)
          (project.drivingRead transform.source).refresh
          (project.drivingRead transform.source).append := by
  simp only [modelRequest, htable] at h
  cases hrelation : dictGet project.relationNameByLogicalName transform.source with
  | none =>
    rw [hrelation] at h
    cases h
  | some sourceRelationName =>
    rw [hrelation] at h
    exact ⟨sourceRelationName, hrelation, (Except.ok.inj h).symm⟩

theorem resolvedQuery_eq_iff :
    query = query' ↔
      query.canonicalSql = query'.canonicalSql ∧ query.databaseTemplate =
        query'.databaseTemplate := by
  cases query
  cases query'
  exact ResolvedQuery.mk.injEq .. ▸ Iff.rfl

theorem realizeModel_view_eq_iff {logicalName' : String} :
    realizeModel (.view logicalName target query) = realizeModel
      (.view logicalName' target query') ↔
      query = query' := by
  simp [realizeModel, resolvedQuery_eq_iff]

/-- Two requests with one definition have the same resources just if what they read is the same. -/
theorem realizeModel_model_eq_iff {source' : String} {columns : List OutputColumn} {engine : String}
    {orderBy : List String} {partitionBy ttl : Option String} {settings : List (String × String)}
    {refresh refresh' : Option String} {append append' : Bool} :
    realizeModel (.model logicalName target source query columns engine orderBy partitionBy ttl
        settings refresh append) =
      realizeModel (.model logicalName target source' query' columns engine orderBy partitionBy ttl
        settings refresh' append') ↔
      query = query' ∧ source = source' ∧ refresh = refresh' ∧ append = append' := by
  simp only [realizeModel, List.cons.injEq, AdapterResource.materializedView.injEq, true_and,
    and_true, resolvedQuery_eq_iff]
  constructor
  · rintro ⟨hsource, hcanonical, htemplate, hrefresh, happend⟩
    exact ⟨⟨hcanonical, htemplate⟩, hsource, hrefresh, happend⟩
  · rintro ⟨⟨hcanonical, htemplate⟩, hsource, hrefresh, happend⟩
    exact ⟨hsource, hcanonical, htemplate, hrefresh, happend⟩

/-- Two compilations of a model with one fingerprint are realized the same just if they are handed
the same by the two versions of the project. -/
theorem modelResources_eq_iff (hfirst : first ∈ project.models) (hsecond : second ∈ later.models)
    (hsame : SameFingerprint first second) {resources' : List AdapterResource}
    (hresources : modelResources analyzer project first = .ok resources)
    (hresources' : modelResources analyzer later second = .ok resources') :
    resources = resources' ↔ SameReads analyzer project later second := by
  obtain ⟨query, request, hquery, hrequest, rfl⟩ := modelResources_eq_ok hresources
  obtain ⟨query', request', hquery', hrequest', rfl⟩ := modelResources_eq_ok hresources'
  have hrefs := references_eq hfirst hsecond hsame.query
  rw [hsame.query, hrefs] at hquery
  obtain ⟨hcanonical, htemplate⟩ := resolveModel_eq_ok hquery
  obtain ⟨hcanonical', htemplate'⟩ := resolveModel_eq_ok hquery'
  -- the texts of the two queries are equal just if the substituted texts are
  have htexts : SameReads analyzer project later second ↔
      query = query' ∧ ∀ transform, second.definition = .table transform →
        project.drivingRead transform.source = later.drivingRead transform.source := by
    constructor
    · rintro ⟨hc, ht, hdriving⟩
      rw [hcanonical, hcanonical', Except.ok.injEq] at hc
      rw [htemplate, htemplate', Except.ok.injEq] at ht
      exact ⟨resolvedQuery_eq_iff.mpr ⟨hc, ht⟩, hdriving⟩
    · rintro ⟨rfl, hdriving⟩
      exact ⟨hcanonical.trans hcanonical'.symm, htemplate.trans htemplate'.symm, hdriving⟩
  rw [htexts]
  cases hdefinition : second.definition with
  | view =>
    simp only [modelRequest, hsame.view hdefinition, Except.ok.injEq] at hrequest
    simp only [modelRequest, hdefinition, Except.ok.injEq] at hrequest'
    rw [← hrequest, ← hrequest', hsame.relationName, realizeModel_view_eq_iff]
    simp
  | table transform =>
    obtain ⟨earlier, htable, hengine, horder, hpartition, httl, hsettings⟩ :=
      hsame.table hdefinition
    have hsource := source_eq hsecond hdefinition hfirst htable hrefs
    obtain ⟨relation, hrelation, rfl⟩ := modelRequest_table htable hrequest
    obtain ⟨relation', hrelation', rfl⟩ := modelRequest_table hdefinition hrequest'
    rw [hsource] at hrelation
    rw [hsame.name, hsame.relationName, hsame.outputColumns, hengine, horder, hpartition, httl,
      sortedSettings_eq hsettings, hsource, realizeModel_model_eq_iff]
    apply and_congr_right
    rintro -
    constructor
    · rintro ⟨hrelations, hrefresh, happend⟩ other hother
      obtain rfl := ModelDefinition.table.inj hother
      exact DrivingRead.ext (by rw [hrelation, hrelation', hrelations]) hrefresh happend
    · intro hdriving
      have hread := hdriving transform rfl
      rw [hread, hrelation'] at hrelation
      exact ⟨(Option.some.inj hrelation).symm, congrArg DrivingRead.refresh hread,
        congrArg DrivingRead.append hread⟩

end

end SqlTide.Baselines
