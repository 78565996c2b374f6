import SqlTide.Foundations.Failures
import SqlTide.Destruction.PlanningInputs

/-!
# Read-only assembly of destruction plans

`plan_destruction` resolves the selection of pipelines, collects the relations
they own by three routes (the current manifest, the manifests of earlier
publications, the recorded deployments), and freezes what it found.
-/

namespace SqlTide.Destruction

open Foundations Compiler

variable (A : CompileAnalysis)

def modelsOf (pipelineNames : Finset String) : List CompiledModel :=
  A.project.models.filter fun m => m.pipelineName ∈ pipelineNames

def modelKeysOf (pipelineNames : Finset String) : Finset LogicalResourceKey :=
  ((modelsOf A pipelineNames).map (·.key)).toFinset

def pipelineByModelKey (k : LogicalResourceKey) : Option String :=
  (A.project.models.find? fun m => m.key = k).map (·.pipelineName)

/-- The pipelines of the models among `keys`. -/
def pipelinesOfKeys (keys : List LogicalResourceKey) : Finset String :=
  (keys.filterMap (pipelineByModelKey A)).toFinset

/-- A source is managed when it is realized by relations of its own. -/
def managedSources : List CompiledSource :=
  A.project.sources.filter fun s => A.resourcesByLogicalKey s.key ≠ []

/-- The pipelines attributed to a logical name; `none` when the name is not a current one. -/
def pipelineNamesByLogicalName (name : String) : Option (List String) :=
  let models := A.project.models.filter fun m => m.key.name = name
  let pipelines := A.project.pipelines.filter fun p => p.source.map (·.key.name) = some name
  let sources := A.project.sources.filter fun s => s.key.name = name
  let downstream := sources.flatMap fun s =>
    A.graph.collectReachableKeys {s.key} .downstream allDependencyEdgeTypes
  if models = [] ∧ pipelines = [] ∧ sources = [] then none
  else some (sortedNames ((models.map (·.pipelineName)).toFinset ∪
    (pipelines.map (·.name)).toFinset ∪ pipelinesOfKeys A downstream))

/-- The names of the managed sources that the selected pipelines declare or read. -/
def selectedSourceNames (pipelineNames : Finset String) : Finset String :=
  let managedNames := (managedSources A).map (·.key.name)
  let declared := (A.project.pipelines.filter fun p => p.name ∈ pipelineNames).filterMap
    fun p => p.source.map (·.key.name)
  let upstream := A.graph.collectReachableKeys (modelKeysOf A pipelineNames) .upstream
    allDependencyEdgeTypes
  let read := (upstream.filter fun k => k.resourceType = .source).map (·.name)
  ((declared ++ read).filter (· ∈ managedNames)).toFinset

/-- The pipelines that share a managed source with the selected ones. -/
def sharedSourcePipelineNames (pipelineNames : Finset String) : Finset String :=
  (selectedSourceNames A pipelineNames).biUnion fun name =>
    ((pipelineNamesByLogicalName A name).getD []).toFinset

/-- One round of the selection: what must be destroyed with the required pipelines. -/
def expandRequired (required : Finset String) : Finset String :=
  let reachable := A.graph.collectReachableKeys (modelKeysOf A required) .downstream
    allDependencyEdgeTypes
  required ∪ pipelinesOfKeys A reachable ∪ sharedSourcePipelineNames A required

/-- Every name that a round can add to a selection, and the selection itself. -/
def selectionDomain (supplied : Finset String) : Finset String :=
  supplied ∪ (A.project.models.map (·.pipelineName)).toFinset ∪
    (A.project.pipelines.map (·.name)).toFinset

/-- The `while True` loop of the selection. -/
def requiredPipelineNames (supplied : Finset String) : Finset String :=
  saturate (expandRequired A) ((selectionDomain A supplied).card + 1) supplied

/-- Requested, included and affected pipeline names. -/
def resolvePipelineSelection (request : DestructionRequest)
    (availablePipelineNames : List String) :
    Except DestructionError (List String × List String × List String) :=
  if request.operation = .resetTarget then
    if request.pipelineNames ≠ [] ∨ request.includedDependentPipelineNames ≠ [] then
      .error (.selection "Target reset does not accept a pipeline selection")
    else .ok ([], [], availablePipelineNames)
  else if request.pipelineNames = [] then
    .error (.selection "Pipeline destruction requires at least one pipeline")
  else
    let supplied := (request.pipelineNames ++ request.includedDependentPipelineNames).toFinset
    let unknown := sortedNames (supplied \ availablePipelineNames.toFinset)
    if unknown ≠ [] then .error (.selection ("Unknown pipelines: " ++ pyReprTuple unknown))
    else
      let requiredDependents :=
        requiredPipelineNames A supplied \ request.pipelineNames.toFinset
      let missing := sortedNames
        (requiredDependents \ request.includedDependentPipelineNames.toFinset)
      if missing ≠ [] then .error (.dependency missing)
      else .ok (request.pipelineNames, request.includedDependentPipelineNames,
        sortedNames supplied)

/-- `_affected_sources`: the managed sources that go with the affected pipelines. -/
def affectedSourceKeys (operation : DestructionOperation) (affected : List String) :
    List LogicalResourceKey :=
  let managedKeys := (managedSources A).map (·.key)
  match operation with
  | .resetTarget => managedKeys
  | .destroyPipelines =>
    let upstream := A.graph.collectReachableKeys (modelKeysOf A affected.toFinset) .upstream
      allDependencyEdgeTypes
    let declared := (A.project.pipelines.filter fun p => p.name ∈ affected).filterMap
      fun p => p.source.map (·.key)
    managedKeys.filter fun k => k ∈ upstream ∨ k ∈ declared

structure OwnedRelation where
  name : String
  kind : DestructionRelationKind
  logicalNames : Finset String
  pipelineNames : Finset String
  ownership : Finset DestructionOwnership
  deriving DecidableEq

/-- The relations collected so far, in the order in which they were first added. -/
abbrev Owned := List OwnedRelation

def Owned.names (owned : Owned) : List String := owned.map (·.name)

def Owned.logicalNames (owned : Owned) (name : String) : Finset String :=
  ((owned.find? fun r => r.name = name).map (·.logicalNames)).getD ∅

def dropRank : DestructionRelationKind → ℕ
  | .view => 0
  | .materializedView => 1
  | .table => 2
  | .managedSource => 2

def OwnedRelation.merge (r : OwnedRelation) (kind : DestructionRelationKind)
    (logicalName : String) (pipelineName : Option String) (ownership : DestructionOwnership) :
    OwnedRelation :=
  { name := r.name
    kind := if dropRank kind < dropRank r.kind then kind else r.kind
    logicalNames := insert logicalName r.logicalNames
    pipelineNames := r.pipelineNames ∪ pipelineName.toFinset
    ownership := insert ownership r.ownership }

def addOwnedRelation (owned : Owned) (name : String) (kind : DestructionRelationKind)
    (logicalName : String) (pipelineName : Option String) (ownership : DestructionOwnership) :
    Owned :=
  if name ∈ owned.names then
    owned.map fun r =>
      if r.name = name then r.merge kind logicalName pipelineName ownership else r
  else
    owned ++ [{ name := name
                kind := kind
                logicalNames := {logicalName}
                pipelineNames := pipelineName.toFinset
                ownership := {ownership} }]

def addAssociatedRelation (owned : Owned) (name : String) (kind : DestructionRelationKind)
    (logicalName : String) (pipelineNames : List String) (ownership : DestructionOwnership) :
    Owned :=
  let associated := if pipelineNames = [] then [none] else pipelineNames.map some
  associated.foldl
    (fun owned pipelineName => addOwnedRelation owned name kind logicalName pipelineName ownership)
    owned

def metadataRelationPrefix : String := "_sqltide_"

def excludedMetadataRelation (name : String) : Bool :=
  metadataRelationPrefix.toList.isPrefixOf (casefold name).toList

def resourceKind : AdapterResourceKind → DestructionRelationKind
  | .view => .view
  | .materializedView => .materializedView
  | .managedSource => .managedSource
  | .table => .table

def objectTypeKind : DesiredObjectType → DestructionRelationKind
  | .view => .view
  | .materializedView => .materializedView
  | .kafkaTable => .managedSource
  | .table => .table

/-- Route one: the relations of the affected models and of the selected sources. -/
def manifestOwnedRelations (keys : List LogicalResourceKey)
    (logicalPipelineNames : String → Option (List String)) : Owned :=
  let ordered := sortedBy (fun k => [k.resourceType.value, k.name]) keys.dedup
  let additions := ordered.flatMap fun k => (A.resourcesByLogicalKey k).map fun r => (k, r)
  (additions.filter fun a => !excludedMetadataRelation a.2.name).foldl
    (fun owned a => addAssociatedRelation owned a.2.name (resourceKind a.2.kind) a.1.name
      ((logicalPipelineNames a.1.name).getD []) .currentManifest)
    []

def manifestVersion : Int := 1

def checkManifestVersions (manifests : List Manifest) : Except DestructionError Unit :=
  match manifests.find? fun m => m.manifestVersion ≠ manifestVersion with
  | some m => .error (.resource ("Unsupported manifest version " ++ toString m.manifestVersion ++
      "; expected " ++ toString manifestVersion))
  | none => .ok ()

/-- `resolve_manifest_project_identity`. -/
def manifestProjectIdentity : String :=
  match A.project.projectName with
  | none => A.projectDirName
  | some name => if name = "" then A.projectDirName else name

def loadManifestSnapshot (request : DestructionRequest) (connection : PlanningConnection) :
    Except DestructionError ManifestSnapshot :=
  let snapshot := connection.loadManifests request.metadataDatabase (manifestProjectIdentity A)
    request.target request.database
  if snapshot.status = .unavailable then
    .error (.resource (match snapshot.warning with
      | some warning => if warning = "" then "Manifest history is unavailable" else warning
      | none => "Manifest history is unavailable"))
  else (checkManifestVersions snapshot.manifests).map fun _ => snapshot

/-- The resources with the given key in the last manifest that has one. -/
def latestResources {κ : Type} [DecidableEq κ] (key : ManifestResource → κ)
    (manifests : List Manifest) (k : κ) : List ManifestResource :=
  match manifests.find? fun m => m.resources.any fun r => key r = k with
  | none => []
  | some m => m.resources.filter fun r => key r = k

def manifestKeys {κ : Type} [DecidableEq κ] (key : ManifestResource → κ)
    (manifests : List Manifest) : List κ :=
  (manifests.flatMap fun m => m.resources.map key).dedup

/-- The pipelines that the manifests name and the project no longer has. -/
def manifestPipelineNames (snapshot : ManifestSnapshot) (current : List String) :
    Finset String :=
  let names := manifestKeys (·.resourceName) snapshot.manifests
  let groups := names.map (latestResources (·.resourceName) snapshot.manifests)
  let inactive := groups.filter fun rs => !rs.any fun r => r.pipelineName ∈ current
  (inactive.flatMap fun rs => rs.map (·.pipelineName)).toFinset

def addHistoricalLogicalPipelineNames (logicalPipelineNames : String → Option (List String))
    (snapshot : ManifestSnapshot) (name : String) : Option (List String) :=
  match logicalPipelineNames name with
  | some pipelines => some pipelines
  | none =>
    let resources := latestResources (·.logicalName) snapshot.manifests name
    if resources = [] then none
    else some (sortedNames (resources.map (·.pipelineName)).toFinset)

def currentManifestResourceNames : List String :=
  let resources := A.project.keys.flatMap A.resourcesByLogicalKey
  (resources.map (·.name)).filter fun n => !excludedMetadataRelation n

/-- Whether the history still lets a relation be dropped under its name. -/
def historicalNameEligible (manifests : List Manifest) (allowPublished : List String)
    (currentResourceNames : List String) (catalog : CatalogSnapshot) (name : String) : Bool :=
  let published := match manifests with
    | [] => []
    | m :: _ => (m.resources.filter fun r => r.resourceName = name).map (·.pipelineName)
  let publishedProtected := published ≠ [] ∧ ¬ ∀ p ∈ published, p ∈ allowPublished
  !(decide (name ∈ currentResourceNames) || decide publishedProtected ||
    excludedMetadataRelation name) && (catalog.relation name).isSome

def eligibleHistoricalResources (snapshot : ManifestSnapshot)
    (affected allowPublished : List String)
    (database : String) (currentResourceNames : List String) (catalog : CatalogSnapshot) :
    Except DestructionError (List ManifestResource) :=
  (checkManifestVersions snapshot.manifests).map fun _ =>
    let names := (manifestKeys (·.resourceName) snapshot.manifests).filter
      (historicalNameEligible snapshot.manifests allowPublished currentResourceNames catalog)
    let resources := names.flatMap (latestResources (·.resourceName) snapshot.manifests)
    (resources.filter fun r => r.pipelineName ∈ affected ∧ r.resourceDatabase = database).dedup

def relationKindOfValue (value : String) : Option DestructionRelationKind :=
  [.view, .materializedView, .table, .managedSource].find? fun k => k.value = value

/-- One historical resource joins the plan, if its kind is known. -/
def addHistoricalResource (owned : Owned) (r : ManifestResource) :
    Except DestructionError Owned :=
  match relationKindOfValue r.resourceKind with
  | none => .error (.resource ("Unsupported historical manifest resource kind " ++
      pyRepr r.resourceKind ++ " for " ++ pyRepr r.resourceName))
  | some kind => .ok (addOwnedRelation owned r.resourceName kind r.logicalName
      (some r.pipelineName) .historicalManifest)

/-- The snapshot that was already loaded, or a fresh one. -/
def resolveSnapshot (request : DestructionRequest) (connection : PlanningConnection) :
    Option ManifestSnapshot → Except DestructionError ManifestSnapshot
  | some snapshot => .ok snapshot
  | none => loadManifestSnapshot A request connection

/-- Route two: relations that only earlier manifests attribute to the affected pipelines. -/
def addHistoricalManifestRelations (owned : Owned) (request : DestructionRequest)
    (connection : PlanningConnection) (catalog : CatalogSnapshot)
    (affected allowPublished : List String) (snapshot : Option ManifestSnapshot) :
    Except DestructionError Owned := do
  let resolved ← resolveSnapshot A request connection snapshot
  if resolved.status = .absent then return owned
  let resources ← eligibleHistoricalResources resolved affected allowPublished request.database
    (currentManifestResourceNames A) catalog
  (sortedBy (fun r => [r.resourceName, r.pipelineName, r.logicalName]) resources).foldlM
    addHistoricalResource owned

/-- The logical names of one type that the manifests leave to the affected pipelines
alone, and that no current resource of that type has. -/
def historicalNamesOfType (manifests : List Manifest) (affected : List String)
    (logicalType : LogicalResourceType) (currentNames : List String) : List String :=
  let keys := manifestKeys (fun r => (r.logicalType, r.logicalName)) manifests
  let eligible := keys.filter fun k =>
    let pipelines := (latestResources (fun r => (r.logicalType, r.logicalName)) manifests k).map
      (·.pipelineName)
    pipelines ≠ [] ∧ (∀ p ∈ pipelines, p ∈ affected) ∧ k.1 = logicalType.value ∧
      k.2 ∉ currentNames
  eligible.map (·.2)

/-- `_historical_logical_names`: model names and source names. -/
def historicalLogicalNames (snapshot : Option ManifestSnapshot) (affected : List String) :
    List String × List String :=
  match snapshot with
  | none => ([], [])
  | some snapshot =>
    (historicalNamesOfType snapshot.manifests affected .model
        (A.project.models.map (·.key.name)),
      historicalNamesOfType snapshot.manifests affected .source
        (A.project.sources.map (·.key.name)))

/-- All mappings, deployments in the order of their ids. -/
def orderedMappings (inventory : DeploymentInventory) : List PreparedObjectMapping :=
  (sortedBy (fun d => [d.deploymentId]) inventory.deployments).flatMap fun d =>
    sortedBy (fun m => [m.physicalName, m.logicalKey.name]) d.preparedObjectMappings

/-- `logical_name_by_published_name`: the last mapping that has the name on either side. -/
def logicalNameByPublishedName (inventory : DeploymentInventory) (name : String) :
    Option String :=
  ((orderedMappings inventory).reverse.find? fun m =>
    m.logicalKey.name = name ∨ m.physicalName = name).map (·.logicalModelName)

def orderedBindings (inventory : DeploymentInventory) : List StableBinding :=
  (sortedBy (fun e => [e.publishedAt, e.deploymentId]) inventory.publishEvents).flatMap fun e =>
    sortedBy (fun b => [b.logicalName, b.database]) e.bindings

/-- What the inventory route knows besides the relations collected so far. -/
structure InventoryScope where
  database : String
  affectedLogicalNames : List String
  logicalPipelineNames : String → Option (List String)
  includeAll : Bool

variable {A} in
def InventoryScope.covers (scope : InventoryScope) (logicalName : String) : Bool :=
  scope.includeAll || decide (logicalName ∈ scope.affectedLogicalNames)

def addMapping (scope : InventoryScope) (owned : Owned) (m : PreparedObjectMapping) :
    Except DestructionError Owned :=
  if !scope.covers m.logicalModelName then .ok owned
  else if m.logicalKey.database ≠ none ∧ m.logicalKey.database ≠ some scope.database then
    .error (.resource
      ("Destruction cannot mutate recorded virtual resources outside the target database: " ++
        (m.logicalKey.database.getD "None") ++ "." ++ m.physicalName))
  else if excludedMetadataRelation m.physicalName then .ok owned
  else .ok (addAssociatedRelation owned m.physicalName (objectTypeKind m.logicalKey.objectType)
    m.logicalModelName ((scope.logicalPipelineNames m.logicalModelName).getD [])
    .virtualPhysicalMapping)

/-- The logical name a published binding is attributed to. -/
def bindingLogicalName (inventory : DeploymentInventory) (owned : Owned) (b : StableBinding) :
    String :=
  if b.logicalName ∈ owned.names then (sortedNames (owned.logicalNames b.logicalName)).headD ""
  else (logicalNameByPublishedName inventory b.logicalName).getD b.logicalName

def addBinding (inventory : DeploymentInventory) (scope : InventoryScope) (owned : Owned)
    (b : StableBinding) : Owned :=
  if b.database ≠ scope.database then owned
  else if excludedMetadataRelation b.logicalName then owned
  else
    let logicalName := bindingLogicalName inventory owned b
    if !scope.covers logicalName then owned
    else
      let pipelineNames := (scope.logicalPipelineNames logicalName).getD []
      let owned := addAssociatedRelation owned b.logicalName .view logicalName pipelineNames
        .publishedStableBinding
      if excludedMetadataRelation b.physicalName then owned
      else addAssociatedRelation owned b.physicalName .table
        ((logicalNameByPublishedName inventory b.physicalName).getD logicalName) pipelineNames
        .virtualPhysicalMapping

/-- Route three: relations that deployments recorded for the affected logical names. -/
def addVirtualInventoryRelations (inventory : DeploymentInventory) (scope : InventoryScope)
    (owned : Owned) : Except DestructionError Owned :=
  ((orderedMappings inventory).foldlM (addMapping scope) owned).map fun owned =>
    (orderedBindings inventory).foldl (addBinding inventory scope) owned

def quoteString (value : String) : String :=
  String.ofList ('\'' :: value.toList.flatMap (fun c =>
    if c = '\\' then ['\\', '\\'] else if c = '\'' then ['\'', '\''] else [c]) ++ ['\''])

def relationStatsStatement (database : String) (relationNames : List String) : String :=
  "SELECT table AS relation_name, sum(bytes_on_disk) AS total_bytes, " ++
    "count() AS active_parts FROM system.parts WHERE active = 1 " ++
    "AND database = " ++ quoteString database ++ " AND table IN (" ++
    ", ".intercalate (relationNames.map quoteString) ++ ") GROUP BY table ORDER BY table"

/-- Bytes and parts of a relation, by the last row that has its name. -/
def loadRelationStats (connection : PlanningConnection) (database : String)
    (relationNames : List String) (name : String) : Option (Int × Int) :=
  if relationNames = [] then none
  else
    let rows := connection.query (relationStatsStatement database relationNames)
    (rows.reverse.find? fun row => row.1 = name).map (·.2)

def catalogKind (relation : Option CatalogRelation) (fallback : DestructionRelationKind) :
    DestructionRelationKind :=
  match relation with
  | none => fallback
  | some r =>
    if r.engine = "View" then .view
    else if r.engine = "MaterializedView" then .materializedView
    else fallback

def catalogDependencyNames (r : CatalogRelation) : Finset String :=
  (r.sourceRelationNames ++ r.targetRelationName.toList ++ r.stableBindingName.toList).toFinset

def sortedOwnership (ownership : Finset DestructionOwnership) : List DestructionOwnership :=
  [.currentManifest, .historicalManifest, .ownershipLedger, .publishedStableBinding,
    .virtualPhysicalMapping].filter (· ∈ ownership)

def evidenceOf (database : String) (owned : Owned) (catalog : CatalogSnapshot)
    (stats : String → Option (Int × Int)) (r : OwnedRelation) : DestructionRelationEvidence :=
  let catalogRelation := catalog.relation r.name
  let kind := catalogKind catalogRelation r.kind
  let hasParts := kind = .table ∧ catalogRelation.isSome
  { database := database
    name := r.name
    kind := kind
    doesExist := catalogRelation.isSome
    totalBytes := if hasParts then some (((stats r.name).map (·.1)).getD 0) else none
    activeParts := if hasParts then some (((stats r.name).map (·.2)).getD 0) else none
    catalogFingerprint := catalogRelation.bind (·.ownershipGeneration)
    logicalNames := sortedNames r.logicalNames
    pipelineNames := sortedNames r.pipelineNames
    ownership := sortedOwnership r.ownership
    dependencyRelationNames := match catalogRelation with
      | none => []
      | some c => sortedNames (catalogDependencyNames c ∩ owned.names.toFinset) }

def buildEvidence (database : String) (owned : Owned) (catalog : CatalogSnapshot)
    (stats : String → Option (Int × Int)) : List DestructionRelationEvidence :=
  (sortedBy (fun r => [r.name]) owned).map (evidenceOf database owned catalog stats)

def validateDropSizeLimit (limit : Option Int) (relations : List DestructionRelationEvidence) :
    Except DestructionError Unit :=
  match limit with
  | none => .ok ()
  | some limit =>
    let oversized := relations.filterMap fun r =>
      match r.totalBytes with
      | some bytes => if r.doesExist ∧ limit < bytes then some (r, bytes) else none
      | none => none
    if oversized = [] then .ok ()
    else .error (.resource ("Warehouse relation DROP limit is " ++ commaFormat limit ++
      " bytes; oversized resources block destruction before mutation: " ++
      ", ".intercalate (oversized.map fun r => r.1.database ++ "." ++ r.1.name ++ " (" ++
        commaFormat r.2 ++ " bytes)")))

def validateExternalDependants (connection : PlanningConnection) (database : String)
    (ownedRelationNames : Finset String) : Except DestructionError Unit :=
  let blocked := connection.loadExternalDependants database (sortedNames ownedRelationNames)
  if blocked = [] then .ok () else .error (.externalDependency (sortedNames blocked.toFinset))

def maxNamedChallenges : ℕ := 3

def productionTargetNames : List String := ["prod", "production"]

def buildDestructionChallenges (pipelineNames : List String) (productionReset : Bool) :
    Except DestructionError (List String) :=
  let names := sortedNames pipelineNames.toFinset
  if names = [] then
    .error (.selection
      "Destructive execution requires at least one attributable pipeline challenge")
  else
    let selected :=
      if names.length ≤ maxNamedChallenges then names
      else [names.headD "", names.getD (names.length / 2) "", names.getLastD ""]
    .ok (if productionReset then selected ++ ["PRODUCTION"] else selected)

def validatedCreatedAt (host : PlanningHost) (now : Option DateTime) (ttl : Int) :
    Except DestructionError Instant :=
  let createdAt := now.getD { instant := host.utcNow, aware := true }
  if !createdAt.aware then
    .error (.validation "Destruction plan timestamps must be timezone-aware")
  else if ttl ≤ 0 then .error (.validation "Destruction plan TTL must be positive")
  else .ok createdAt.instant

def currentPipelineNames (request : DestructionRequest) : Except DestructionError (List String) :=
  let names := (A.project.pipelines.map (·.name)).insertionSort (· ≤ ·)
  match A.project.targetName with
  | none => .ok names
  | some target =>
    if request.target ≠ target then
      .error (.selection ("Requested target " ++ pyRepr request.target ++
        " does not match compiled target " ++ pyRepr target))
    else .ok names

def recordedLogicalNames (inventory : DeploymentInventory) : Finset String :=
  (inventory.deployments.flatMap fun d =>
    d.preparedObjectMappings.map (·.logicalModelName)).toFinset

/-- What the collection of relations works on, once the selection is resolved. -/
structure RelationScope where
  affected : List String
  inactive : List String
  snapshot : Option ManifestSnapshot
  catalog : CatalogSnapshot
  inventory : DeploymentInventory

def relationScope (request : DestructionRequest) (connection : PlanningConnection)
    (affected current : List String) (snapshot : Option ManifestSnapshot) : RelationScope where
  affected := affected
  inactive := sortedNames (affected.toFinset \ current.toFinset)
  snapshot := snapshot
  catalog := connection.loadCatalog request.database
  inventory := connection.loadDeploymentInventory request.metadataDatabase

namespace RelationScope

variable (scope : RelationScope) (request : DestructionRequest)

def currentModelNames : List String :=
  (sortedBy (fun m => [m.key.name]) (modelsOf A scope.affected.toFinset)).map (·.key.name)

def sourceKeys : List LogicalResourceKey :=
  affectedSourceKeys A request.operation scope.affected

def currentSourceNames : List String :=
  sortedNames ((scope.sourceKeys A request).map (·.name)).toFinset

/-- Whether the manifests of earlier publications take part. -/
def withHistory : Bool := request.includeOrphans || decide (scope.inactive ≠ [])

def affectedModelNames : List String :=
  let names := scope.currentModelNames A
  let names :=
    if request.operation = .resetTarget then
      sortedNames (names.toFinset ∪
        (recordedLogicalNames scope.inventory \ (scope.currentSourceNames A request).toFinset))
    else names
  if scope.withHistory request then
    sortedNames
      (names ++ (historicalLogicalNames A scope.snapshot scope.affected).1).toFinset
  else names

def affectedSourceNames : List String :=
  let names := scope.currentSourceNames A request
  if scope.withHistory request then
    sortedNames
      (names ++ (historicalLogicalNames A scope.snapshot scope.affected).2).toFinset
  else names

def logicalPipelineNames : String → Option (List String) :=
  match scope.snapshot with
  | none => pipelineNamesByLogicalName A
  | some snapshot => addHistoricalLogicalPipelineNames (pipelineNamesByLogicalName A) snapshot

def inventoryScope : InventoryScope where
  database := request.database
  affectedLogicalNames :=
    scope.affectedModelNames A request ++ scope.affectedSourceNames A request
  logicalPipelineNames := scope.logicalPipelineNames A
  includeAll := decide (request.operation = .resetTarget)

/-- The keys of the affected models and of the selected sources. -/
def selectedKeys : List LogicalResourceKey :=
  (modelsOf A scope.affected.toFinset).map (·.key) ++ scope.sourceKeys A request

/-- The relations of the manifests, current and historical. -/
def manifestRelations (connection : PlanningConnection) : Except DestructionError Owned :=
  let owned := manifestOwnedRelations A (scope.selectedKeys A request)
    (scope.logicalPipelineNames A)
  if scope.withHistory request then
    addHistoricalManifestRelations A owned request connection scope.catalog scope.affected
      scope.inactive scope.snapshot
  else .ok owned

/-- The relations of all three routes. -/
def ownedRelations (connection : PlanningConnection) : Except DestructionError Owned := do
  let owned ← scope.manifestRelations A request connection
  addVirtualInventoryRelations scope.inventory (scope.inventoryScope A request) owned

/-- `_plan_relation_evidence`: model names, source names and relations of the plan. -/
def planRelationEvidence (connection : PlanningConnection) (limit : Option Int) :
    Except DestructionError (List String × List String × List DestructionRelationEvidence) := do
  let owned ← scope.ownedRelations A request connection
  let stats := loadRelationStats connection request.database (sortedNames owned.names.toFinset)
  let relations := buildEvidence request.database owned scope.catalog stats
  validateDropSizeLimit limit relations
  validateExternalDependants connection request.database owned.names.toFinset
  let _ ← reverseTopologicallyOrderRelations relations
  return (scope.affectedModelNames A request, scope.affectedSourceNames A request, relations)

end RelationScope

/-- What `_build_plan` freezes besides the request. -/
structure DestructionPlanParts where
  planId : Option String
  createdAt : Instant
  ttl : Int
  requestedPipelineNames : List String
  includedDependentPipelineNames : List String
  affectedPipelineNames : List String
  affectedModelNames : List String
  affectedSourceNames : List String
  relations : List DestructionRelationEvidence
  challenges : List String
  manifestFingerprint : String
  relationDropSizeLimit : Option Int
  relationDropSizeServerLimit : Option Int
  relationDropSizeOverride : Option Int
  relationDropSizePolicyObserved : Bool
  includeOrphans : Bool

def planPayload (request : DestructionRequest) (parts : DestructionPlanParts) : PyValue :=
  .dict ([("operation", .enum request.operation.value), ("target", .str request.target),
    ("database", .str request.database), ("metadata_database", .str request.metadataDatabase),
    ("requested_pipeline_names", strTuple parts.requestedPipelineNames),
    ("included_dependent_pipeline_names", strTuple parts.includedDependentPipelineNames),
    ("affected_pipeline_names", strTuple parts.affectedPipelineNames),
    ("affected_model_names", strTuple parts.affectedModelNames),
    ("affected_source_names", strTuple parts.affectedSourceNames),
    ("relations", .tuple (parts.relations.map structuralRelationPayload)),
    ("challenges", strTuple parts.challenges), ("preserves_sources", .bool false),
    ("preserves_replay_data", .bool false),
    ("manifest_fingerprint", .str parts.manifestFingerprint),
    ("relation_drop_size_limit", optionalInt parts.relationDropSizeLimit),
    ("relation_drop_size_server_limit", optionalInt parts.relationDropSizeServerLimit),
    ("relation_drop_size_override", optionalInt parts.relationDropSizeOverride),
    ("relation_drop_size_policy_observed", .bool parts.relationDropSizePolicyObserved)] ++
    if parts.includeOrphans then [("include_orphans", .bool true)] else [])

def buildPlan (host : PlanningHost) (request : DestructionRequest)
    (parts : DestructionPlanParts) : DestructionPlan where
  planId := match parts.planId with
    | none => "destruction_" ++ host.uuid4Hex
    | some planId => if planId = "" then "destruction_" ++ host.uuid4Hex else planId
  operation := request.operation
  target := request.target
  database := request.database
  metadataDatabase := request.metadataDatabase
  requestedPipelineNames := parts.requestedPipelineNames
  includedDependentPipelineNames := parts.includedDependentPipelineNames
  affectedPipelineNames := parts.affectedPipelineNames
  affectedModelNames := parts.affectedModelNames
  affectedSourceNames := parts.affectedSourceNames
  relations := parts.relations
  challenges := parts.challenges
  preservesSources := false
  preservesReplayData := false
  manifestFingerprint := parts.manifestFingerprint
  planFingerprint := fingerprint host.sha256Hexdigest (planPayload request parts)
  createdAt := parts.createdAt
  expiresAt := parts.createdAt + parts.ttl
  relationDropSizeLimit := parts.relationDropSizeLimit
  relationDropSizeServerLimit := parts.relationDropSizeServerLimit
  relationDropSizeOverride := parts.relationDropSizeOverride
  relationDropSizePolicyObserved := parts.relationDropSizePolicyObserved
  includeOrphans := parts.includeOrphans

def productionReset (request : DestructionRequest) : Bool :=
  decide (request.operation = .resetTarget) &&
    (decide (casefold request.target ∈ productionTargetNames) || A.project.productionTarget)

/-- The pipelines that the request names. -/
def DestructionRequest.supplied (request : DestructionRequest) : Finset String :=
  (request.pipelineNames ++ request.includedDependentPipelineNames).toFinset

/-- Whether the request names a pipeline that the project no longer has. -/
def DestructionRequest.namesHistory (request : DestructionRequest) (current : List String) :
    Bool :=
  decide (request.supplied \ current.toFinset ≠ ∅)

def historicalSnapshot (request : DestructionRequest) (connection : PlanningConnection)
    (current : List String) : Except DestructionError (Option ManifestSnapshot) :=
  if request.includeOrphans || request.namesHistory current then
    (loadManifestSnapshot A request connection).map some
  else .ok none

def availablePipelineNames (current : List String) (snapshot : Option ManifestSnapshot) :
    List String :=
  sortedNames (current.toFinset ∪ match snapshot with
    | none => ∅
    | some snapshot => manifestPipelineNames snapshot current)

def relationDropSizeLimit (connection : PlanningConnection) : Option Int :=
  match A.project.destructionRelationDropSizeLimit with
  | some limit => some limit
  | none => connection.loadRelationDropSizeLimit

def planDestruction (host : PlanningHost) (request : DestructionRequest)
    (connection : PlanningConnection) (now : Option DateTime) (ttl : Int)
    (planId : Option String) : Except DestructionError DestructionPlan := do
  let createdAt ← validatedCreatedAt host now ttl
  let current ← currentPipelineNames A request
  let snapshot ← historicalSnapshot A request connection current
  let (requested, included, affected) ← resolvePipelineSelection A request
    (availablePipelineNames current snapshot)
  let scope := relationScope request connection affected current snapshot
  let (modelNames, sourceNames, relations) ← scope.planRelationEvidence A request connection
    (relationDropSizeLimit A connection)
  let challenges ← buildDestructionChallenges affected (productionReset A request)
  return buildPlan host request
    { planId := planId
      createdAt := createdAt
      ttl := ttl
      requestedPipelineNames := requested
      includedDependentPipelineNames := included
      affectedPipelineNames := affected
      affectedModelNames := modelNames
      affectedSourceNames := sourceNames
      relations := relations
      challenges := challenges
      manifestFingerprint := fingerprint host.sha256Hexdigest A.manifestPayload
      relationDropSizeLimit := relationDropSizeLimit A connection
      relationDropSizeServerLimit := connection.loadRelationDropSizeServerDefault
      relationDropSizeOverride := A.project.destructionRelationDropSizeLimit
      relationDropSizePolicyObserved := true
      includeOrphans := request.includeOrphans || request.namesHistory current }

variable {A}

/-- The steps behind a plan. -/
structure PlannedBy (A : CompileAnalysis) (request : DestructionRequest)
    (connection : PlanningConnection) (plan : DestructionPlan)
    (current requested included : List String)
    (scope : RelationScope) (owned : Owned) : Prop where
  names : currentPipelineNames A request = .ok current
  loaded : historicalSnapshot A request connection current = .ok scope.snapshot
  selected : resolvePipelineSelection A request
    (availablePipelineNames current scope.snapshot) = .ok (requested, included, scope.affected)
  scope_eq : scope = relationScope request connection scope.affected current scope.snapshot
  collected : scope.ownedRelations A request connection = .ok owned
  affected : plan.affectedPipelineNames = scope.affected
  sources : plan.affectedSourceNames = scope.affectedSourceNames A request
  relations : plan.relations = buildEvidence request.database owned scope.catalog
    (loadRelationStats connection request.database (sortedNames owned.names.toFinset))

variable {request : DestructionRequest} {connection : PlanningConnection}

theorem RelationScope.planRelationEvidence_ok {scope : RelationScope} {limit : Option Int}
    {modelNames sourceNames : List String} {relations : List DestructionRelationEvidence}
    (h : scope.planRelationEvidence A request connection limit =
      .ok (modelNames, sourceNames, relations)) :
    ∃ owned, scope.ownedRelations A request connection = .ok owned ∧
      sourceNames = scope.affectedSourceNames A request ∧
      relations = buildEvidence request.database owned scope.catalog
        (loadRelationStats connection request.database (sortedNames owned.names.toFinset)) := by
  simp only [planRelationEvidence, bind_eq_ok, pure, Except.pure, Except.ok.injEq,
    Prod.mk.injEq] at h
  obtain ⟨owned, howned, -, -, -, -, -, -, -, hsources, hrelations⟩ := h
  exact ⟨owned, howned, hsources.symm, hrelations.symm⟩

theorem planDestruction_ok {host : PlanningHost} {now : Option DateTime} {ttl : Int}
    {planId : Option String} {plan : DestructionPlan}
    (h : planDestruction A host request connection now ttl planId = .ok plan) :
    ∃ current requested included scope owned,
      PlannedBy A request connection plan current requested included scope owned := by
  simp only [planDestruction, bind_eq_ok, pure, Except.pure, Except.ok.injEq] at h
  obtain ⟨createdAt, -, current, hcurrent, snapshot, hsnapshot, ⟨requested, included, affected⟩,
    hselected, ⟨modelNames, sourceNames, relations⟩, hevidence, challenges, -, rfl⟩ := h
  obtain ⟨owned, howned, hsources, hrelations⟩ :=
    RelationScope.planRelationEvidence_ok hevidence
  exact ⟨current, requested, included, relationScope request connection affected current snapshot,
    owned, hcurrent, hsnapshot, hselected, rfl, howned, rfl, hsources, hrelations⟩

end SqlTide.Destruction
