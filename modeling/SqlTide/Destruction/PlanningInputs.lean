import SqlTide.Compiler.ProjectGraph
import SqlTide.Destruction.Fingerprint
import SqlTide.Destruction.Ordering

/-!
# What a destruction plan is built from

The request, the compiled and realized project, and what the warehouse answers:
its catalog, the recorded deployments and publications, and the manifests of
earlier publications, the last one first.
-/

namespace SqlTide.Destruction

open Foundations Compiler

/-- A timestamp argument; only an aware one denotes an instant of its own. -/
structure DateTime where
  instant : Instant
  aware : Bool
  deriving DecidableEq, Repr

structure DestructionRequest where
  operation : DestructionOperation
  target : String
  database : String
  metadataDatabase : String
  pipelineNames : List String
  includedDependentPipelineNames : List String
  includeOrphans : Bool
  orphans_destroy : includeOrphans = true → operation = .destroyPipelines
  disjoint : ∀ n ∈ pipelineNames, n ∉ includedDependentPipelineNames

/-- `__post_init__`: what a request must satisfy, and its names in order. -/
def DestructionRequest.make (operation : DestructionOperation)
    (target database metadataDatabase : String)
    (pipelineNames includedDependentPipelineNames : List String) (includeOrphans : Bool) :
    Except DestructionError DestructionRequest :=
  if horphans : includeOrphans = true ∧ operation ≠ .destroyPipelines then
    .error (.validation "Orphan inclusion is only valid for selected pipeline destruction")
  else if ¬ pipelineNames.Nodup then
    .error (.validation "Pipeline destruction selection contains duplicate names")
  else if ¬ includedDependentPipelineNames.Nodup then
    .error (.validation "Included dependent pipeline selection contains duplicate names")
  else if hoverlap : pipelineNames.toFinset ∩ includedDependentPipelineNames.toFinset ≠ ∅ then
    .error (.validation
      ("Pipelines cannot be both originally selected and included dependants: " ++
        pyReprTuple (sortedNames
          (pipelineNames.toFinset ∩ includedDependentPipelineNames.toFinset))))
  else .ok
    { operation := operation
      target := target
      database := database
      metadataDatabase := metadataDatabase
      pipelineNames := sortedNames pipelineNames.toFinset
      includedDependentPipelineNames := sortedNames includedDependentPipelineNames.toFinset
      includeOrphans := includeOrphans
      orphans_destroy := fun h => not_not.mp fun hop => horphans ⟨h, hop⟩
      disjoint := by
        intro n hn hincluded
        simp only [mem_sortedNames] at hn hincluded
        have hmem : n ∈ pipelineNames.toFinset ∩ includedDependentPipelineNames.toFinset :=
          Finset.mem_inter.mpr ⟨hn, hincluded⟩
        rw [not_not.mp hoverlap] at hmem
        exact absurd hmem (Finset.notMem_empty n) }

inductive AdapterResourceKind
  | managedSource
  | table
  | materializedView
  | view
  deriving DecidableEq, Repr

/-- A warehouse relation that realizes a logical resource. -/
structure AdapterResource where
  kind : AdapterResourceKind
  name : String
  deriving DecidableEq, Repr

/-- A compiled and realized project. Relation names are unique over the project,
and the source of a pipeline is read by one of its models. -/
structure CompileAnalysis where
  project : CompiledProject
  graph : ProjectGraph project
  resourcesByLogicalKey : LogicalResourceKey → List AdapterResource
  projectDirName : String
  manifestPayload : PyValue
  relation_owner : ∀ k ∈ project.keys, ∀ k' ∈ project.keys, ∀ r ∈ resourcesByLogicalKey k,
    ∀ r' ∈ resourcesByLogicalKey k', r.name = r'.name → k = k'
  source_read : ∀ p ∈ project.pipelines, ∀ s, p.source = some s → s ∈ project.sources ∧
    ∃ m ∈ project.models, m.pipelineName = p.name ∧ graph.Reads m.key s.key

structure CatalogRelation where
  name : String
  engine : String
  sourceRelationNames : List String := []
  targetRelationName : Option String := none
  stableBindingName : Option String := none
  ownershipGeneration : Option String := none
  deriving DecidableEq, Repr

abbrev CatalogSnapshot := List CatalogRelation

def CatalogSnapshot.relation (catalog : CatalogSnapshot) (name : String) :
    Option CatalogRelation :=
  catalog.find? fun r => r.name = name

inductive DesiredObjectType
  | kafkaTable
  | table
  | materializedView
  | view
  deriving DecidableEq, Repr

structure MetadataObjectKey where
  database : Option String
  objectType : DesiredObjectType
  name : String
  deriving DecidableEq, Repr

/-- One relation that a deployment prepared for an object of a logical model. -/
structure PreparedObjectMapping where
  logicalKey : MetadataObjectKey
  physicalName : String
  logicalModelName : String
  deriving DecidableEq, Repr

structure DeploymentRecord where
  deploymentId : String
  preparedObjectMappings : List PreparedObjectMapping
  deriving DecidableEq, Repr

/-- A stable name published over a physical relation. -/
structure StableBinding where
  database : String
  logicalName : String
  physicalName : String
  deriving DecidableEq, Repr

structure PublishEventRecord where
  deploymentId : String
  publishedAt : String
  bindings : List StableBinding
  deriving DecidableEq, Repr

/-- What the metadata records about deployments. Physical relations carry the suffix of
their deployment, which stable names must not have, so that no published stable name is
the name of a physical relation. -/
structure DeploymentInventory where
  deployments : List DeploymentRecord
  publishEvents : List PublishEventRecord
  stable_not_physical : ∀ e ∈ publishEvents, ∀ b ∈ e.bindings, ∀ e' ∈ publishEvents,
    ∀ b' ∈ e'.bindings, b.logicalName ≠ b'.physicalName
  deriving DecidableEq

structure ManifestResource where
  pipelineName : String
  logicalType : String
  logicalName : String
  resourceRole : String
  resourceDatabase : String
  resourceName : String
  resourceKind : String
  deriving DecidableEq, Repr

structure Manifest where
  manifestVersion : Int
  resources : List ManifestResource
  deriving DecidableEq, Repr

inductive OptionalStateStatus
  | available
  | absent
  | unavailable
  deriving DecidableEq, Repr

structure ManifestSnapshot where
  status : OptionalStateStatus
  manifests : List Manifest
  warning : Option String := none
  deriving DecidableEq, Repr

/-- The rows of a statement over `system.parts`: name, bytes and parts of a relation. -/
abbrev PartsRows := List (String × Int × Int)

/-- The read-only adapter surface of planning. -/
structure PlanningConnection where
  loadCatalog : (database : String) → CatalogSnapshot
  loadDeploymentInventory : (database : String) → DeploymentInventory
  loadManifests : (database projectIdentity targetName targetDatabase : String) →
    ManifestSnapshot
  loadExternalDependants : (database : String) → (relationNames : List String) → List String
  loadRelationDropSizeLimit : Option Int
  loadRelationDropSizeServerDefault : Option Int
  query : (statement : String) → PartsRows

/-- The digest, the clock and the fresh identifier that planning uses. -/
structure PlanningHost where
  sha256Hexdigest : String → String
  utcNow : Instant
  uuid4Hex : String

end SqlTide.Destruction
