import SqlTide.Foundations.PythonText
import Mathlib.Tactic

/-!
# Destruction plans

The frozen plan of a destructive operation, the evidence it holds for every
relation, and the failures of the destruction domain.
-/

namespace SqlTide.Destruction

open Foundations

/-- A timezone-aware timestamp, as microseconds since the epoch: all comparisons
and equalities of the source are those of the instants. -/
abbrev Instant := Int

inductive DestructionOperation
  | destroyPipelines
  | resetTarget
  deriving DecidableEq, Repr

inductive DestructionRelationKind
  | view
  | materializedView
  | table
  | managedSource
  deriving DecidableEq, Repr

inductive DestructionOwnership
  | currentManifest
  | virtualPhysicalMapping
  | publishedStableBinding
  | ownershipLedger
  | historicalManifest
  deriving DecidableEq, Repr

def DestructionOperation.value : DestructionOperation → String
  | .destroyPipelines => "destroy_pipelines"
  | .resetTarget => "reset_target"

def DestructionRelationKind.value : DestructionRelationKind → String
  | .view => "view"
  | .materializedView => "materialized_view"
  | .table => "table"
  | .managedSource => "managed_source"

def DestructionOwnership.value : DestructionOwnership → String
  | .currentManifest => "current_manifest"
  | .virtualPhysicalMapping => "virtual_physical_mapping"
  | .publishedStableBinding => "published_stable_binding"
  | .ownershipLedger => "ownership_ledger"
  | .historicalManifest => "historical_manifest"

theorem DestructionRelationKind.value_injective : Function.Injective value := by
  intro a b
  cases a <;> cases b <;> decide

theorem DestructionOwnership.value_injective : Function.Injective value := by
  intro a b
  cases a <;> cases b <;> decide

/-- What the plan knows about one relation it drops. -/
structure DestructionRelationEvidence where
  database : String
  name : String
  kind : DestructionRelationKind
  doesExist : Bool
  totalBytes : Option Int
  activeParts : Option Int
  catalogFingerprint : Option String
  logicalNames : List String
  pipelineNames : List String
  ownership : List DestructionOwnership
  dependencyRelationNames : List String
  deriving DecidableEq, Repr

structure DestructionPlan where
  planId : String
  operation : DestructionOperation
  target : String
  database : String
  metadataDatabase : String
  requestedPipelineNames : List String
  includedDependentPipelineNames : List String
  affectedPipelineNames : List String
  affectedModelNames : List String
  affectedSourceNames : List String
  relations : List DestructionRelationEvidence
  challenges : List String
  preservesSources : Bool
  preservesReplayData : Bool
  manifestFingerprint : String
  planFingerprint : String
  createdAt : Instant
  expiresAt : Instant
  relationDropSizeLimit : Option Int := none
  relationDropSizeServerLimit : Option Int := none
  relationDropSizeOverride : Option Int := none
  relationDropSizePolicyObserved : Bool := false
  includeOrphans : Bool := false
  deriving DecidableEq, Repr

/-- The failures of the destruction domain, one constructor for each exception class. -/
inductive DestructionError
  | selection (message : String)
  | validation (message : String)
  | resource (message : String)
  | consistency (message : String)
  | dependency (dependentPipelineNames : List String)
  | externalDependency (relationNames : List String)
  | planNotFound (message : String)
  | planExpired (message : String)
  | planNotReviewed (message : String)
  | planCorrupt (message : String)
  | challenge (message : String)
  | drift (message : String)
  | recording (message : String)
  deriving DecidableEq, Repr

def DestructionError.message : DestructionError → String
  | .dependency names =>
    "Unselected dependent or shared-source pipelines must be explicitly included: " ++
      pyReprTuple names
  | .externalDependency names =>
    "Unmanaged warehouse dependants block destruction: " ++ pyReprTuple names
  | .selection message | .validation message | .resource message | .consistency message
  | .planNotFound message | .planExpired message | .planNotReviewed message
  | .planCorrupt message | .challenge message | .drift message | .recording message => message

end SqlTide.Destruction
