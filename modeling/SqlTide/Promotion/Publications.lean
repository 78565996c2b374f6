import SqlTide.Destruction.PlanningInputs
import Mathlib.Data.List.MinMax
import Mathlib.Data.Prod.Lex

/-!
# Deployments, publications and stable bindings

The metadata records what each deployment has prepared and each publication has bound. A set of
bindings is compared by its sorted tuples, and publications by the time and id they carry.
-/

namespace SqlTide.Promotion

open Destruction List

/-- `AdapterDeploymentRecord`, as far as promotion and janitor read it. Times are microseconds
since the epoch. -/
structure AdapterDeploymentRecord extends DeploymentRecord where
  createdAt : ℤ
  status : String
  deriving DecidableEq, Repr

def virtualDeploymentStatusIncomplete : String := "incomplete"

structure AdapterPublishEventRecord where
  deploymentId : String
  publishedAt : ℤ
  logicalViewNames : List String
  publicationId : String
  bindings : List StableBinding
  operation : String
  previousDeploymentId : Option String
  deriving DecidableEq, Repr

structure AdapterDeploymentInventory where
  deployments : List AdapterDeploymentRecord
  publishEvents : List AdapterPublishEventRecord

/-- `database or default`. -/
def databaseOr (database : Option String) (default : String) : String :=
  (database.filter (· ≠ "")).getD default

/-- The relation a mapping prepares. -/
def relationOf (mapping : PreparedObjectMapping) (defaultDatabase : String) : String × String :=
  (databaseOr mapping.logicalKey.database defaultDatabase, mapping.physicalName)

/-- The stable binding of a mapping. -/
def bindingOf (mapping : PreparedObjectMapping) (defaultDatabase : String) : StableBinding :=
  ⟨databaseOr mapping.logicalKey.database defaultDatabase, mapping.logicalKey.name,
    mapping.physicalName⟩

/-- `_publish_mappings`: tables and views are published. -/
def publishMappings (deployment : AdapterDeploymentRecord) : List PreparedObjectMapping :=
  deployment.preparedObjectMappings.filter fun mapping =>
    mapping.logicalKey.objectType = .table ∨ mapping.logicalKey.objectType = .view

def expectedBindings (deployment : AdapterDeploymentRecord) (defaultDatabase : String) :
    List StableBinding :=
  (publishMappings deployment).map (bindingOf · defaultDatabase)

/-- The tuple by which bindings are sorted. -/
def bindingKey (binding : StableBinding) : String ×ₗ String ×ₗ String :=
  toLex (binding.database, toLex (binding.logicalName, binding.physicalName))

theorem bindingKey_injective : Function.Injective bindingKey := by
  rintro ⟨database, logicalName, physicalName⟩ ⟨database', logicalName', physicalName'⟩ h
  simpa [bindingKey] using h

instance : LinearOrder StableBinding := LinearOrder.lift' bindingKey bindingKey_injective

def bindingIdentity (bindings : List StableBinding) : List StableBinding :=
  bindings.insertionSort (· ≤ ·)

theorem bindingIdentity_perm (bindings : List StableBinding) :
    (bindingIdentity bindings).Perm bindings := perm_insertionSort _ _

theorem bindingIdentity_eq_iff {bindings bindings' : List StableBinding} :
    bindingIdentity bindings = bindingIdentity bindings' ↔ bindings.Perm bindings' := by
  constructor
  · intro h
    exact (bindingIdentity_perm bindings).symm.trans (h ▸ bindingIdentity_perm bindings')
  · intro h
    exact List.Perm.eq_of_pairwise (fun _ _ _ _ => le_antisymm)
      (pairwise_insertionSort _ _) (pairwise_insertionSort _ _)
      ((bindingIdentity_perm bindings).trans (h.trans (bindingIdentity_perm bindings').symm))

/-- A rank is a time and an id. -/
structure EventRank where
  publishedAt : ℤ
  id : String
  deriving DecidableEq, Repr

theorem EventRank.toLex_injective :
    Function.Injective fun rank : EventRank => toLex (rank.publishedAt, rank.id) := by
  rintro ⟨publishedAt, id⟩ ⟨publishedAt', id'⟩ h
  simpa using h

instance : LinearOrder EventRank :=
  LinearOrder.lift' (fun rank => toLex (rank.publishedAt, rank.id)) EventRank.toLex_injective

def eventRank (event : AdapterPublishEventRecord) : EventRank where
  publishedAt := event.publishedAt
  id := if event.publicationId = "" then event.deploymentId else event.publicationId

/-- `max(events, key=_event_rank)`: the first of the highest rank. -/
def latestEvent (events : List AdapterPublishEventRecord) : Option AdapterPublishEventRecord :=
  events.argmax eventRank

theorem latestEvent_of_pairwise {events : List AdapterPublishEventRecord}
    (h : events.Pairwise (eventRank · < eventRank ·)) : latestEvent events = events.getLast? := by
  induction events using reverseRecOn with
  | nil => rfl
  | append_singleton events event _ =>
    rw [latestEvent, argmax_concat, getLast?_concat]
    cases hlatest : events.argmax eventRank with
    | none => rfl
    | some latest =>
      have hlt : eventRank latest < eventRank event :=
        (pairwise_append.mp h).2.2 latest (argmax_mem hlatest) event (by simp)
      exact if_pos hlt

/-- Among events of rising rank, the latest with a property is the last one that has it. -/
theorem latestEvent_filter {before after : List AdapterPublishEventRecord}
    {event : AdapterPublishEventRecord} {p : AdapterPublishEventRecord → Bool}
    (hranked : (before ++ event :: after).Pairwise (eventRank · < eventRank ·))
    (hevent : p event = true) (hafter : ∀ later ∈ after, p later = false) :
    latestEvent ((before ++ event :: after).filter p) = some event := by
  have hrest : after.filter p = [] :=
    filter_eq_nil_iff.mpr fun later hlater => by simp [hafter later hlater]
  rw [latestEvent_of_pairwise (hranked.filter p), filter_append,
    filter_cons_of_pos hevent, hrest, getLast?_concat]

end SqlTide.Promotion
