import SqlTide.Janitor.Cleanup

/-!
# Rollback points of janitor and of rollback

Janitor keeps deployments for a rollback, and a rollback looks for its target on its own. Janitor
takes any publication of a deployment for its complete one and no live binding for the current
publication, where rollback takes the latest publication and the bindings as they are.
-/

namespace SqlTide.Janitor

open Destruction Foundations List Planner Promotion

variable (inventory : AdapterDeploymentInventory) (warehouse : Warehouse)
  (request : JanitorRequest) (now : ℤ)

/-- The record's relations are all there. -/
def RelationsAvailable (database : String) (record : AdapterDeploymentRecord) : Prop :=
  ∀ mapping ∈ record.preparedObjectMappings,
    (relationOf mapping database).2 ∈ warehouse.catalogs (relationOf mapping database).1

/-- A deployment whose relations the janitor drops. -/
structure Deletable (deployment : AdapterDeploymentRecord) : Prop where
  safe : physicalMappingsAreSafe deployment
  unbound : ∀ mapping ∈ deployment.preparedObjectMappings,
    mapping.physicalName ∉ activeRelationNames inventory warehouse
  inactive : deployment.deploymentId ∉ activeDeploymentIds inventory warehouse
  unretained : deployment.deploymentId ∉ rollbackDeploymentIds inventory warehouse
    request.database request.minimumRollbackDeployments
  old : ∀ publishedAt ∈ latestPublishTime inventory deployment.deploymentId,
    publishedAt < retentionCutoff request now

/-- A name that the janitor drops: of an obsolete binding, or of a deletable relation. -/
def Dropped (name : AdapterStableBindingRemoval) : Prop :=
  (∃ binding ∈ warehouse.activeBindings, ObsoleteBinding inventory binding ∧
    stableName binding = name) ∨
  ∃ deployment ∈ inventory.deployments, Deletable inventory warehouse request now deployment ∧
    ∃ mapping ∈ deployment.preparedObjectMappings, ⟨request.database, mapping.physicalName⟩ = name

/-- The bindings are those of the publication `current`, and the last publication before it with
other bindings is `target`, of a deployment recorded with just these. -/
structure WayBack (database : String) (activeBindings : List StableBinding)
    (current target : AdapterPublishEventRecord) (record : AdapterDeploymentRecord) : Prop where
  live : activeBindings ≠ []
  isCurrent : latestEvent (inventory.publishEvents.filter fun event =>
    bindingIdentity event.bindings = bindingIdentity activeBindings) = some current
  isPrevious : latestEvent (inventory.publishEvents.filter fun event =>
    eventRank event < eventRank current ∧
      bindingIdentity event.bindings ≠ bindingIdentity current.bindings) = some target
  recorded : deploymentById inventory.deployments target.deploymentId = some record
  complete : target.bindings.Perm (expectedBindings record database)

variable {inventory warehouse request now}

variable {database : String} {dropped : List AdapterStableBindingRemoval}

theorem deletability_eq_true {deployment : AdapterDeploymentRecord} :
    (deletability inventory warehouse request now deployment).1 = true ↔
      Deletable inventory warehouse request now deployment := by
  unfold deletability
  constructor
  · intro hdeletable
    split_ifs at hdeletable with hsafe hbound hactive hretained
    refine ⟨hsafe, ?_, hactive, hretained, ?_⟩
    · intro mapping hmapping hname
      exact hbound ⟨mapping, hmapping, hname⟩
    · intro publishedAt hpublished
      rw [Option.mem_def.mp hpublished] at hdeletable
      by_contra hrecent
      simp [not_lt.mp hrecent] at hdeletable
  · intro h
    rw [if_neg (not_not.mpr h.safe), if_neg, if_neg h.inactive, if_neg h.unretained]
    · cases hpublished : latestPublishTime inventory deployment.deploymentId with
      | none => rfl
      | some publishedAt => simp [not_le.mpr (h.old publishedAt hpublished)]
    · rintro ⟨mapping, hmapping, hname⟩
      exact h.unbound mapping hmapping hname

theorem mem_requestedObjectNames {name : String} :
    name ∈ requestedObjectNames inventory warehouse request now ↔
      ∃ deployment ∈ inventory.deployments,
        Deletable inventory warehouse request now deployment ∧
        ∃ mapping ∈ deployment.preparedObjectMappings, mapping.physicalName = name := by
  simp only [requestedObjectNames, previewJanitor, mem_flatMap, mem_filter, mem_map,
    mem_insertionSort]
  constructor
  · rintro ⟨_, ⟨⟨deployment, hdeployment, rfl⟩, hdeletable⟩, hname⟩
    simp only [mem_insertionSort, mem_map] at hname
    exact ⟨deployment, hdeployment, deletability_eq_true.mp hdeletable, hname⟩
  · rintro ⟨deployment, hdeployment, hdeletable, hname⟩
    refine ⟨_, ⟨⟨deployment, hdeployment, rfl⟩, deletability_eq_true.mpr hdeletable⟩, ?_⟩
    simpa only [mem_insertionSort, mem_map] using hname

/-- The names that an apply drops. -/
def droppedNames (inventory : AdapterDeploymentInventory) (warehouse : Warehouse)
    (request : JanitorRequest) (now : ℤ) : List AdapterStableBindingRemoval :=
  obsoleteRemovals inventory warehouse ++
    (requestedObjectNames inventory warehouse request now).map (⟨request.database, ·⟩)

theorem mem_droppedNames {name : AdapterStableBindingRemoval} :
    name ∈ droppedNames inventory warehouse request now ↔
      Dropped inventory warehouse request now name := by
  simp only [droppedNames, obsoleteRemovals, bindingActivity, mem_append, mem_map,
    mem_filter, decide_eq_true_eq, mem_requestedObjectNames, Dropped]
  refine or_congr ?_ ?_
  · simp only [and_assoc]
  · constructor
    · rintro ⟨_, ⟨deployment, hdeployment, hdeletable, mapping, hmapping, rfl⟩, hname⟩
      exact ⟨deployment, hdeployment, hdeletable, mapping, hmapping, hname⟩
    · rintro ⟨deployment, hdeployment, hdeletable, mapping, hmapping, hname⟩
      exact ⟨_, ⟨deployment, hdeployment, hdeletable, mapping, hmapping, rfl⟩, hname⟩

theorem renderRelationCleanup_eq_ok {relationNames : List String} :
    renderRelationCleanup warehouse request relationNames = .ok dropped ↔
      (∀ name ∈ relationNames, name ∉ warehouse.activeBindings.map (·.physicalName)) ∧
        dropped = relationNames.map (⟨request.database, ·⟩) := by
  unfold renderRelationCleanup
  induction relationNames generalizing dropped with
  | nil => simp [mapM_nil, pure, Except.pure, eq_comm]
  | cons name names ih =>
    rw [mapM_cons]
    by_cases hbound : name ∈ warehouse.activeBindings.map (·.physicalName)
    · simp only [if_pos hbound, forall_mem_cons]
      constructor
      · rintro ⟨⟩
      · rintro ⟨⟨hunbound, -⟩, -⟩
        exact absurd hbound hunbound
    · simp only [if_neg hbound, forall_mem_cons, map_cons, bind_eq_ok, ih]
      constructor
      · rintro ⟨dropped, hfirst, _, ⟨hnames, rfl⟩, hdropped⟩
        cases hfirst
        exact ⟨⟨hbound, hnames⟩, (Except.ok.inj hdropped).symm⟩
      · rintro ⟨⟨-, hnames⟩, rfl⟩
        exact ⟨_, rfl, _, ⟨hnames, rfl⟩, rfl⟩

theorem applyJanitor_eq_ok {warehouse' : Warehouse} :
    applyJanitor inventory warehouse request now warehouse = .ok warehouse' ↔
      (∀ name ∈ requestedObjectNames inventory warehouse request now,
        name ∉ warehouse.activeBindings.map (·.physicalName)) ∧
      warehouse' = dropNames warehouse (droppedNames inventory warehouse request now) := by
  unfold applyJanitor
  dsimp only
  split_ifs with hnewly
  · constructor
    · rintro ⟨⟩
    · rintro ⟨hunbound, -⟩
      obtain ⟨name, hname⟩ := exists_mem_of_ne_nil _ hnewly
      obtain ⟨hactive, hrequested⟩ := mem_filter.mp hname
      obtain ⟨binding, hbinding, rfl⟩ := mem_map.mp hactive
      exact absurd (mem_map_of_mem (mem_filter.mp hbinding).1)
        (hunbound _ (by simpa using hrequested))
  · simp only [bind_eq_ok, renderRelationCleanup_eq_ok]
    constructor
    · rintro ⟨_, ⟨hunbound, rfl⟩, hwarehouse⟩
      exact ⟨hunbound, (Except.ok.inj hwarehouse).symm⟩
    · rintro ⟨hunbound, rfl⟩
      exact ⟨_, ⟨hunbound, rfl⟩, rfl⟩

/-- The live bindings that an apply leaves. -/
def remainingBindings (inventory : AdapterDeploymentInventory) (warehouse : Warehouse)
    (request : JanitorRequest) (now : ℤ) : List StableBinding :=
  warehouse.activeBindings.filter fun binding =>
    stableName binding ∉ droppedNames inventory warehouse request now

variable (inventory warehouse request now)

/-- An apply that drops no relation of a live binding drops none of the previous publication's
deployment. It may drop those live views whose loss leaves just the bindings of a publication again,
from which the last one with other bindings is of the same deployment. -/
def PreviousKept : Prop :=
  ∀ current target record,
    WayBack inventory request.database warehouse.activeBindings current target record →
    RelationsAvailable warehouse request.database record →
    (∀ deployment ∈ inventory.deployments, Deletable inventory warehouse request now deployment →
      ∀ mapping ∈ deployment.preparedObjectMappings,
        mapping.physicalName ∉ warehouse.activeBindings.map (·.physicalName)) →
    (∀ mapping ∈ record.preparedObjectMappings, ¬ Dropped inventory warehouse request now
      ⟨(relationOf mapping request.database).1, (relationOf mapping request.database).2⟩) ∧
    ∃ current' target', target'.deploymentId = target.deploymentId ∧
      WayBack inventory request.database (remainingBindings inventory warehouse request now)
        current' target' record

variable {inventory warehouse request now}

theorem remainingBindings_eq_self (hnone : ∀ binding ∈ warehouse.activeBindings,
    ¬ Dropped inventory warehouse request now (stableName binding)) :
    remainingBindings inventory warehouse request now = warehouse.activeBindings := by
  refine filter_eq_self.mpr fun binding hbinding => ?_
  rw [decide_eq_true_eq, mem_droppedNames]
  exact hnone binding hbinding

/-- The way back stays where no live view is dropped, and no relation of a target. -/
theorem previousKept_of_untouched (hviews : ∀ binding ∈ warehouse.activeBindings,
      ¬ Dropped inventory warehouse request now (stableName binding))
    (hrelations : ∀ current target record,
      WayBack inventory request.database warehouse.activeBindings current target record →
      ∀ mapping ∈ record.preparedObjectMappings, ¬ Dropped inventory warehouse request now
        ⟨(relationOf mapping request.database).1, (relationOf mapping request.database).2⟩) :
    PreviousKept inventory warehouse request now := by
  intro current target record hway _ _
  refine ⟨hrelations current target record hway, current, target, rfl, ?_⟩
  rwa [remainingBindings_eq_self hviews]

/-- A published deployment of the model `orders`. -/
def ordersDeployment (deploymentId : String) : AdapterDeploymentRecord :=
  { deploymentId
    preparedObjectMappings :=
      [⟨⟨none, .table, "orders"⟩, "orders__" ++ deploymentId, "model.orders"⟩]
    createdAt := 0
    status := "published" }

def ordersBinding (deploymentId : String) : StableBinding :=
  ⟨"shop", "orders", "orders__" ++ deploymentId⟩

def ordersEvent (deploymentId : String) (publishedAt : ℤ) : AdapterPublishEventRecord :=
  buildPublishEvent deploymentId publishedAt "" [ordersBinding deploymentId] "shop" "promote" none

def ordersIds : List String :=
  ["20260727T100000Z_a", "20260727T110000Z_b", "20260727T120000Z_c"]

/-- Three deployments of `orders`, published one after the other. -/
def ordersInventory : AdapterDeploymentInventory where
  deployments := ordersIds.map ordersDeployment
  publishEvents := zipWith ordersEvent ordersIds [1, 2, 3]

/-- All relations are there, and the view is of this deployment. -/
def ordersWarehouse (deploymentId : String) : Warehouse where
  activeBindings := [ordersBinding deploymentId]
  catalogs _ := "orders" :: ordersIds.map ("orders__" ++ ·)

def ordersRequest (minimumRollbackDeployments : ℕ) : JanitorRequest :=
  ⟨"shop", 0, minimumRollbackDeployments⟩

end SqlTide.Janitor
