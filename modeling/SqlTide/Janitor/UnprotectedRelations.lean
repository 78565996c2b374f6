import SqlTide.Janitor.RollbackPoints

/-!
# What the janitor drops

A relation that the janitor drops carries the id of a deletable deployment. No binding that stays
reads it, and no deployment with this id is live, mapped unsafely, published lately, or among the
last that a rollback could go back to.
-/

namespace SqlTide.Janitor

open Destruction Foundations List Planner Promotion

variable {inventory : AdapterDeploymentInventory} {warehouse refreshed warehouse' : Warehouse}
  {request : JanitorRequest} {now : ℤ} {relation : String}
  {deployment deployment' : AdapterDeploymentRecord}

/-- The relation's own name says that the deployment has prepared it. -/
def BelongsTo (relation : String) (deployment : AdapterDeploymentRecord) : Prop :=
  isDeploymentPhysicalName relation = true ∧
    deploymentIdFromPhysicalName relation = some deployment.deploymentId

/-- The deployment can be rolled back to, and at most as many such deployments as are to be kept
were published as late. -/
def AmongLatestRollbackPoints (inventory : AdapterDeploymentInventory) (warehouse : Warehouse)
    (request : JanitorRequest) (deployment : AdapterDeploymentRecord) : Prop :=
  RollbackPoint inventory warehouse request.database deployment ∧
    ∃ rank, latestPublishRank inventory deployment.deploymentId = some rank ∧
      (eligibleDeployments inventory warehouse request.database).countP (fun deployment' =>
        (latestPublishRank inventory deployment'.deploymentId).any (rank ≤ ·)) ≤
          request.minimumRollbackDeployments

inductive Protected (inventory : AdapterDeploymentInventory) (warehouse : Warehouse)
    (request : JanitorRequest) (now : ℤ) (deployment : AdapterDeploymentRecord) : Prop
  | live : deployment.deploymentId ∈ activeDeploymentIds inventory warehouse →
      Protected inventory warehouse request now deployment
  | mappings : ¬ physicalMappingsAreSafe deployment →
      Protected inventory warehouse request now deployment
  | recent {publishedAt} : latestPublishTime inventory deployment.deploymentId = some publishedAt →
      retentionCutoff request now ≤ publishedAt →
      Protected inventory warehouse request now deployment
  | rollback : AmongLatestRollbackPoints inventory warehouse request deployment →
      Protected inventory warehouse request now deployment

/-- A dropped relation: it belongs to a deletable deployment, and to no protected one, and only
bindings that are removed read it. -/
structure DroppedSafely (inventory : AdapterDeploymentInventory) (warehouse refreshed : Warehouse)
    (request : JanitorRequest) (now : ℤ) (relation : String) : Prop where
  deletable : ∃ deployment ∈ inventory.deployments,
    (deletability inventory warehouse request now deployment).1 = true ∧
      BelongsTo relation deployment
  unbound : ∀ binding ∈ warehouse.activeBindings ++ refreshed.activeBindings,
    binding.physicalName = relation → stableName binding ∈ obsoleteRemovals inventory warehouse
  unprotected : ∀ deployment ∈ inventory.deployments, BelongsTo relation deployment →
    ¬ Protected inventory warehouse request now deployment
  unambiguous : ∀ deployment ∈ inventory.deployments, physicalMappingsAreSafe deployment →
    ∀ mapping ∈ deployment.preparedObjectMappings,
      (mapping.physicalName = relation ↔ BelongsTo relation deployment ∧
        logicalNameFromPhysicalName relation = mapping.logicalKey.name)

theorem orderedDeployments_perm (inventory : AdapterDeploymentInventory) (warehouse : Warehouse)
    (database : String) :
    (orderedDeployments inventory warehouse database).Perm
      ((eligibleDeployments inventory warehouse database).filterMap fun deployment =>
        (latestPublishRank inventory deployment.deploymentId).map (·, deployment)) :=
  perm_insertionSort _ _

theorem AmongLatestRollbackPoints.mem_rollbackDeploymentIds
    (h : AmongLatestRollbackPoints inventory warehouse request deployment)
    (hdeployment : deployment ∈ inventory.deployments) :
    deployment.deploymentId ∈ rollbackDeploymentIds inventory warehouse request.database
      request.minimumRollbackDeployments := by
  obtain ⟨hpoint, rank, hrank, hcount⟩ := h
  have heligible : deployment ∈ eligibleDeployments inventory warehouse request.database :=
    mem_filter.mpr ⟨hdeployment, decide_eq_true hpoint⟩
  have hperm := orderedDeployments_perm inventory warehouse request.database
  have hmem : (rank, deployment) ∈ orderedDeployments inventory warehouse request.database := by
    rw [hperm.mem_iff, mem_filterMap]
    exact ⟨deployment, heligible, by rw [hrank]; rfl⟩
  have hsame : (orderedDeployments inventory warehouse request.database).countP
      (fun ranked => rank ≤ ranked.1) =
      (eligibleDeployments inventory warehouse request.database).countP fun deployment' =>
        (latestPublishRank inventory deployment'.deploymentId).any (rank ≤ ·) := by
    rw [hperm.countP_eq, countP_filterMap]
    apply countP_congr
    intro deployment' _
    cases latestPublishRank inventory deployment'.deploymentId <;> simp
  have hpos : 0 < request.minimumRollbackDeployments := by
    refine lt_of_lt_of_le (countP_pos_iff.mpr ⟨deployment, heligible, ?_⟩) hcount
    simp [hrank]
  have hsorted : (orderedDeployments inventory warehouse request.database).Pairwise
      fun ranked ranked' => ranked'.1 ≤ ranked.1 := by
    have htotal : Std.Total fun ranked ranked' : EventRank × AdapterDeploymentRecord =>
        ranked'.1 ≤ ranked.1 := ⟨fun ranked ranked' => le_total ranked'.1 ranked.1⟩
    have htrans : IsTrans (EventRank × AdapterDeploymentRecord)
        fun ranked ranked' => ranked'.1 ≤ ranked.1 := ⟨fun _ _ _ h h' => h'.trans h⟩
    exact pairwise_insertionSort _ _
  have htake := mem_take_of_countP hsorted (le_refl rank) hmem (hsame.trans_le hcount)
  rw [rollbackDeploymentIds, if_neg (Nat.pos_iff_ne_zero.mp hpos)]
  exact mem_map_of_mem htake

theorem Deletable.not_protected (h : Deletable inventory warehouse request now deployment)
    (hdeployment : deployment ∈ inventory.deployments) :
    ¬ Protected inventory warehouse request now deployment := by
  intro hprotected
  cases hprotected with
  | live hlive => exact h.inactive hlive
  | mappings hunsafe => exact hunsafe h.safe
  | recent hpublished hrecent => exact absurd hrecent (not_le.mpr (h.old _ hpublished))
  | rollback hrollback => exact h.unretained (hrollback.mem_rollbackDeploymentIds hdeployment)

theorem BelongsTo.deploymentId_eq (h : BelongsTo relation deployment)
    (h' : BelongsTo relation deployment') : deployment.deploymentId = deployment'.deploymentId :=
  Option.some.inj (h.2.symm.trans h'.2)

/-- A safe mapping reads the relation just when the relation's name has its two parts. -/
theorem physicalName_eq_iff (hsafe : physicalMappingsAreSafe deployment)
    {mapping : PreparedObjectMapping} (hmapping : mapping ∈ deployment.preparedObjectMappings) :
    mapping.physicalName = relation ↔ BelongsTo relation deployment ∧
      logicalNameFromPhysicalName relation = mapping.logicalKey.name := by
  obtain ⟨hphysical, hid, hlogical⟩ := hsafe mapping hmapping
  constructor
  · rintro rfl
    exact ⟨⟨hphysical, hid⟩, hlogical⟩
  · rintro ⟨hbelongs, hname⟩
    exact physicalName_eq_of_parts hphysical hbelongs.1 (hlogical.trans hname.symm)
      (hid.trans hbelongs.2.symm)

/-- Two records of one deployment have the same mappings. -/
def MappingsById (inventory : AdapterDeploymentInventory) : Prop :=
  ∀ deployment ∈ inventory.deployments, ∀ deployment' ∈ inventory.deployments,
    deployment.deploymentId = deployment'.deploymentId →
      deployment.preparedObjectMappings = deployment'.preparedObjectMappings

/-- Being deletable is a matter of the deployment's id and mappings. -/
theorem Deletable.congr (h : Deletable inventory warehouse request now deployment)
    (hid : deployment.deploymentId = deployment'.deploymentId)
    (hmappings : deployment.preparedObjectMappings = deployment'.preparedObjectMappings) :
    Deletable inventory warehouse request now deployment' where
  safe := by
    have hsafe := h.safe
    rwa [physicalMappingsAreSafe, hid, hmappings] at hsafe
  unbound := hmappings ▸ h.unbound
  inactive := hid ▸ h.inactive
  unretained := hid ▸ h.unretained
  old := hid ▸ h.old

/-- What an apply has removed: the obsolete bindings, and the relations that it asked for. -/
theorem applyJanitor_drops
    (h : applyJanitor inventory warehouse request now refreshed = .ok warehouse') :
    (∀ name ∈ requestedObjectNames inventory warehouse request now,
      ∀ binding ∈ refreshed.activeBindings, binding.physicalName = name →
        stableName binding ∈ obsoleteRemovals inventory warehouse) ∧
      warehouse' = dropNames refreshed (droppedNames inventory warehouse request now) := by
  unfold applyJanitor at h
  dsimp only at h
  split_ifs at h with hnewly
  · obtain ⟨cleanup, hcleanup, hwarehouse⟩ := bind_eq_ok.mp h
    obtain ⟨-, rfl⟩ := renderRelationCleanup_eq_ok.mp hcleanup
    refine ⟨?_, (Except.ok.inj hwarehouse).symm⟩
    rintro name hname binding hbinding rfl
    by_contra hkept
    apply hnewly
    simp only [ne_eq, filter_eq_nil_iff, not_forall]
    refine ⟨binding.physicalName, mem_map_of_mem (mem_filter.mpr ⟨hbinding, ?_⟩), ?_⟩
    · simpa using hkept
    · simpa using hname

theorem droppedSafely_of_requested (hmappings : MappingsById inventory)
    (h : applyJanitor inventory warehouse request now refreshed = .ok warehouse')
    (hrelation : relation ∈ requestedObjectNames inventory warehouse request now) :
    DroppedSafely inventory warehouse refreshed request now relation := by
  obtain ⟨deployment, hdeployment, hdeletable, mapping, hmapping, hname⟩ :=
    mem_requestedObjectNames.mp hrelation
  have hbelongs := ((physicalName_eq_iff hdeletable.safe hmapping).mp hname).1
  constructor
  · exact ⟨deployment, hdeployment, deletability_eq_true.mpr hdeletable, hbelongs⟩
  · intro binding hbinding hbound
    rcases mem_append.mp hbinding with hbinding | hbinding
    · by_contra hkept
      refine hdeletable.unbound mapping hmapping ?_
      rw [hname, ← hbound]
      refine mem_map_of_mem (mem_filter.mpr ⟨hbinding, decide_eq_true fun hobsolete => ?_⟩)
      exact hkept (mem_map_of_mem (mem_filter.mpr ⟨hbinding, decide_eq_true hobsolete⟩))
    · exact (applyJanitor_drops h).1 relation hrelation binding hbinding hbound
  · intro deployment' hdeployment' hbelongs'
    have hid := hbelongs.deploymentId_eq hbelongs'
    exact (hdeletable.congr hid (hmappings _ hdeployment _ hdeployment' hid)).not_protected
      hdeployment'
  · intro deployment' _ hsafe mapping' hmapping'
    exact physicalName_eq_iff hsafe hmapping'

/-- Every relation that an apply takes out of a catalog, the removed views apart, is dropped
safely. -/
theorem janitor_drops_unprotected (hmappings : MappingsById inventory)
    (h : applyJanitor inventory warehouse request now refreshed = .ok warehouse')
    (database relation : String) (hbefore : relation ∈ refreshed.catalogs database)
    (hafter : relation ∉ warehouse'.catalogs database) :
    ⟨database, relation⟩ ∈ obsoleteRemovals inventory warehouse ∨
      database = request.database ∧
        DroppedSafely inventory warehouse refreshed request now relation := by
  obtain ⟨-, rfl⟩ := applyJanitor_drops h
  have hdropped : (⟨database, relation⟩ : AdapterStableBindingRemoval) ∈
      droppedNames inventory warehouse request now := by
    by_contra hkept
    exact hafter (mem_filter.mpr ⟨hbefore, by simpa using hkept⟩)
  rcases mem_append.mp hdropped with hremoved | hrequested
  · exact .inl hremoved
  · obtain ⟨name, hname, hsame⟩ := mem_map.mp hrequested
    obtain ⟨rfl, rfl⟩ := AdapterStableBindingRemoval.mk.inj hsame
    exact .inr ⟨rfl, droppedSafely_of_requested hmappings h hname⟩

/-- The third deployment is live and the second one kept, so the first one's relation goes. -/
theorem janitor_drops_unprotected_orders :
    (⟨"shop", "orders__20260727T100000Z_a"⟩ : AdapterStableBindingRemoval) ∈
        obsoleteRemovals ordersInventory (ordersWarehouse "20260727T120000Z_c") ∨
      "shop" = (ordersRequest 1).database ∧
        DroppedSafely ordersInventory (ordersWarehouse "20260727T120000Z_c")
          (ordersWarehouse "20260727T120000Z_c") (ordersRequest 1) 10
          "orders__20260727T100000Z_a" := by
  have happly : applyJanitor ordersInventory (ordersWarehouse "20260727T120000Z_c")
      (ordersRequest 1) 10 (ordersWarehouse "20260727T120000Z_c") = .ok _ :=
    applyJanitor_eq_ok.mpr ⟨by decide, rfl⟩
  refine janitor_drops_unprotected ?_ happly "shop" "orders__20260727T100000Z_a" (by decide)
    (by decide)
  unfold MappingsById
  decide

end SqlTide.Janitor
