import SqlTide.Foundations.Runs
import SqlTide.Promotion.Publishing

/-!
# Rollback over a history of publications

Promotions and rollbacks of staged deployments follow one another, and no relation is dropped. As
long as every operation's deployment has prepared the models that are live, the live bindings are
those of the last publication, so the next rollback finds where it is and where to go back to.
-/

namespace SqlTide.Promotion

open Destruction Foundations List Runs

/-- The staged deployments: each prepares relations of the default database under names of its
own, which stay. A publication id is the time in nanoseconds and a hash. -/
structure Staging where
  deployments : List AdapterDeploymentRecord
  relations : String → List String
  physicalCandidates : List InspectedPhysicalTableCandidate
  defaultDatabase : String
  publicationId : ℕ → String
  ids : (deployments.map (·.deploymentId)).Nodup
  databases : ∀ deployment ∈ deployments, ∀ mapping ∈ deployment.preparedObjectMappings,
    databaseOr mapping.logicalKey.database defaultDatabase = defaultDatabase
  names : ∀ deployment ∈ deployments,
    ((expectedBindings deployment defaultDatabase).map stableName).Nodup
  retained : ∀ deployment ∈ deployments, deployment.status ≠ virtualDeploymentStatusIncomplete →
    ∀ mapping ∈ deployment.preparedObjectMappings,
      mapping.physicalName ∈ relations defaultDatabase
  publicationIds : StrictMono publicationId
  publicationIds_ne : ∀ count, publicationId count ≠ ""

/-- A publish event with the live bindings right after its operation. -/
structure Publication where
  event : AdapterPublishEventRecord
  bindings : List StableBinding

structure PromotionState where
  activeBindings : List StableBinding
  publications : List Publication
  clock : ℤ

def PromotionState.fresh (clock : ℤ) : PromotionState := ⟨[], [], clock⟩

inductive OperationKind
  | promote (deploymentId : String)
  | rollback (target : RollbackTarget)

/-- An operation, and the time the warehouse's clock gains until it is recorded. -/
structure Operation where
  kind : OperationKind
  elapsed : ℕ

variable (staging : Staging) (state : PromotionState)

def PromotionState.publishEvents : List AdapterPublishEventRecord :=
  state.publications.map (·.event)

def inventory : AdapterDeploymentInventory := ⟨staging.deployments, state.publishEvents⟩

/-- `load_catalog`: the staged relations and the stable views. -/
def catalog (database : String) : List String :=
  staging.relations database ++
    (state.activeBindings.filter (·.database = database)).map (·.logicalName)

def executePublish (deploymentId operation : String) (previousDeploymentId : Option String)
    (elapsed : ℕ) : Except String PromotionState := do
  let request ← buildPublishBindingRequest (inventory staging state)
    (catalog staging state staging.defaultDatabase)
    ⟨state.activeBindings, staging.physicalCandidates⟩ staging.defaultDatabase deploymentId
  let event := buildPublishEvent deploymentId (state.clock + elapsed)
    (staging.publicationId state.publications.length) request.bindings staging.defaultDatabase
    operation previousDeploymentId
  let activeBindings := replaceStableBindings state.activeBindings request
  .ok
    { activeBindings
      publications := state.publications ++ [⟨event, activeBindings⟩]
      clock := state.clock + elapsed }

def rollbackPlan (target : RollbackTarget) : Except String RollbackPlan :=
  resolveRollbackPlan (inventory staging state) state.activeBindings (catalog staging state)
    staging.defaultDatabase target

/-- `_run_deployment_promotion` and `_run_deployment_rollback`. -/
def executeOperation (operation : Operation) : Except String PromotionState :=
  match operation.kind with
  | .promote deploymentId =>
    executePublish staging state deploymentId "promote" none operation.elapsed
  | .rollback target => do
    let plan ← rollbackPlan staging state target
    executePublish staging state plan.targetDeploymentId "rollback"
      (some plan.currentDeploymentId) operation.elapsed

/-- An operation that fails publishes nothing. -/
def nextOperation (operation : Operation) : PromotionState :=
  match executeOperation staging state operation with
  | .ok state' => state'
  | .error _ => state

/-- The deployment that an operation publishes. -/
def operationDeployment (operation : Operation) : Except String String :=
  match operation.kind with
  | .promote deploymentId => .ok deploymentId
  | .rollback target => (·.targetDeploymentId) <$> rollbackPlan staging state target

/-- The recorded deployment of this id has prepared every model that is live. -/
def PreparesLiveModels (deploymentId : String) : Prop :=
  ∃ deployment ∈ staging.deployments, deployment.deploymentId = deploymentId ∧
    ∀ published ∈ staging.deployments, ∀ mapping ∈ publishMappings published,
      bindingOf mapping staging.defaultDatabase ∈ state.activeBindings →
        mapping.logicalModelName ∈ (publishMappings deployment).map (·.logicalModelName)

instance (deploymentId : String) : Decidable (PreparesLiveModels staging state deploymentId) :=
  inferInstanceAs (Decidable (∃ deployment ∈ staging.deployments,
    deployment.deploymentId = deploymentId ∧
      ∀ published ∈ staging.deployments, ∀ mapping ∈ publishMappings published,
        bindingOf mapping staging.defaultDatabase ∈ state.activeBindings →
          mapping.logicalModelName ∈ (publishMappings deployment).map (·.logicalModelName)))

/-- The operation's deployment has prepared every model that is live. -/
def KeepsModels (operation : Operation) : Prop :=
  ∀ deploymentId, operationDeployment staging state operation = .ok deploymentId →
    PreparesLiveModels staging state deploymentId

instance (operation : Operation) : Decidable (KeepsModels staging state operation) :=
  match h : operationDeployment staging state operation with
  | .ok deploymentId => decidable_of_iff (PreparesLiveModels staging state deploymentId)
      ⟨fun hprepares _ hid => Except.ok.inj (h.symm.trans hid) ▸ hprepares,
        fun hkeeps => hkeeps _ h⟩
  | .error _ => isTrue fun _ hid => absurd (h.symm.trans hid) nofun

/-- The last operation's publication is current, and a rollback goes back to the last publication
that left other bindings; where its deployment is allowed, they are live again afterwards. -/
def RollbackPossible (Allowed : String → Prop) : Prop :=
  ∀ earlier current, state.publications = earlier ++ [current] →
    currentPublishEvent state.publishEvents state.activeBindings = .ok current.event ∧
    ∀ before target between, earlier = before ++ target :: between →
      bindingIdentity target.bindings ≠ bindingIdentity current.bindings →
      (∀ publication ∈ between,
        bindingIdentity publication.bindings = bindingIdentity current.bindings) →
      (∃ plan, rollbackPlan staging state .previous = .ok plan ∧
        plan.currentDeploymentId = current.event.deploymentId ∧
        plan.targetDeploymentId = target.event.deploymentId) ∧
      targetPublishEvent state.publishEvents .previous current.event = .ok target.event ∧
      (Allowed target.event.deploymentId → ∀ elapsed, ∃ state',
        executeOperation staging state ⟨.rollback .previous, elapsed⟩ = .ok state' ∧
        bindingIdentity state'.activeBindings = bindingIdentity target.bindings)

/-- The state after a publication of this deployment that leaves just its bindings live. -/
def publishedState (deployment : AdapterDeploymentRecord) (operation : String)
    (previousDeploymentId : Option String) (elapsed : ℕ) : PromotionState :=
  let bindings := (orderedMappings deployment).map (bindingOf · staging.defaultDatabase)
  { activeBindings := bindings
    publications := state.publications ++
      [⟨buildPublishEvent deployment.deploymentId (state.clock + elapsed)
        (staging.publicationId state.publications.length) bindings staging.defaultDatabase
        operation previousDeploymentId, bindings⟩]
    clock := state.clock + elapsed }

variable {staging : Staging} {state state' : PromotionState}
  {deployment : AdapterDeploymentRecord} {deploymentId operation : String}
  {previousDeploymentId : Option String} {elapsed : ℕ} {publication : Publication}

theorem deployments_filter (hdeployment : deployment ∈ staging.deployments) :
    staging.deployments.filter (·.deploymentId = deployment.deploymentId) = [deployment] :=
  filter_key_eq_singleton staging.ids hdeployment

theorem deployments_find? (hdeployment : deployment ∈ staging.deployments) :
    staging.deployments.find? (·.deploymentId = deployment.deploymentId) = some deployment := by
  rw [← head?_filter, deployments_filter hdeployment]
  rfl

theorem deploymentById_staging (hdeployment : deployment ∈ staging.deployments) :
    deploymentById staging.deployments deployment.deploymentId = some deployment := by
  rw [deploymentById, deployments_filter hdeployment]
  rfl

/-- The publication is of this complete deployment, and left just its bindings live. -/
structure PublicationOf (staging : Staging) (publication : Publication)
    (deployment : AdapterDeploymentRecord) : Prop where
  mem : deployment ∈ staging.deployments
  deploymentId : publication.event.deploymentId = deployment.deploymentId
  complete : deployment.status ≠ virtualDeploymentStatusIncomplete
  nonempty : publishMappings deployment ≠ []
  logicalViewNames :
    publication.event.logicalViewNames = publication.event.bindings.map (·.logicalName)
  recorded : publication.event.bindings.Perm (expectedBindings deployment staging.defaultDatabase)
  bindings : publication.bindings = publication.event.bindings

/-- The publications are ranked as they were made, and the last one is live. -/
structure HistoryInv (staging : Staging) (state : PromotionState) : Prop where
  published : ∀ publication ∈ state.publications, ∃ deployment,
    PublicationOf staging publication deployment
  ranked : state.publishEvents.Pairwise (eventRank · < eventRank ·)
  past : ∀ event ∈ state.publishEvents,
    eventRank event < ⟨state.clock, staging.publicationId state.publications.length⟩
  active : state.activeBindings = (state.publications.getLast?.map (·.bindings)).getD []

/-- What is live is bound by a deployment that published it. -/
theorem HistoryInv.exists_published (h : HistoryInv staging state) {view : StableBinding}
    (hview : view ∈ state.activeBindings) :
    ∃ published ∈ staging.deployments, ∃ mapping ∈ publishMappings published,
      bindingOf mapping staging.defaultDatabase = view ∧
      mapping.logicalKey.name ∈ publishedNames state.publishEvents published.deploymentId := by
  cases hlast : state.publications.getLast? with
  | none =>
    rw [h.active, hlast] at hview
    exact absurd hview not_mem_nil
  | some publication =>
    have hmem : publication ∈ state.publications := mem_of_getLast? hlast
    obtain ⟨published, hpublished⟩ := h.published publication hmem
    have hbound : view ∈ publication.event.bindings := by
      rw [h.active, hlast, Option.map_some, Option.getD_some, hpublished.bindings] at hview
      exact hview
    obtain ⟨mapping, hmapping, rfl⟩ := mem_map.mp (hpublished.recorded.mem_iff.mp hbound)
    refine ⟨published, hpublished.mem, mapping, hmapping, rfl, ?_⟩
    have hnamed : mapping.logicalKey.name ∈ publication.event.logicalViewNames := by
      rw [hpublished.logicalViewNames]
      exact mem_map_of_mem hbound
    have hevent : publication.event ∈ state.publishEvents.filter
        (·.deploymentId = published.deploymentId) :=
      mem_filter.mpr ⟨mem_map_of_mem hmem, by simpa using hpublished.deploymentId⟩
    exact mem_flatMap.mpr ⟨_, hevent, hnamed⟩

theorem orderedBindings_perm (deployment : AdapterDeploymentRecord) (defaultDatabase : String) :
    ((orderedMappings deployment).map (bindingOf · defaultDatabase)).Perm
      (expectedBindings deployment defaultDatabase) :=
  (orderedMappings_perm deployment).map _

section

variable (h : HistoryInv staging state) (hdeployment : deployment ∈ staging.deployments)
  (hprepares : PreparesLiveModels staging state deployment.deploymentId)

include h hdeployment hprepares

/-- Publishing a deployment that prepares the live models leaves its bindings, and no others. -/
theorem HistoryInv.replaced :
    replaceStableBindings state.activeBindings
        { bindings := (orderedMappings deployment).map (bindingOf · staging.defaultDatabase)
          removals := obsoleteBindingRemovals (inventory staging state)
            (orderedMappings deployment) staging.defaultDatabase state.activeBindings } =
      (orderedMappings deployment).map (bindingOf · staging.defaultDatabase) := by
  obtain ⟨prepared, hprepared, hid, hmodels⟩ := hprepares
  obtain rfl : prepared = deployment := by
    have hfound := deployments_find? hprepared
    rw [hid, deployments_find? hdeployment] at hfound
    exact (Option.some.inj hfound).symm
  refine replaceStableBindings_eq ?_ ?_ ?_
  · exact ((orderedBindings_perm prepared _).map _).nodup_iff.mpr (staging.names prepared hprepared)
  · intro view hview hother
    obtain ⟨published, hpublished, mapping, hmapping, rfl, hnamed⟩ := h.exists_published hview
    refine mem_obsoleteBindingRemovals.mpr ⟨_, hview, ?_, rfl⟩
    refine mem_historicalBindings.mpr ⟨published, hpublished, mapping,
      (mem_filter.mp hmapping).1, ?_, hnamed, ?_, rfl⟩
    · have hmodel := hmodels published hpublished mapping hmapping hview
      rwa [((orderedMappings_perm prepared).map _).mem_iff]
    · rwa [map_map] at hother
  · rintro binding hbinding hremoval
    obtain ⟨removed, -, hhistorical, hname⟩ := mem_obsoleteBindingRemovals.mp hremoval
    obtain ⟨_, -, mapping, -, -, -, hother, rfl⟩ := mem_historicalBindings.mp hhistorical
    rw [hname] at hother
    obtain ⟨own, hown, rfl⟩ := mem_map.mp hbinding
    exact hother (mem_map_of_mem hown)

theorem HistoryInv.executePublish_eq_ok :
    executePublish staging state deployment.deploymentId operation previousDeploymentId elapsed =
        .ok state' ↔
      deployment.status ≠ virtualDeploymentStatusIncomplete ∧
        (∀ mapping ∈ deployment.preparedObjectMappings,
          mapping.physicalName ∈ catalog staging state staging.defaultDatabase) ∧
        publishMappings deployment ≠ [] ∧
        state' = publishedState staging state deployment operation previousDeploymentId
          elapsed := by
  have hfound : (inventory staging state).deployments.find?
      (·.deploymentId = deployment.deploymentId) = some deployment := deployments_find? hdeployment
  simp only [executePublish, bind_eq_ok, buildPublishBindingRequest_eq_ok hfound]
  constructor
  · rintro ⟨_, ⟨hcomplete, hcatalog, hnonempty, rfl⟩, hstate⟩
    dsimp only at hstate
    rw [h.replaced hdeployment hprepares] at hstate
    exact ⟨hcomplete, hcatalog, hnonempty, (Except.ok.inj hstate).symm⟩
  · rintro ⟨hcomplete, hcatalog, hnonempty, rfl⟩
    refine ⟨_, ⟨hcomplete, hcatalog, hnonempty, rfl⟩, ?_⟩
    dsimp only
    rw [h.replaced hdeployment hprepares]
    rfl

end

theorem Staging.bindings_default (hdeployment : deployment ∈ staging.deployments) :
    ((orderedMappings deployment).map (bindingOf · staging.defaultDatabase)).map
        (fun binding => (⟨staging.defaultDatabase, binding.logicalName, binding.physicalName⟩ :
          StableBinding)) =
      (orderedMappings deployment).map (bindingOf · staging.defaultDatabase) := by
  rw [map_map]
  refine map_congr_left fun mapping hmapping => ?_
  have hprepared : mapping ∈ deployment.preparedObjectMappings :=
    (mem_filter.mp ((orderedMappings_perm deployment).mem_iff.mp hmapping)).1
  simp only [Function.comp_apply, bindingOf, staging.databases deployment hdeployment mapping
    hprepared]

/-- A publication that leaves its bindings live keeps the history in order. -/
theorem HistoryInv.published_next (h : HistoryInv staging state)
    (hdeployment : deployment ∈ staging.deployments)
    (hcomplete : deployment.status ≠ virtualDeploymentStatusIncomplete)
    (hnonempty : publishMappings deployment ≠ []) :
    HistoryInv staging
      (publishedState staging state deployment operation previousDeploymentId elapsed) := by
  have hrank : eventRank (buildPublishEvent deployment.deploymentId (state.clock + elapsed)
      (staging.publicationId state.publications.length)
      ((orderedMappings deployment).map (bindingOf · staging.defaultDatabase))
      staging.defaultDatabase operation previousDeploymentId) =
        ⟨state.clock + elapsed, staging.publicationId state.publications.length⟩ := by
    rw [eventRank, buildPublishEvent, if_neg (staging.publicationIds_ne _)]
  have hpast : ∀ event ∈ state.publishEvents, eventRank event <
      ⟨state.clock + elapsed, staging.publicationId state.publications.length⟩ := by
    intro event hevent
    refine (h.past event hevent).trans_le (Prod.Lex.toLex_le_toLex.mpr ?_)
    rcases Nat.eq_zero_or_pos elapsed with hzero | hpos
    · exact Or.inr ⟨by simp [hzero], le_rfl⟩
    · exact Or.inl (by dsimp only; omega)
  have hevents : (publishedState staging state deployment operation previousDeploymentId
      elapsed).publishEvents = state.publishEvents ++
        [buildPublishEvent deployment.deploymentId (state.clock + elapsed)
          (staging.publicationId state.publications.length)
          ((orderedMappings deployment).map (bindingOf · staging.defaultDatabase))
          staging.defaultDatabase operation previousDeploymentId] := by
    simp [PromotionState.publishEvents, publishedState]
  constructor
  · intro publication hpublication
    rcases mem_append.mp hpublication with hearlier | hlast
    · exact h.published publication hearlier
    · rw [mem_singleton] at hlast
      subst hlast
      have hbindings := Staging.bindings_default hdeployment
      refine ⟨deployment, hdeployment, rfl, hcomplete, hnonempty, ?_, ?_, ?_⟩
      · simp [buildPublishEvent]
      · simpa only [buildPublishEvent, hbindings] using orderedBindings_perm deployment _
      · simp only [buildPublishEvent, hbindings]
  · rw [hevents]
    refine pairwise_append.mpr ⟨h.ranked, pairwise_singleton _ _, ?_⟩
    intro event hevent event' hevent'
    rw [mem_singleton.mp hevent', hrank]
    exact hpast event hevent
  · intro event hevent
    have hcount : staging.publicationId state.publications.length <
        staging.publicationId (state.publications.length + 1) :=
      staging.publicationIds (Nat.lt_succ_self _)
    have hgrows : (⟨state.clock + elapsed, staging.publicationId state.publications.length⟩ :
        EventRank) <
          ⟨state.clock + elapsed, staging.publicationId (state.publications.length + 1)⟩ :=
      Prod.Lex.toLex_lt_toLex.mpr (Or.inr ⟨rfl, hcount⟩)
    have hlength : (publishedState staging state deployment operation previousDeploymentId
        elapsed).publications.length = state.publications.length + 1 := by
      simp [publishedState]
    rw [hlength]
    rw [hevents] at hevent
    rcases mem_append.mp hevent with hearlier | hlast
    · exact (hpast event hearlier).trans hgrows
    · rw [mem_singleton.mp hlast, hrank]
      exact hgrows
  · simp [publishedState]

theorem executeOperation_eq_ok {operation : Operation}
    (hexecute : executeOperation staging state operation = .ok state') :
    ∃ deploymentId kind previousDeploymentId,
      operationDeployment staging state operation = .ok deploymentId ∧
      executePublish staging state deploymentId kind previousDeploymentId operation.elapsed =
        .ok state' := by
  obtain ⟨kind, elapsed⟩ := operation
  cases kind with
  | promote deploymentId => exact ⟨deploymentId, "promote", none, rfl, hexecute⟩
  | rollback target =>
    obtain ⟨plan, hplan, hpublish⟩ := bind_eq_ok.mp hexecute
    refine ⟨plan.targetDeploymentId, "rollback", some plan.currentDeploymentId, ?_, hpublish⟩
    simp only [operationDeployment, hplan]
    rfl

theorem HistoryInv.next (h : HistoryInv staging state) (operation : Operation)
    (hkeeps : KeepsModels staging state operation) :
    HistoryInv staging (nextOperation staging state operation) := by
  unfold nextOperation
  cases hexecute : executeOperation staging state operation with
  | error _ => exact h
  | ok state' =>
    obtain ⟨deploymentId, kind, previousDeploymentId, hdeploymentId, hpublish⟩ :=
      executeOperation_eq_ok hexecute
    have hprepares := hkeeps deploymentId hdeploymentId
    obtain ⟨deployment, hdeployment, rfl, -⟩ := id hprepares
    obtain ⟨hcomplete, -, hnonempty, rfl⟩ :=
      (h.executePublish_eq_ok hdeployment hprepares).mp hpublish
    exact h.published_next hdeployment hcomplete hnonempty

theorem historyInv_fresh (staging : Staging) (clock : ℤ) : HistoryInv staging (.fresh clock) := by
  constructor
  · exact fun _ hpublication => absurd hpublication not_mem_nil
  · exact List.Pairwise.nil
  · exact fun _ hevent => absurd hevent not_mem_nil
  · rfl

theorem run_historyInv (staging : Staging) (clock : ℤ) (operations : List Operation)
    (hkeeps : Along (nextOperation staging) (KeepsModels staging) (.fresh clock) operations) :
    HistoryInv staging (run (nextOperation staging) (.fresh clock) operations) :=
  run_invariant _ (fun _ operation h hstep => h.next operation hstep)
    (historyInv_fresh staging clock) hkeeps

theorem bindingIdentity_bindings (h : PublicationOf staging publication deployment) :
    bindingIdentity publication.event.bindings = bindingIdentity publication.bindings := by
  rw [h.bindings]

theorem HistoryInv.currentPublishEvent_eq (h : HistoryInv staging state)
    {earlier : List Publication} {current : Publication}
    (hlast : state.publications = earlier ++ [current]) :
    currentPublishEvent state.publishEvents state.activeBindings = .ok current.event := by
  obtain ⟨deployment, hcurrent⟩ := h.published current (by simp [hlast])
  have hactive : state.activeBindings = current.bindings := by
    rw [h.active, hlast, getLast?_concat]
    rfl
  have hevents : state.publishEvents = earlier.map (·.event) ++ [current.event] := by
    simp [PromotionState.publishEvents, hlast]
  refine currentPublishEvent_eq_ok.mpr ⟨?_, ?_⟩
  · rw [hactive, hcurrent.bindings]
    intro hempty
    have hnone := hempty ▸ hcurrent.recorded
    exact hcurrent.nonempty (map_eq_nil_iff.mp hnone.nil_eq.symm)
  · have hranked := h.ranked
    rw [hevents] at hranked ⊢
    refine latestEvent_filter hranked ?_ (by simp)
    simp [hactive, hcurrent.bindings]

/-- The publication before it that left other bindings is the previous one. -/
theorem HistoryInv.previousPublishEvent_eq (h : HistoryInv staging state)
    {before between : List Publication} {target current : Publication}
    (hlast : state.publications = before ++ target :: between ++ [current])
    (hother : bindingIdentity target.bindings ≠ bindingIdentity current.bindings)
    (hbetween : ∀ publication ∈ between,
      bindingIdentity publication.bindings = bindingIdentity current.bindings) :
    previousPublishEvent state.publishEvents current.event = .ok target.event := by
  have hidentity : ∀ publication ∈ state.publications,
      bindingIdentity publication.event.bindings = bindingIdentity publication.bindings := by
    intro publication hpublication
    obtain ⟨deployment, hpublished⟩ := h.published publication hpublication
    exact bindingIdentity_bindings hpublished
  have hevents : state.publishEvents = before.map (·.event) ++
      target.event :: (between.map (·.event) ++ [current.event]) := by
    simp [PromotionState.publishEvents, hlast]
  have hranked := h.ranked
  rw [previousPublishEvent_eq_ok, hevents]
  rw [hevents] at hranked
  have hcurrent := hidentity current (by simp [hlast])
  refine latestEvent_filter hranked ?_ ?_
  · have hrank : eventRank target.event < eventRank current.event := by
      have hafter := (pairwise_cons.mp (pairwise_append.mp hranked).2.1).1
      exact hafter _ (by simp)
    simpa [hrank, hcurrent, hidentity target (by simp [hlast])] using hother
  · intro event hevent
    rcases mem_append.mp hevent with hevent | hevent
    · obtain ⟨publication, hpublication, rfl⟩ := mem_map.mp hevent
      simp [hcurrent, hidentity publication (by simp [hlast, hpublication]),
        hbetween publication hpublication]
    · simp [mem_singleton.mp hevent]

theorem HistoryInv.rollbackPlanTo_eq (hpublished : PublicationOf staging publication deployment)
    (currentEvent : AdapterPublishEventRecord) :
    rollbackPlanTo (inventory staging state) (catalog staging state) staging.defaultDatabase
        currentEvent publication.event =
      .ok
        { currentDeploymentId := currentEvent.deploymentId
          targetDeploymentId := publication.event.deploymentId
          logicalViewNames :=
            ((publishMappings deployment).map (·.logicalKey.name)).insertionSort (· ≤ ·) } := by
  refine rollbackPlanTo_eq_ok.mpr ⟨deployment, ?_, hpublished.recorded, ?_, rfl⟩
  · rw [hpublished.deploymentId]
    exact deploymentById_staging hpublished.mem
  · refine missingRelations_eq_nil.mpr fun mapping hmapping => ?_
    rw [relationOf, staging.databases deployment hpublished.mem mapping hmapping]
    exact mem_append_left _
      (staging.retained deployment hpublished.mem hpublished.complete mapping hmapping)

theorem HistoryInv.rollbackPossible (h : HistoryInv staging state) :
    RollbackPossible staging state (PreparesLiveModels staging state) := by
  intro earlier current hlast
  have hcurrentEvent := h.currentPublishEvent_eq hlast
  refine ⟨hcurrentEvent, ?_⟩
  rintro before target between rfl hother hbetween
  have hprevious := h.previousPublishEvent_eq hlast hother hbetween
  obtain ⟨deployment, hpublished⟩ := h.published target (by simp [hlast])
  have hplan : rollbackPlan staging state .previous = .ok _ :=
    resolveRollbackPlan_eq_ok.mpr
      ⟨_, _, hcurrentEvent, hprevious, HistoryInv.rollbackPlanTo_eq hpublished current.event⟩
  refine ⟨⟨_, hplan, rfl, rfl⟩, hprevious, fun hprepares elapsed => ?_⟩
  rw [hpublished.deploymentId] at hprepares
  have hexecute : executePublish staging state target.event.deploymentId "rollback"
      (some current.event.deploymentId) elapsed =
        .ok (publishedState staging state deployment "rollback"
          (some current.event.deploymentId) elapsed) := by
    rw [hpublished.deploymentId]
    refine (h.executePublish_eq_ok hpublished.mem hprepares).mpr
      ⟨hpublished.complete, ?_, hpublished.nonempty, rfl⟩
    intro mapping hmapping
    exact mem_append_left _
      (staging.retained deployment hpublished.mem hpublished.complete mapping hmapping)
  refine ⟨_, bind_eq_ok.mpr ⟨_, hplan, hexecute⟩, ?_⟩
  refine bindingIdentity_eq_iff.mpr ?_
  rw [hpublished.bindings]
  exact (orderedBindings_perm deployment _).trans hpublished.recorded.symm

/-- In every run whose deployments prepare what is live, the way back stays open. -/
theorem run_rollbackPossible (staging : Staging) (clock : ℤ) (operations : List Operation)
    (hkeeps : Along (nextOperation staging) (KeepsModels staging) (.fresh clock) operations) :
    let state := run (nextOperation staging) (.fresh clock) operations
    RollbackPossible staging state (PreparesLiveModels staging state) :=
  (run_historyInv staging clock operations hkeeps).rollbackPossible

/-- A staged relation of a model. -/
def stagedRelation (model name deploymentId : String) : PreparedObjectMapping :=
  ⟨⟨none, .table, name⟩, name ++ "__" ++ deploymentId, model⟩

def stagedDeployment (deploymentId : String) (mappings : List PreparedObjectMapping) :
    AdapterDeploymentRecord :=
  { deploymentId, preparedObjectMappings := mappings, createdAt := 0, status := "complete" }

/-- The models `orders` and `users`, with a new relation name for `orders`, and `orders` alone. -/
def shopStaging : Staging where
  deployments :=
    [stagedDeployment "first" [stagedRelation "orders" "orders" "first",
      stagedRelation "users" "users" "first"],
    stagedDeployment "renamed" [stagedRelation "orders" "sales" "renamed",
      stagedRelation "users" "users" "renamed"],
    stagedDeployment "orders" [stagedRelation "orders" "orders" "orders"]]
  relations _ := ["orders__first", "users__first", "sales__renamed", "users__renamed",
    "orders__orders"]
  physicalCandidates := []
  defaultDatabase := "shop"
  publicationId count := .ofList (replicate (count + 1) '1')
  ids := by decide
  databases := by decide
  names := by decide
  retained := by decide
  publicationIds := by
    refine strictMono_nat_of_lt_succ fun count => ?_
    rw [String.lt_iff_toList_lt, String.toList_ofList, String.toList_ofList]
    induction count with
    | zero => decide
    | succ count ih => exact cons_lt_cons_iff.mpr (Or.inr ⟨rfl, ih⟩)
  publicationIds_ne count hempty := absurd (congrArg String.toList hempty) (by simp)

def promote (deploymentId : String) : Operation := ⟨.promote deploymentId, 1⟩

/-- The deployment of `orders` alone leaves the earlier binding of `users` live, and no publication
records both. -/
theorem not_run_rollbackPossible :
    ¬ RollbackPossible shopStaging
      (run (nextOperation shopStaging) (.fresh 0) [promote "first", promote "orders"])
      fun _ => True := by
  intro hpossible
  have hpublications : (run (nextOperation shopStaging) (.fresh 0)
      [promote "first", promote "orders"]).publications ≠ [] := by decide
  have hcurrent := (hpossible _ _ (dropLast_append_getLast hpublications).symm).1
  have hlost : (currentPublishEvent (run (nextOperation shopStaging) (.fresh 0)
      [promote "first", promote "orders"]).publishEvents (run (nextOperation shopStaging) (.fresh 0)
        [promote "first", promote "orders"]).activeBindings).isOk = false := by decide
  rw [hcurrent] at hlost
  cases hlost

/-- `orders` gets another name, and the rollback gives it back the first one. -/
theorem run_rollbackPossible_renamed :
    let state := run (nextOperation shopStaging) (.fresh 0)
      [promote "first", promote "renamed", ⟨.rollback .previous, 1⟩]
    RollbackPossible shopStaging state (PreparesLiveModels shopStaging state) :=
  run_rollbackPossible shopStaging 0 [promote "first", promote "renamed", ⟨.rollback .previous, 1⟩]
    (by decide)

end SqlTide.Promotion
