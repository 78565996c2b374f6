import SqlTide.Janitor.UnprotectedRelations
import SqlTide.Promotion.RollbackHistory

/-!
# Live bindings over histories that stop

A publication switches its bindings one after the other and is recorded when all are switched, so
it may stop in between. The janitor takes a live binding of an earlier publication for an obsolete
one. It keeps what is live as long as only such publications stop whose deployment has not been
published, or is the latest of all its models.
-/

namespace SqlTide.Janitor

open Destruction Foundations List Planner Promotion Runs

/-- An operation that runs through, or stops after some of its switches and removals. -/
structure HistoryStep where
  operation : Operation
  stopsAfter : Option ℕ := none

section

variable (staging : Staging) (state : PromotionState)

def publishRequest (deploymentId : String) : Except String AdapterBindingReplacementRequest :=
  buildPublishBindingRequest (inventory staging state)
    (catalog staging state staging.defaultDatabase)
    ⟨state.activeBindings, staging.physicalCandidates⟩ staging.defaultDatabase deploymentId

/-- The part of a request that has been executed after some statements. -/
def executedPart (request : AdapterBindingReplacementRequest) (count : ℕ) :
    AdapterBindingReplacementRequest where
  bindings := request.bindings.take count
  removals := request.removals.take (count - request.bindings.length)

def stoppedOperation (operation : Operation) (count : ℕ) : PromotionState :=
  match operationDeployment staging state operation >>= publishRequest staging state with
  | .ok request =>
    { state with
      activeBindings := replaceStableBindings state.activeBindings (executedPart request count)
      clock := state.clock + operation.elapsed }
  | .error _ => state

def nextStep (step : HistoryStep) : PromotionState :=
  match step.stopsAfter with
  | none => nextOperation staging state step.operation
  | some count => stoppedOperation staging state step.operation count

/-- What the janitor inspects. -/
def inspected : Warehouse := ⟨state.activeBindings, catalog staging state⟩

/-- The deployment has published a relation for the model. -/
def Publishes (deployment : AdapterDeploymentRecord) (model : String)
    (mapping : PreparedObjectMapping) : Prop :=
  mapping ∈ deployment.preparedObjectMappings ∧ mapping.logicalModelName = model ∧
    mapping.logicalKey.name ∈ publishedNames state.publishEvents deployment.deploymentId

/-- No deployment that has published the model was published later. -/
def LatestFor (deployment : AdapterDeploymentRecord) (model : String) : Prop :=
  ∀ deployment' ∈ staging.deployments, (∃ mapping, Publishes state deployment' model mapping) →
    ∀ rank', latestPublishRank (inventory staging state) deployment'.deploymentId = some rank' →
      ∃ rank, latestPublishRank (inventory staging state) deployment.deploymentId = some rank ∧
        rank' ≤ rank

/-- The name is that of the model in its latest publication. -/
def CurrentName (model logicalName : String) : Prop :=
  ∃ deployment ∈ staging.deployments, LatestFor staging state deployment model ∧
    ∃ mapping, Publishes state deployment model mapping ∧ mapping.logicalKey.name = logicalName

/-- The view reads a relation that was prepared for the model. -/
def BoundFor (model : String) (view : StableBinding) : Prop :=
  ∃ deployment ∈ staging.deployments, ∃ mapping ∈ publishMappings deployment,
    mapping.logicalModelName = model ∧ bindingOf mapping staging.defaultDatabase = view

/-- An apply removes only bindings whose names are not current, and neither drops a view under the
current name of its model nor the relation that it reads. -/
def KeepsLiveBindings (request : JanitorRequest) (now : ℤ) : Prop :=
  ∀ warehouse', applyJanitor (inventory staging state) (inspected staging state) request now
      (inspected staging state) = .ok warehouse' →
    ∀ view ∈ state.activeBindings, ∀ model, BoundFor staging model view →
      CurrentName staging state model view.logicalName →
      stableName view ∉ obsoleteRemovals (inventory staging state) (inspected staging state) ∧
        view ∈ warehouse'.activeBindings ∧
        ∀ database, view.physicalName ∈ (inspected staging state).catalogs database →
          view.physicalName ∈ warehouse'.catalogs database

/-- What is switched by an operation that stops is of a deployment that has not been published, or
is the latest of the models; an id without a record names no relation of a recorded deployment. -/
def StopsSafely (step : HistoryStep) : Prop :=
  ∀ deploymentId, operationDeployment staging state step.operation = .ok deploymentId →
    (∀ deployment ∈ staging.deployments, deployment.deploymentId = deploymentId →
      step.stopsAfter ≠ none →
        latestPublishRank (inventory staging state) deploymentId = none ∨
        ∀ mapping ∈ publishMappings deployment,
          LatestFor staging state deployment mapping.logicalModelName) ∧
    (deploymentId ∉ staging.deployments.map (·.deploymentId) →
      ∀ candidate ∈ staging.physicalCandidates,
        ("__" ++ deploymentId).toList <:+ candidate.physicalName.toList →
        ∀ deployment ∈ staging.deployments, ∀ mapping ∈ deployment.preparedObjectMappings,
          mapping.physicalName ≠ candidate.physicalName)

end

/-- The planner names relations after their deployments, no stable name is that of a relation,
published and other relations have different names, and a model has one published name. -/
structure StagedModels (staging : Staging) : Prop where
  safe : ∀ deployment ∈ staging.deployments, physicalMappingsAreSafe deployment
  stable_names : ∀ deployment ∈ staging.deployments, ∀ mapping ∈ deployment.preparedObjectMappings,
    ∀ deployment' ∈ staging.deployments, ∀ mapping' ∈ deployment'.preparedObjectMappings,
      mapping'.physicalName ≠ mapping.logicalKey.name
  own_names : ∀ deployment ∈ staging.deployments, ∀ mapping ∈ deployment.preparedObjectMappings,
    mapping.logicalKey.name ∈ (publishMappings deployment).map (·.logicalKey.name) →
      mapping ∈ publishMappings deployment
  one_name : ∀ deployment ∈ staging.deployments, ∀ mapping ∈ publishMappings deployment,
    ∀ mapping' ∈ publishMappings deployment,
      mapping.logicalModelName = mapping'.logicalModelName →
        mapping.logicalKey.name = mapping'.logicalKey.name

/-- Where a live view comes from: it reads no recorded relation, or one of a deployment that has
not been published, or the latest one of a model. -/
inductive Accounted (staging : Staging) (state : PromotionState) (view : StableBinding) : Prop
  | foreign : (∀ deployment ∈ staging.deployments, ∀ mapping ∈ deployment.preparedObjectMappings,
      mapping.physicalName ≠ view.physicalName) → Accounted staging state view
  | unpublished {deployment mapping} : deployment ∈ staging.deployments →
      mapping ∈ publishMappings deployment → bindingOf mapping staging.defaultDatabase = view →
      latestPublishRank (inventory staging state) deployment.deploymentId = none →
      Accounted staging state view
  | latest {deployment mapping rank} : deployment ∈ staging.deployments →
      mapping ∈ publishMappings deployment → bindingOf mapping staging.defaultDatabase = view →
      latestPublishRank (inventory staging state) deployment.deploymentId = some rank →
      LatestFor staging state deployment mapping.logicalModelName → Accounted staging state view

/-- The publications are ranked as they were made, with all names of their deployments. -/
structure PublishedInv (staging : Staging) (state : PromotionState) : Prop where
  ranked : state.publishEvents.Pairwise (eventRank · < eventRank ·)
  past : ∀ event ∈ state.publishEvents,
    eventRank event < ⟨state.clock, staging.publicationId state.publications.length⟩
  names : ∀ event ∈ state.publishEvents, ∀ deployment ∈ staging.deployments,
    event.deploymentId = deployment.deploymentId → ∀ name,
      name ∈ event.logicalViewNames ↔ name ∈ (publishMappings deployment).map (·.logicalKey.name)

/-- Each live view is accounted for besides. -/
structure LiveInv (staging : Staging) (state : PromotionState) : Prop
    extends PublishedInv staging state where
  live : ∀ view ∈ state.activeBindings, Accounted staging state view

section

variable {staging : Staging} {state : PromotionState} {deployment deployment' :
  AdapterDeploymentRecord} {mapping mapping' : PreparedObjectMapping} {view : StableBinding}
  {rank : EventRank} {deploymentId model : String}

theorem exists_event_of_rank
    (h : latestPublishRank (inventory staging state) deploymentId = some rank) :
    ∃ event ∈ state.publishEvents, event.deploymentId = deploymentId ∧ eventRank event = rank := by
  obtain ⟨event, hlatest, rfl⟩ := Option.map_eq_some_iff.mp h
  obtain ⟨hevent, hid⟩ := mem_filter.mp (argmax_mem hlatest)
  exact ⟨event, hevent, by simpa using hid, rfl⟩

variable {event : AdapterPublishEventRecord} {request : AdapterBindingReplacementRequest}
  {state' : PromotionState}

theorem exists_rank_of_event
    (hevent : event ∈ state.publishEvents) (hid : event.deploymentId = deploymentId) :
    ∃ rank, latestPublishRank (inventory staging state) deploymentId = some rank := by
  rw [← Option.ne_none_iff_exists', latestPublishRank, Ne, Option.map_eq_none_iff, latestEvent,
    argmax_eq_none, filter_eq_nil_iff]
  intro h
  exact h event hevent (by simpa using hid)

/-- The rank of a new publication is that of its deployment, and the others keep theirs. -/
theorem latestPublishRank_append {events : List AdapterPublishEventRecord}
    {deployments : List AdapterDeploymentRecord}
    (hranked : (events ++ [event]).Pairwise (eventRank · < eventRank ·)) :
    latestPublishRank ⟨deployments, events ++ [event]⟩ deploymentId =
      if event.deploymentId = deploymentId then some (eventRank event)
      else latestPublishRank ⟨deployments, events⟩ deploymentId := by
  split_ifs with hid
  · rw [latestPublishRank, latestEvent_filter hranked (by simpa using hid) (by simp)]
    rfl
  · rw [latestPublishRank, latestPublishRank, filter_append,
      filter_cons_of_neg (by simpa using hid), filter_nil, append_nil]

theorem PublishedInv.eq_of_rank (h : PublishedInv staging state)
    (hdeployment : deployment ∈ staging.deployments)
    (hdeployment' : deployment' ∈ staging.deployments)
    (hrank : latestPublishRank (inventory staging state) deployment.deploymentId = some rank)
    (hrank' : latestPublishRank (inventory staging state) deployment'.deploymentId = some rank) :
    deployment = deployment' := by
  obtain ⟨event, hevent, hid, hsame⟩ := exists_event_of_rank hrank
  obtain ⟨event', hevent', hid', hsame'⟩ := exists_event_of_rank hrank'
  have hnodup : (state.publishEvents.map eventRank).Nodup :=
    (pairwise_map.mpr h.ranked).imp ne_of_lt
  have hevents := inj_on_of_nodup_map hnodup hevent hevent' (hsame.trans hsame'.symm)
  have hids : deployment.deploymentId = deployment'.deploymentId :=
    hid.symm.trans ((congrArg _ hevents).trans hid')
  exact inj_on_of_nodup_map staging.ids hdeployment hdeployment' hids

theorem PublishedInv.mem_publishedNames (h : PublishedInv staging state)
    (hdeployment : deployment ∈ staging.deployments) {name : String} :
    name ∈ publishedNames state.publishEvents deployment.deploymentId ↔
      (∃ rank, latestPublishRank (inventory staging state) deployment.deploymentId = some rank) ∧
        name ∈ (publishMappings deployment).map (·.logicalKey.name) := by
  constructor
  · intro hname
    obtain ⟨event, hevent, hmem⟩ := mem_flatMap.mp hname
    obtain ⟨hevent, hid⟩ := mem_filter.mp hevent
    have hid : event.deploymentId = deployment.deploymentId := by simpa using hid
    exact ⟨exists_rank_of_event hevent hid,
      (h.names event hevent deployment hdeployment hid name).mp hmem⟩
  · rintro ⟨⟨rank, hrank⟩, hname⟩
    obtain ⟨event, hevent, hid, -⟩ := exists_event_of_rank hrank
    refine mem_flatMap.mpr ⟨event, mem_filter.mpr ⟨hevent, by simpa using hid⟩, ?_⟩
    exact (h.names event hevent deployment hdeployment hid name).mpr hname

theorem PublishedInv.publishes_iff (h : PublishedInv staging state) (hstaged : StagedModels staging)
    (hdeployment : deployment ∈ staging.deployments) :
    Publishes state deployment model mapping ↔
      (∃ rank, latestPublishRank (inventory staging state) deployment.deploymentId = some rank) ∧
        mapping ∈ publishMappings deployment ∧ mapping.logicalModelName = model := by
  rw [Publishes, h.mem_publishedNames hdeployment]
  constructor
  · rintro ⟨hmapping, hmodel, hrank, hname⟩
    exact ⟨hrank, hstaged.own_names deployment hdeployment mapping hmapping hname, hmodel⟩
  · rintro ⟨hrank, hmapping, hmodel⟩
    exact ⟨(mem_filter.mp hmapping).1, hmodel, hrank, mem_map_of_mem hmapping⟩

theorem StagedModels.eq_of_physicalName (hstaged : StagedModels staging)
    (hdeployment : deployment ∈ staging.deployments)
    (hdeployment' : deployment' ∈ staging.deployments)
    (hmapping : mapping ∈ deployment.preparedObjectMappings)
    (hmapping' : mapping' ∈ deployment'.preparedObjectMappings)
    (hsame : mapping.physicalName = mapping'.physicalName) : deployment = deployment' := by
  have hid := (hstaged.safe deployment hdeployment mapping hmapping).2.1
  have hid' := (hstaged.safe deployment' hdeployment' mapping' hmapping').2.1
  rw [hsame, hid'] at hid
  exact inj_on_of_nodup_map staging.ids hdeployment hdeployment' (Option.some.inj hid).symm

theorem StagedModels.physicalName_eq (hstaged : StagedModels staging)
    (hdeployment : deployment ∈ staging.deployments)
    (hmapping : mapping ∈ publishMappings deployment)
    (hmapping' : mapping' ∈ publishMappings deployment)
    (hmodel : mapping.logicalModelName = mapping'.logicalModelName) :
    mapping.physicalName = mapping'.physicalName := by
  have hsafe := hstaged.safe deployment hdeployment
  have hparts := ((physicalName_eq_iff hsafe (mem_filter.mp hmapping').1).mp rfl)
  refine (physicalName_eq_iff hsafe (mem_filter.mp hmapping).1).mpr ⟨hparts.1, ?_⟩
  rw [hparts.2, hstaged.one_name deployment hdeployment mapping hmapping mapping' hmapping' hmodel]

theorem mem_publishedRelations {relation : PublishedRelation} :
    (model, relation) ∈ publishedRelations (inventory staging state) ↔
      ∃ deployment ∈ staging.deployments, ∃ mapping,
        Publishes state deployment model mapping ∧
        latestPublishRank (inventory staging state) deployment.deploymentId = some relation.rank ∧
        mapping.physicalName = relation.physicalName := by
  obtain ⟨rank, physicalName⟩ := relation
  simp only [publishedRelations, mem_flatMap]
  constructor
  · rintro ⟨deployment, hdeployment, hmem⟩
    cases hrank : latestPublishRank (inventory staging state) deployment.deploymentId with
    | none => simp [hrank] at hmem
    | some rank' =>
      rw [hrank] at hmem
      obtain ⟨mapping, hmapping, heq⟩ := mem_map.mp hmem
      obtain ⟨hmapping, hname⟩ := mem_filter.mp hmapping
      simp only [Prod.mk.injEq, PublishedRelation.mk.injEq] at heq
      obtain ⟨hmodel, rfl, hphysical⟩ := heq
      exact ⟨deployment, hdeployment, mapping, ⟨hmapping, hmodel, of_decide_eq_true hname⟩,
        hrank, hphysical⟩
  · rintro ⟨deployment, hdeployment, mapping, ⟨hmapping, hmodel, hname⟩, hrank, hphysical⟩
    refine ⟨deployment, hdeployment, ?_⟩
    rw [hrank]
    refine mem_map.mpr ⟨mapping, mem_filter.mpr ⟨hmapping, decide_eq_true hname⟩, ?_⟩
    rw [hmodel, hphysical]

/-- The relation of the latest deployment of a model is the model's latest one. -/
theorem PublishedInv.latestOfModel_eq (h : PublishedInv staging state)
    (hstaged : StagedModels staging) (hdeployment : deployment ∈ staging.deployments)
    (hmapping : mapping ∈ publishMappings deployment)
    (hrank : latestPublishRank (inventory staging state) deployment.deploymentId = some rank)
    (hlatest : LatestFor staging state deployment mapping.logicalModelName) :
    latestOfModel (inventory staging state) mapping.logicalModelName =
      some ⟨rank, mapping.physicalName⟩ := by
  rw [latestOfModel, max?_eq_some_iff]
  constructor
  · refine mem_map.mpr ⟨(mapping.logicalModelName, ⟨rank, mapping.physicalName⟩), ?_, rfl⟩
    refine mem_filter.mpr ⟨mem_publishedRelations.mpr ?_, by simp⟩
    exact ⟨deployment, hdeployment, mapping,
      (h.publishes_iff hstaged hdeployment).mpr ⟨⟨rank, hrank⟩, hmapping, rfl⟩, hrank, rfl⟩
  · intro relation hrelation
    obtain ⟨⟨model, relation⟩, hmem, rfl⟩ := mem_map.mp hrelation
    obtain ⟨hmem, hmodel⟩ := mem_filter.mp hmem
    obtain rfl : model = mapping.logicalModelName := by simpa using hmodel
    obtain ⟨deployment', hdeployment', mapping', hpublishes, hrank', hphysical⟩ :=
      mem_publishedRelations.mp hmem
    obtain ⟨rank', hown, hle⟩ :=
      hlatest deployment' hdeployment' ⟨mapping', hpublishes⟩ relation.rank hrank'
    obtain rfl : rank = rank' := Option.some.inj (hrank.symm.trans hown)
    refine Prod.Lex.toLex_le_toLex.mpr ?_
    rcases hle.lt_or_eq with hlt | heq
    · exact .inl hlt
    · obtain rfl : deployment' = deployment :=
        h.eq_of_rank hdeployment' hdeployment (heq ▸ hrank') hrank
      have hmapping' := ((h.publishes_iff hstaged hdeployment).mp hpublishes).2
      refine .inr ⟨heq, le_of_eq ?_⟩
      rw [← hphysical]
      exact hstaged.physicalName_eq hdeployment hmapping'.1 hmapping hmapping'.2

theorem Accounted.not_obsolete (hview : Accounted staging state view)
    (h : PublishedInv staging state)
    (hstaged : StagedModels staging) : ¬ ObsoleteBinding (inventory staging state) view := by
  rintro ⟨hknown, hunused⟩
  obtain ⟨⟨model, relation⟩, hmem, hphysical⟩ := mem_map.mp hknown
  obtain ⟨deployment', hdeployment', mapping', hpublishes, hrank', hsame⟩ :=
    mem_publishedRelations.mp hmem
  have hview' : mapping'.physicalName = view.physicalName := hsame.trans hphysical
  cases hview with
  | foreign hforeign => exact hforeign deployment' hdeployment' mapping' hpublishes.1 hview'
  | @unpublished deployment mapping hdeployment hmapping hbinding hnone =>
    obtain rfl : deployment = deployment' := hstaged.eq_of_physicalName hdeployment hdeployment'
      (mem_filter.mp hmapping).1 hpublishes.1 (by rw [hview', ← hbinding]; rfl)
    rw [hnone] at hrank'
    cases hrank'
  | @latest deployment mapping rank hdeployment hmapping hbinding hrank hlatest =>
    apply hunused
    refine mem_filterMap.mpr ⟨mapping.logicalModelName, ?_, ?_⟩
    · refine mem_map.mpr ⟨(mapping.logicalModelName, ⟨rank, mapping.physicalName⟩), ?_, rfl⟩
      exact mem_publishedRelations.mpr ⟨deployment, hdeployment, mapping,
        (h.publishes_iff hstaged hdeployment).mpr ⟨⟨rank, hrank⟩, hmapping, rfl⟩, hrank, rfl⟩
    · rw [h.latestOfModel_eq hstaged hdeployment hmapping hrank hlatest, ← hbinding]
      rfl

/-- Where every live view is accounted for, an apply removes none and drops none of their
relations. -/
theorem LiveInv.keepsLiveBindings (h : LiveInv staging state) (hstaged : StagedModels staging)
    (request : JanitorRequest) (now : ℤ) : KeepsLiveBindings staging state request now := by
  rintro warehouse' happly view hview model - ⟨deployment, hdeployment, -, mapping,
    hpublishes, hname⟩
  have hnone : obsoleteRemovals (inventory staging state) (inspected staging state) = [] := by
    rw [obsoleteRemovals, bindingActivity, map_eq_nil_iff, filter_eq_nil_iff]
    intro view hview
    simpa using (h.live view hview).not_obsolete h.toPublishedInv hstaged
  have hunasked : ∀ view ∈ state.activeBindings, view.physicalName ∉
      requestedObjectNames (inventory staging state) (inspected staging state) request now := by
    intro view hview hrequested
    exact (applyJanitor_eq_ok.mp happly).1 _ hrequested (mem_map_of_mem hview)
  obtain ⟨-, rfl⟩ := applyJanitor_eq_ok.mp happly
  have hrequested : ∀ name, name ∈ droppedNames (inventory staging state) (inspected staging state)
      request now → name.logicalName ∈ requestedObjectNames (inventory staging state)
        (inspected staging state) request now := by
    intro name hdropped
    rw [droppedNames, hnone, nil_append] at hdropped
    obtain ⟨relation, hrelation, rfl⟩ := mem_map.mp hdropped
    exact hrelation
  refine ⟨by simp [hnone], ?_, ?_⟩
  · refine mem_filter.mpr ⟨hview, decide_eq_true fun hdropped => ?_⟩
    obtain ⟨deployment', hdeployment', -, mapping', hmapping', hsame⟩ :=
      mem_requestedObjectNames.mp (hrequested _ hdropped)
    exact hstaged.stable_names deployment hdeployment mapping hpublishes.1 deployment' hdeployment'
      mapping' hmapping' (hsame.trans hname.symm)
  · intro database hdatabase
    refine mem_filter.mpr ⟨hdatabase, decide_eq_true fun hdropped => ?_⟩
    exact hunasked view hview (hrequested _ hdropped)

theorem mem_replaceStableBindings {views : List StableBinding}
    (h : view ∈ replaceStableBindings views request) :
    view ∈ request.bindings ∨ view ∈ views ∧
      stableName view ∉ request.bindings.map stableName ∧ stableName view ∉ request.removals := by
  obtain ⟨hbound, hkept⟩ := mem_filter.mp h
  have hkept : stableName view ∉ request.removals := by simpa using hkept
  clear h
  generalize request.bindings = bindings at hbound ⊢
  induction bindings using reverseRecOn with
  | nil => exact .inr ⟨hbound, by simp, hkept⟩
  | append_singleton bindings binding ih =>
    rw [foldl_append] at hbound
    rcases mem_append.mp hbound with hold | hnew
    · obtain ⟨hold, hother⟩ := mem_filter.mp hold
      have hother : stableName view ≠ stableName binding := by simpa using hother
      rcases ih hold with hbinding | ⟨hview, hname, hkept⟩
      · exact .inl (mem_append_left _ hbinding)
      · refine .inr ⟨hview, ?_, hkept⟩
        simpa [hother] using hname
    · exact .inl (mem_append_right _ hnew)

/-- What a request binds: the published relations of a recorded deployment, or relations with the
id in their names. -/
theorem publishRequest_cases (h : publishRequest staging state deploymentId = .ok request) :
    (∃ deployment ∈ staging.deployments, deployment.deploymentId = deploymentId ∧ request =
      { bindings := (orderedMappings deployment).map (bindingOf · staging.defaultDatabase)
        removals := obsoleteBindingRemovals (inventory staging state) (orderedMappings deployment)
          staging.defaultDatabase state.activeBindings }) ∨
    deploymentId ∉ staging.deployments.map (·.deploymentId) ∧ ∀ binding ∈ request.bindings,
      ∃ candidate ∈ staging.physicalCandidates,
        ("__" ++ deploymentId).toList <:+ candidate.physicalName.toList ∧
          candidate.physicalName = binding.physicalName := by
  cases hfound : staging.deployments.find? (·.deploymentId = deploymentId) with
  | some deployment =>
    have hid : deployment.deploymentId = deploymentId := by simpa using find?_some hfound
    have hfound' : (inventory staging state).deployments.find?
        (·.deploymentId = deploymentId) = some deployment := hfound
    obtain ⟨-, -, -, hrequest⟩ := (buildPublishBindingRequest_eq_ok hfound').mp h
    exact .inl ⟨deployment, mem_of_find?_eq_some hfound, hid, hrequest⟩
  | none =>
    right
    constructor
    · simpa using hfound
    · unfold publishRequest buildPublishBindingRequest at h
      rw [show (inventory staging state).deployments.find? (·.deploymentId = deploymentId) = none
        from hfound] at h
      unfold publishInspectedStableViews at h
      dsimp only at h
      split_ifs at h
      cases h
      intro binding hbinding
      obtain ⟨candidate, hcandidate, rfl⟩ := mem_map.mp hbinding
      rw [mem_insertionSort] at hcandidate
      obtain ⟨hcandidate, hsuffix⟩ := mem_filter.mp hcandidate
      exact ⟨candidate, hcandidate, (of_decide_eq_true hsuffix).1, rfl⟩

theorem PublishedInv.past_elapsed (h : PublishedInv staging state) (elapsed : ℕ) :
    ∀ event ∈ state.publishEvents, eventRank event <
      ⟨state.clock + elapsed, staging.publicationId state.publications.length⟩ := by
  intro event hevent
  refine (h.past event hevent).trans_le (Prod.Lex.toLex_le_toLex.mpr ?_)
  rcases Nat.eq_zero_or_pos elapsed with hzero | hpos
  · exact .inr ⟨by simp [hzero], le_rfl⟩
  · exact .inl (by dsimp only; omega)

variable {step : HistoryStep} {operation : String} {previousDeploymentId : Option String}
  {elapsed : ℕ}

theorem StopsSafely.foreign (hsafe : StopsSafely staging state step)
    (hoperation : operationDeployment staging state step.operation = .ok deploymentId)
    (hunrecorded : deploymentId ∉ staging.deployments.map (·.deploymentId))
    (hcandidate : ∃ candidate ∈ staging.physicalCandidates,
      ("__" ++ deploymentId).toList <:+ candidate.physicalName.toList ∧
        candidate.physicalName = view.physicalName) (hdeployment : deployment ∈ staging.deployments)
    (hmapping : mapping ∈ deployment.preparedObjectMappings) :
    mapping.physicalName ≠ view.physicalName := by
  obtain ⟨candidate, hmem, hsuffix, hphysical⟩ := hcandidate
  rw [← hphysical]
  exact (hsafe deploymentId hoperation).2 hunrecorded candidate hmem hsuffix deployment hdeployment
    mapping hmapping

theorem LiveInv.stopped (h : LiveInv staging state) {operation : Operation} {count : ℕ}
    (hsafe : StopsSafely staging state ⟨operation, some count⟩) :
    LiveInv staging (stoppedOperation staging state operation count) := by
  unfold stoppedOperation
  cases hrequest : operationDeployment staging state operation >>= publishRequest staging state with
  | error message => exact h
  | ok request =>
    obtain ⟨deploymentId, hoperation, hrequest⟩ := bind_eq_ok.mp hrequest
    refine ⟨⟨h.ranked, h.past_elapsed operation.elapsed, h.names⟩, ?_⟩
    intro view hview
    rcases mem_replaceStableBindings hview with hswitched | ⟨hold, -, -⟩
    · have hbound : view ∈ request.bindings := mem_of_mem_take hswitched
      rcases publishRequest_cases hrequest with ⟨deployment, hdeployment, hid, rfl⟩ |
        ⟨hunrecorded, hcandidates⟩
      · obtain ⟨mapping, hmapping, hbinding⟩ := mem_map.mp hbound
        have hmapping := (orderedMappings_perm deployment).mem_iff.mp hmapping
        cases hrank : latestPublishRank (inventory staging state) deployment.deploymentId with
        | none => exact .unpublished hdeployment hmapping hbinding hrank
        | some rank =>
          rcases (hsafe deploymentId hoperation).1 deployment hdeployment hid (by simp) with
            hnone | hlatest
          · rw [← hid, hrank] at hnone
            cases hnone
          · exact .latest hdeployment hmapping hbinding hrank (hlatest mapping hmapping)
      · exact .foreign fun deployment hdeployment mapping hmapping =>
          hsafe.foreign hoperation hunrecorded (hcandidates view hbound) hdeployment hmapping
    · cases h.live view hold with
      | foreign hforeign => exact .foreign hforeign
      | unpublished hdeployment hmapping hbinding hnone =>
        exact .unpublished hdeployment hmapping hbinding hnone
      | latest hdeployment hmapping hbinding hrank hlatest =>
        exact .latest hdeployment hmapping hbinding hrank hlatest

/-- A view that a publication neither replaces nor removes is accounted for as before. -/
theorem LiveInv.accounted_kept (h : LiveInv staging state) (hstaged : StagedModels staging)
    (hrequest : publishRequest staging state event.deploymentId = .ok request)
    (hevents : state'.publishEvents = state.publishEvents ++ [event])
    (h' : PublishedInv staging state') (hview : view ∈ state.activeBindings)
    (hname : stableName view ∉ request.bindings.map stableName)
    (hkept : stableName view ∉ request.removals) : Accounted staging state' view := by
  have hrank' : ∀ deploymentId, latestPublishRank (inventory staging state') deploymentId =
      if event.deploymentId = deploymentId then some (eventRank event)
      else latestPublishRank (inventory staging state) deploymentId := by
    intro deploymentId
    rw [inventory, hevents]
    exact latestPublishRank_append (hevents ▸ h'.ranked)
  -- a deployment that has bound the view is not the one that is published
  have hother : ∀ deployment ∈ staging.deployments, ∀ mapping ∈ publishMappings deployment,
      bindingOf mapping staging.defaultDatabase = view →
        event.deploymentId ≠ deployment.deploymentId := by
    rintro deployment hdeployment mapping hmapping rfl hid
    rcases publishRequest_cases hrequest with ⟨published, hpublished, hid', rfl⟩ | ⟨hnone, -⟩
    · obtain rfl : published = deployment :=
        inj_on_of_nodup_map staging.ids hpublished hdeployment (hid'.trans hid)
      apply hname
      rw [map_map]
      exact mem_map.mpr ⟨mapping, (orderedMappings_perm published).mem_iff.mpr hmapping, rfl⟩
    · exact hnone (mem_map.mpr ⟨deployment, hdeployment, hid.symm⟩)
  cases h.live view hview with
  | foreign hforeign => exact .foreign hforeign
  | @unpublished deployment mapping hdeployment hmapping hbinding hnone =>
    refine .unpublished hdeployment hmapping hbinding ?_
    rw [hrank', if_neg (hother deployment hdeployment mapping hmapping hbinding), hnone]
  | @latest deployment mapping rank hdeployment hmapping hbinding hrank hlatest =>
    have hown :
      latestPublishRank (inventory staging state') deployment.deploymentId = some rank := by
      rw [hrank', if_neg (hother deployment hdeployment mapping hmapping hbinding), hrank]
    refine .latest hdeployment hmapping hbinding hown ?_
    rintro later hlater ⟨mapping', hpublishes⟩ rank' hlaterRank
    have hmapping' := ((h'.publishes_iff hstaged hlater).mp hpublishes).2
    rw [hrank'] at hlaterRank
    split_ifs at hlaterRank with hid
    · -- the published deployment has the model, so it would have removed the view
      rcases publishRequest_cases hrequest with ⟨published, hpublished, hid', rfl⟩ | ⟨hnone, -⟩
      · apply absurd _ hkept
        obtain rfl : published = later :=
          inj_on_of_nodup_map staging.ids hpublished hlater (hid'.trans hid)
        refine mem_obsoleteBindingRemovals.mpr ⟨view, hview, ?_, rfl⟩
        refine mem_historicalBindings.mpr ⟨deployment, hdeployment, mapping,
          (mem_filter.mp hmapping).1, ?_, ?_, ?_, hbinding⟩
        · rw [← hmapping'.2]
          exact mem_map_of_mem ((orderedMappings_perm published).mem_iff.mpr hmapping'.1)
        · exact (h.mem_publishedNames hdeployment).mpr ⟨⟨rank, hrank⟩, mem_map_of_mem hmapping⟩
        · rw [map_map] at hname
          rw [hbinding]
          exact hname
      · exact absurd (mem_map.mpr ⟨later, hlater, hid.symm⟩) hnone
    · obtain ⟨rank'', hown'', hle⟩ := hlatest later hlater
        ⟨mapping', (h.publishes_iff hstaged hlater).mpr ⟨⟨rank', hlaterRank⟩, hmapping'⟩⟩ rank'
          hlaterRank
      obtain rfl : rank = rank'' := Option.some.inj (hrank.symm.trans hown'')
      exact ⟨rank, hown, hle⟩

theorem executePublish_eq_ok
    (h : executePublish staging state deploymentId operation previousDeploymentId elapsed =
      .ok state') : ∃ request event, publishRequest staging state deploymentId = .ok request ∧
      event.deploymentId = deploymentId ∧
      event.logicalViewNames = request.bindings.map (·.logicalName) ∧
      eventRank event =
        ⟨state.clock + elapsed, staging.publicationId state.publications.length⟩ ∧
      state'.publishEvents = state.publishEvents ++ [event] ∧
      state'.publications.length = state.publications.length + 1 ∧
      state'.activeBindings = replaceStableBindings state.activeBindings request ∧
      state'.clock = state.clock + elapsed := by
  obtain ⟨request, hrequest, hstate⟩ := bind_eq_ok.mp h
  cases hstate
  refine ⟨request, buildPublishEvent deploymentId (state.clock + elapsed)
    (staging.publicationId state.publications.length) request.bindings staging.defaultDatabase
    operation previousDeploymentId, hrequest, rfl, rfl, ?_, ?_, ?_, rfl, rfl⟩
  · rw [eventRank, buildPublishEvent, if_neg (staging.publicationIds_ne _)]
  · simp [PromotionState.publishEvents]
  · simp

theorem LiveInv.published (h : LiveInv staging state) (hstaged : StagedModels staging)
    (hsafe : StopsSafely staging state step)
    (hoperation : operationDeployment staging state step.operation = .ok deploymentId)
    (hpublish : executePublish staging state deploymentId operation
      previousDeploymentId elapsed = .ok state') : LiveInv staging state' := by
  obtain ⟨request, event, hrequest, rfl, hnames, hrank, hevents, hlength, hactive, hclock⟩ :=
    executePublish_eq_ok hpublish
  have hpublished : PublishedInv staging state' := by
    constructor
    · rw [hevents]
      refine pairwise_append.mpr ⟨h.ranked, pairwise_singleton _ _, ?_⟩
      intro earlier hearlier later hlater
      rw [mem_singleton.mp hlater, hrank]
      exact h.past_elapsed elapsed earlier hearlier
    · have hgrows : (⟨state.clock + elapsed, staging.publicationId state.publications.length⟩ :
          EventRank) <
            ⟨state.clock + elapsed, staging.publicationId (state.publications.length + 1)⟩ :=
        Prod.Lex.toLex_lt_toLex.mpr (.inr ⟨rfl, staging.publicationIds (Nat.lt_succ_self _)⟩)
      intro earlier hearlier
      rw [hlength, hclock]
      rw [hevents] at hearlier
      rcases mem_append.mp hearlier with hearlier | hlast
      · exact (h.past_elapsed elapsed earlier hearlier).trans hgrows
      · rw [mem_singleton.mp hlast, hrank]
        exact hgrows
    · intro earlier hearlier deployment hdeployment hid name
      rw [hevents] at hearlier
      rcases mem_append.mp hearlier with hearlier | hlast
      · exact h.names earlier hearlier deployment hdeployment hid name
      · obtain rfl := mem_singleton.mp hlast
        rcases publishRequest_cases hrequest with ⟨published, hmem, hid', rfl⟩ | ⟨hnone, -⟩
        · obtain rfl : published = deployment :=
            inj_on_of_nodup_map staging.ids hmem hdeployment (hid'.trans hid)
          rw [hnames, map_map]
          exact ((orderedMappings_perm published).map _).mem_iff
        · exact absurd (mem_map.mpr ⟨deployment, hdeployment, hid.symm⟩) hnone
  refine ⟨hpublished, ?_⟩
  intro view hview
  rw [hactive] at hview
  rcases mem_replaceStableBindings hview with hbound | ⟨hold, hname, hkept⟩
  · rcases publishRequest_cases hrequest with ⟨deployment, hdeployment, hid, rfl⟩ |
      ⟨hunrecorded, hcandidates⟩
    · obtain ⟨mapping, hmapping, hbinding⟩ := mem_map.mp hbound
      have hmapping := (orderedMappings_perm deployment).mem_iff.mp hmapping
      have hown : latestPublishRank (inventory staging state') deployment.deploymentId =
          some (eventRank event) := by
        rw [inventory, hevents, latestPublishRank_append (hevents ▸ hpublished.ranked),
          if_pos hid.symm]
      refine .latest hdeployment hmapping hbinding hown ?_
      intro later hlater _ rank' hrank'
      refine ⟨eventRank event, hown, ?_⟩
      obtain ⟨last, hlast, -, rfl⟩ := exists_event_of_rank hrank'
      rw [hevents] at hlast
      rcases mem_append.mp hlast with hearlier | hlast
      · rw [hrank]
        exact (h.past_elapsed elapsed last hearlier).le
      · rw [mem_singleton.mp hlast]
    · exact .foreign fun deployment hdeployment mapping hmapping =>
        hsafe.foreign hoperation hunrecorded (hcandidates view hbound) hdeployment hmapping
  · exact h.accounted_kept hstaged hrequest hevents hpublished hold hname hkept

theorem LiveInv.next (h : LiveInv staging state) (hstaged : StagedModels staging)
    (step : HistoryStep) (hsafe : StopsSafely staging state step) :
    LiveInv staging (nextStep staging state step) := by
  obtain ⟨operation, stopsAfter⟩ := step
  cases stopsAfter with
  | some count => exact h.stopped hsafe
  | none =>
    change LiveInv staging (nextOperation staging state operation)
    unfold nextOperation
    cases hexecute : executeOperation staging state operation with
    | error message => exact h
    | ok state' =>
      obtain ⟨deploymentId, kind, previousDeploymentId, hoperation, hpublish⟩ :=
        executeOperation_eq_ok hexecute
      exact h.published hstaged hsafe hoperation hpublish

theorem liveInv_fresh (staging : Staging) (clock : ℤ) : LiveInv staging (.fresh clock) :=
  ⟨⟨List.Pairwise.nil, by simp [PromotionState.publishEvents, PromotionState.fresh],
    by simp [PromotionState.publishEvents, PromotionState.fresh]⟩,
    by simp [PromotionState.fresh]⟩

/-- In every history whose operations stop safely, the janitor keeps what is live. -/
theorem run_keepsLiveBindings (staging : Staging) (hstaged : StagedModels staging) (clock : ℤ)
    (steps : List HistoryStep)
    (hsafe : Along (nextStep staging) (StopsSafely staging) (.fresh clock) steps)
    (request : JanitorRequest) (now : ℤ) :
    KeepsLiveBindings staging (run (nextStep staging) (.fresh clock) steps) request now :=
  (run_invariant _ (fun _ step h hstep => h.next hstaged step hstep) (liveInv_fresh staging clock)
    hsafe).keepsLiveBindings hstaged request now

end

def ordersStaging : Staging where
  deployments := ordersIds.map ordersDeployment
  relations _ := ordersIds.map ("orders__" ++ ·)
  physicalCandidates := []
  defaultDatabase := "shop"
  publicationId count := .ofList (replicate (count + 1) '1')
  ids := by decide
  databases := by decide
  names := by decide
  retained := by decide
  publicationIds := shopStaging.publicationIds
  publicationIds_ne := shopStaging.publicationIds_ne

theorem stagedModels_orders : StagedModels ordersStaging where
  safe := by decide
  stable_names := by decide
  own_names := by decide
  one_name := by decide

def promoteStep (deploymentId : String) (stopsAfter : Option ℕ) : HistoryStep :=
  ⟨promote deploymentId, stopsAfter⟩

/-- The rollback to the first deployment stops after its switch. -/
def stoppedRollback : PromotionState :=
  run (nextStep ordersStaging) (.fresh 0) [promoteStep "20260727T100000Z_a" none,
    promoteStep "20260727T110000Z_b" none, ⟨⟨.rollback .previous, 1⟩, some 1⟩]

theorem latestFor_stoppedRollback :
    LatestFor ordersStaging stoppedRollback (ordersDeployment "20260727T110000Z_b")
      "model.orders" := by
  have hrank : latestPublishRank (inventory ordersStaging stoppedRollback)
      (ordersDeployment "20260727T110000Z_b").deploymentId = some ⟨2, "11"⟩ := by decide
  have hlast : ∀ event ∈ stoppedRollback.publishEvents, eventRank event ≤ ⟨2, "11"⟩ := by decide
  rintro deployment - - rank' hrank'
  obtain ⟨event, hevent, -, rfl⟩ := exists_event_of_rank hrank'
  exact ⟨⟨2, "11"⟩, hrank, hlast event hevent⟩

/-- The view is live under the current name of its model, and an apply drops it. -/
theorem not_keepsLiveBindings :
    ¬ KeepsLiveBindings ordersStaging stoppedRollback (ordersRequest 2) 10 := by
  intro hkeeps
  have happly : applyJanitor (inventory ordersStaging stoppedRollback)
      (inspected ordersStaging stoppedRollback) (ordersRequest 2) 10
        (inspected ordersStaging stoppedRollback) = .ok _ :=
    applyJanitor_eq_ok.mpr ⟨by decide, rfl⟩
  have hbound : BoundFor ordersStaging "model.orders" (ordersBinding "20260727T100000Z_a") :=
    ⟨ordersDeployment "20260727T100000Z_a", by decide, _, mem_singleton_self _, rfl, rfl⟩
  have hcurrent : CurrentName ordersStaging stoppedRollback "model.orders" "orders" :=
    ⟨ordersDeployment "20260727T110000Z_b", by decide, latestFor_stoppedRollback, _,
      ⟨mem_singleton_self _, rfl, by decide⟩, rfl⟩
  have hremoved : stableName (ordersBinding "20260727T100000Z_a") ∈
      obsoleteRemovals (inventory ordersStaging stoppedRollback)
        (inspected ordersStaging stoppedRollback) := by
    decide
  exact (hkeeps _ happly (ordersBinding "20260727T100000Z_a") (by decide) "model.orders" hbound
    hcurrent).1 hremoved

/-- The first promotion of the second deployment stops after its switch. -/
theorem run_keepsLiveBindings_orders :
    KeepsLiveBindings ordersStaging (run (nextStep ordersStaging) (.fresh 0)
      [promoteStep "20260727T100000Z_a" none, promoteStep "20260727T110000Z_b" (some 1)])
      (ordersRequest 2) 10 := by
  apply run_keepsLiveBindings ordersStaging stagedModels_orders
  refine ⟨?_, ?_, trivial⟩
  · rintro _ -
    exact ⟨fun _ _ _ hstops => absurd rfl hstops,
      fun _ _ hcandidate => absurd hcandidate not_mem_nil⟩
  · rintro deploymentId hoperation
    obtain rfl : "20260727T110000Z_b" = deploymentId := Except.ok.inj hoperation
    exact ⟨fun _ _ _ _ => .inl (by decide), fun _ _ hcandidate => absurd hcandidate not_mem_nil⟩

end SqlTide.Janitor
