import SqlTide.Planner.QueryChanges
import SqlTide.Population.PopulationPlan

/-!
# Shadow relations

The relations of a deployment should touch no relation that is live: the materialized views
write to shadow tables, what is read and planned is read under its shadow name, everything is
created once and behind what it reads, and every catch-up root finds its owner. A view follows
a changed side reference while its table does not; so this holds just where a changed table
drives the table of every planned view.
-/

namespace SqlTide.Population

open Compiler Foundations List Planner RealizedProject RealizedTableModel

/-- The names under which the project has relations for its queries. -/
def relationNames (P : RealizedProject) : List String :=
  P.sources.map (·.relationName) ++
    (P.tableModels.map (·.relationName) ++ P.viewModels.map (·.relationName))

/-- The name of a relation within the deployment. -/
def shadowName (plan : PopulationPlan) (name : String) : String :=
  if (⟨.table, name⟩ : ObjectKey) ∈ plan.plannedKeys then
    buildDeploymentPhysicalName name plan.executionId
  else name

/-- The materialized view of the model writes to the shadow table, and reads shadow tables where
there are any. -/
def shadowViewOfModel (P : RealizedProject) (plan : PopulationPlan) (m : RealizedTableModel) :
    AdapterResource :=
  .materializedView (buildDeploymentPhysicalName (materializedViewName m.name) plan.executionId)
    (shadowName plan (P.sourceRelationName m))
    (buildDeploymentPhysicalName m.relationName plan.executionId)
    ((databaseTemplate P m.parsedRefs).map (shadowName plan))

def shadowViewModel (P : RealizedProject) (plan : PopulationPlan) (v : RealizedViewModel) :
    AdapterResource :=
  .view (buildDeploymentPhysicalName v.relationName plan.executionId)
    ((databaseTemplate P v.parsedRefs).map (shadowName plan))

def shadowTable (plan : PopulationPlan) (m : RealizedTableModel) : AdapterResource :=
  .table (buildDeploymentPhysicalName m.relationName plan.executionId) m.spec

def shadowKey (plan : PopulationPlan) (key : ObjectKey) : ObjectKey :=
  ⟨key.objectType, buildDeploymentPhysicalName key.name plan.executionId⟩

/-- A plan whose shadow relations leave the live relations alone. -/
structure StagedApart (P : RealizedProject) (plan : PopulationPlan) : Prop where
  target : ∀ m ∈ P.tableModels, m.viewKey ∈ plan.plannedKeys → m.tableKey ∈ plan.plannedKeys
  own : ∀ m ∈ P.tableModels, m.tableKey ∈ plan.plannedKeys →
    buildDeploymentPhysicalName m.relationName plan.executionId ∉ relationNames P
  tables : ∀ m ∈ P.tableModels, m.tableKey ∈ plan.plannedKeys →
    shadowTable plan m ∈ planPopulationObjects plan.objects P
  views : ∀ m ∈ P.tableModels, m.viewKey ∈ plan.plannedKeys →
    shadowViewOfModel P plan m ∈ planPopulationObjects plan.objects P
  viewModels : ∀ v ∈ P.viewModels, v.viewKey ∈ plan.plannedKeys →
    shadowViewModel P plan v ∈ planPopulationObjects plan.objects P
  once : ((planPopulationObjects plan.objects P).map (·.key)).Perm
    (plan.plannedKeys.map (shadowKey plan))
  nodup : ((planPopulationObjects plan.objects P).map (·.key)).Nodup
  ordered : ∀ before resource after,
    planPopulationObjects plan.objects P = before ++ resource :: after →
      ∀ name ∈ resource.relations,
        (⟨.table, name⟩ : ObjectKey) ∈ plan.plannedKeys.map (shadowKey plan) →
          (⟨.table, name⟩ : ObjectKey) ∈ before.map (·.key)
  owners : ∃ expanded, expandFanInRoots P.desiredState plan = .ok expanded

/-- Changed tables drive the table of every view that is planned, and no shadow table has the
name of a relation of the project. -/
structure TablesFollowViews (P : RealizedProject) (changes : List PlannedObjectChange)
    (deploymentId : String) : Prop where
  views : ∀ m ∈ P.tableModels, TouchedView P changes m.viewKey → Touched P changes m.tableKey
  names : ∀ m ∈ P.tableModels, Touched P changes m.tableKey →
    buildDeploymentPhysicalName m.relationName deploymentId ∉ relationNames P

theorem buildDeploymentPhysicalName_injective (deploymentId : String) :
    Function.Injective fun name => buildDeploymentPhysicalName name deploymentId := by
  intro a b h
  have hlist := congrArg String.toList h
  simpa [buildDeploymentPhysicalName, String.toList_inj] using hlist

/-- Rewrites whose results are not rewritten again act at once. -/
theorem foldl_rewrites {physical : String → String} {names : List String}
    (hfresh : ∀ name ∈ names, physical name ∉ names) (template : List String) :
    (names.map fun name => (name, physical name)).foldl
      (fun template rewrite => template.map fun name =>
        if name = rewrite.1 then rewrite.2 else name) template =
      template.map fun name => if name ∈ names then physical name else name := by
  induction names generalizing template with
  | nil => simp
  | cons a names ih =>
    have hrest : ∀ name ∈ names, physical name ∉ names := by
      intro name hname hmem
      exact hfresh name (mem_cons_of_mem _ hname) (mem_cons_of_mem _ hmem)
    rw [map_cons, foldl_cons, ih hrest, map_map]
    refine map_congr_left fun name _ => ?_
    have hhead : physical a ∉ names := by
      intro hmem
      exact hfresh a (by simp) (mem_cons_of_mem _ hmem)
    by_cases heq : name = a
    · simp [heq, hhead]
    · simp [heq]

section

variable {P : RealizedProject} {plan : PopulationPlan}

/-- A plan for the relations of models, each under its shadow name. -/
structure Staged (P : RealizedProject) (plan : PopulationPlan) : Prop where
  nodup : plan.plannedKeys.Nodup
  named : plan.objects = plan.plannedKeys.map fun key =>
    { logicalKey := key, physicalName := buildDeploymentPhysicalName key.name plan.executionId }
  model : ∀ key ∈ plan.plannedKeys, P.ModelRelation key

theorem Staged.tableRewrites_eq (h : Staged P plan) :
    tableRewrites plan.objects =
      ((plan.plannedKeys.filter (·.objectType = .table)).map (·.name)).map fun name =>
        (name, buildDeploymentPhysicalName name plan.executionId) := by
  unfold tableRewrites
  rw [h.named, filter_map, map_map, map_map]
  rfl

variable {name : String} {m : RealizedTableModel} {key : ObjectKey} {resource : AdapterResource}

theorem mem_plannedTables :
    name ∈ (plan.plannedKeys.filter (·.objectType = .table)).map (·.name) ↔
      (⟨.table, name⟩ : ObjectKey) ∈ plan.plannedKeys := by
  simp only [mem_map, mem_filter, decide_eq_true_eq]
  constructor
  · rintro ⟨⟨type, _⟩, ⟨hmem, rfl⟩, rfl⟩
    exact hmem
  · intro hmem
    exact ⟨_, ⟨hmem, rfl⟩, rfl⟩

theorem Staged.physicalTableName_eq (h : Staged P plan) (name : String) :
    physicalTableName plan.objects name = shadowName plan name := by
  unfold physicalTableName shadowName
  rw [h.tableRewrites_eq, find?_map]
  by_cases hmem : (⟨.table, name⟩ : ObjectKey) ∈ plan.plannedKeys
  · obtain ⟨found, hfound⟩ : ∃ found,
        ((plan.plannedKeys.filter (·.objectType = .table)).map (·.name)).find?
          (fun other => other = name) = some found :=
      Option.isSome_iff_exists.mp
        (find?_isSome.mpr ⟨name, mem_plannedTables.mpr hmem, by simp⟩)
    have heq : found = name := by simpa using find?_some hfound
    simp only [Function.comp_def, hfound, heq, if_pos hmem, Option.map_some, Option.getD_some]
  · have hnone : ((plan.plannedKeys.filter (·.objectType = .table)).map (·.name)).find?
        (fun other => other = name) = none := by
      rw [find?_eq_none]
      intro other hother heq
      obtain rfl : other = name := by simpa using heq
      exact hmem (mem_plannedTables.mp hother)
    simp only [Function.comp_def, hnone, if_neg hmem, Option.map_none, Option.getD_none]

/-- No shadow table has the name of a relation of the project. -/
def Fresh (P : RealizedProject) (plan : PopulationPlan) : Prop :=
  ∀ m ∈ P.tableModels, m.tableKey ∈ plan.plannedKeys →
    buildDeploymentPhysicalName m.relationName plan.executionId ∉ relationNames P

theorem Staged.exists_tableModel (h : Staged P plan)
    (hname : (⟨.table, name⟩ : ObjectKey) ∈ plan.plannedKeys) :
    ∃ m ∈ P.tableModels, m.relationName = name ∧ m.tableKey ∈ plan.plannedKeys := by
  rcases h.model _ hname with ⟨m, hm, heq | heq⟩ | ⟨v, -, heq⟩
  · exact ⟨m, hm, (congrArg ObjectKey.name heq).symm, heq ▸ hname⟩
  · cases heq
  · cases heq

theorem tableModel_mem_relationNames (hm : m ∈ P.tableModels) : m.relationName ∈ relationNames P :=
  mem_append_right _ (mem_append_left _ (mem_map_of_mem hm))

theorem Staged.rewriteShadowTemplate_eq (h : Staged P plan) (hfresh : Fresh P plan)
    (template : List String) :
    rewriteShadowTemplate plan.objects template = template.map (shadowName plan) := by
  unfold rewriteShadowTemplate
  rw [h.tableRewrites_eq, foldl_rewrites]
  · refine map_congr_left fun name _ => ?_
    simp only [mem_plannedTables, shadowName]
  · intro name hname hmem
    obtain ⟨m, hm, rfl, hplanned⟩ := h.exists_tableModel (mem_plannedTables.mp hname)
    obtain ⟨m', hm', heq, -⟩ := h.exists_tableModel (mem_plannedTables.mp hmem)
    exact hfresh m hm hplanned (heq ▸ tableModel_mem_relationNames hm')

theorem Staged.physicalName_eq (h : Staged P plan) (hkey : key ∈ plan.plannedKeys) :
    physicalName plan.objects key = buildDeploymentPhysicalName key.name plan.executionId := by
  unfold physicalName
  rw [h.named, find?_map]
  obtain ⟨found, hfound⟩ : ∃ found,
      plan.plannedKeys.find? (fun other => other = key) = some found :=
    Option.isSome_iff_exists.mp (find?_isSome.mpr ⟨key, hkey, by simp⟩)
  have heq : found = key := by simpa using find?_some hfound
  simp only [Function.comp_def, hfound, heq, Option.map_some, Option.getD_some]

theorem modelTemplate_tableModel (hm : m ∈ P.tableModels) :
    modelTemplate P m.name = databaseTemplate P m.parsedRefs := by
  obtain ⟨found, hfound⟩ : ∃ found, P.tableModels.find? (fun m' => m'.name = m.name) = some found :=
    Option.isSome_iff_exists.mp (find?_isSome.mpr ⟨m, hm, by simp⟩)
  have hname : found.name = m.name := by simpa using find?_some hfound
  obtain rfl := tableModel_unique (mem_of_find?_eq_some hfound) hm hname
  simp only [modelTemplate, hfound]

theorem modelTemplate_viewModel {v : RealizedViewModel} (hv : v ∈ P.viewModels) :
    modelTemplate P v.name = databaseTemplate P v.parsedRefs := by
  have hnone : P.tableModels.find? (fun m => m.name = v.name) = none := by
    rw [find?_eq_none]
    intro m hm
    simpa using tableModel_name_ne hm hv
  obtain ⟨found, hfound⟩ : ∃ found, P.viewModels.find? (fun v' => v'.name = v.name) = some found :=
    Option.isSome_iff_exists.mp (find?_isSome.mpr ⟨v, hv, by simp⟩)
  have hname : found.name = v.name := by simpa using find?_some hfound
  obtain rfl := viewModel_unique (mem_of_find?_eq_some hfound) hv hname
  simp only [modelTemplate, hnone, hfound, Option.map_some, Option.getD_some]

/-- The resource of a planned key. -/
def resourceOf (P : RealizedProject) (plan : PopulationPlan) (key : ObjectKey) :
    Option AdapterResource :=
  (P.desiredState.objectByKey key).bind
    (buildShadowAdapterResource plan.objects P (physicalName plan.objects key))

theorem mem_planPopulationObjects :
    resource ∈ planPopulationObjects plan.objects P ↔
      ∃ key ∈ orderedCreationKeys plan.objects P.desiredState,
        resourceOf P plan key = some resource := by
  simp only [planPopulationObjects, mem_filterMap]
  rfl

section

variable (h : Staged P plan)

include h

theorem Staged.resourceOf_table (hm : m ∈ P.tableModels) (hkey : m.tableKey ∈ plan.plannedKeys) :
    resourceOf P plan m.tableKey = some (shadowTable plan m) := by
  have hobject : P.desiredState.objectByKey m.tableKey = some (.table (P.modelTable m)) :=
    objectByKey_eq_some.mpr
      ⟨mem_objects.mpr (.inr (.inl ⟨m, hm, .inl rfl⟩)), rfl⟩
  simp only [resourceOf, hobject, h.physicalName_eq hkey, Option.bind_some,
    buildShadowAdapterResource]
  rfl

theorem Staged.resourceOf_view (hfresh : Fresh P plan) (hm : m ∈ P.tableModels)
    (hkey : m.viewKey ∈ plan.plannedKeys) (htable : m.tableKey ∈ plan.plannedKeys) :
    resourceOf P plan m.viewKey = some (shadowViewOfModel P plan m) := by
  have hobject : P.desiredState.objectByKey m.viewKey = some (.materializedView (P.modelView m)) :=
    objectByKey_eq_some.mpr
      ⟨mem_objects.mpr (.inr (.inl ⟨m, hm, .inr rfl⟩)), rfl⟩
  have htarget : shadowName plan m.relationName =
      buildDeploymentPhysicalName m.relationName plan.executionId := if_pos htable
  simp only [resourceOf, hobject, h.physicalName_eq hkey, Option.bind_some,
    buildShadowAdapterResource, h.physicalTableName_eq, h.rewriteShadowTemplate_eq hfresh,
    modelView, modelTemplate_tableModel hm, htarget]
  rfl

theorem Staged.resourceOf_viewModel (hfresh : Fresh P plan)
    {v : RealizedViewModel} (hv : v ∈ P.viewModels) (hkey : v.viewKey ∈ plan.plannedKeys) :
    resourceOf P plan v.viewKey = some (shadowViewModel P plan v) := by
  have hobject : P.desiredState.objectByKey v.viewKey = some (.view (P.viewModelView v)) :=
    objectByKey_eq_some.mpr
      ⟨mem_objects.mpr (.inr (.inr ⟨v, hv, rfl⟩)), rfl⟩
  simp only [resourceOf, hobject, h.physicalName_eq hkey, Option.bind_some,
    buildShadowAdapterResource, h.rewriteShadowTemplate_eq hfresh,
    viewModelView, modelTemplate_viewModel hv]
  rfl

theorem Staged.perm_orderedCreationKeys :
    (orderedCreationKeys plan.objects P.desiredState).Perm plan.plannedKeys ∧
      TopologicalOrder.DependenciesFirst P.desiredState.depsOf
        (orderedCreationKeys plan.objects P.desiredState) := by
  have hrank : ∀ b ∈ plan.plannedKeys, ∀ a ∈ P.desiredState.depsOf b, a ∈ plan.plannedKeys →
      P.keyRank a < P.keyRank b := by
    intro b _ a ha _
    exact keyRank_lt ((DesiredState.mem_depsOf nodup_keys).mp ha)
  have hroots : ∀ a ∈ plan.plannedKeys, a ∈ P.desiredState.keys :=
    fun a ha => (h.model a ha).mem_keys
  exact TopologicalOrder.perm_postorder_length hrank h.nodup hroots

theorem Staged.exists_resourceOf (hkey : key ∈ plan.plannedKeys) :
    ∃ resource, resourceOf P plan key = some resource ∧ resource.key = shadowKey plan key := by
  obtain ⟨object, hobject⟩ : ∃ object, P.desiredState.objectByKey key = some object := by
    obtain ⟨object, hmem, hobject⟩ := mem_map.mp (h.model key hkey).mem_keys
    exact ⟨object, objectByKey_eq_some.mpr ⟨hmem, hobject⟩⟩
  obtain ⟨-, rfl⟩ := objectByKey_eq_some.mp hobject
  unfold resourceOf
  rw [hobject, h.physicalName_eq hkey]
  cases object with
  | kafkaTable t =>
    rcases h.model _ hkey with ⟨m, -, heq | heq⟩ | ⟨v, -, heq⟩
    · cases heq
    · cases heq
    · cases heq
  | table t => exact ⟨_, rfl, rfl⟩
  | materializedView v => exact ⟨_, rfl, rfl⟩
  | view v => exact ⟨_, rfl, rfl⟩

theorem Staged.keys_filterMap {keys : List ObjectKey}
    (hkeys : ∀ key ∈ keys, key ∈ plan.plannedKeys) :
    (keys.filterMap (resourceOf P plan)).map (·.key) = keys.map (shadowKey plan) := by
  induction keys with
  | nil => rfl
  | cons key keys ih =>
    obtain ⟨resource, hresource, heq⟩ := h.exists_resourceOf (hkeys key (by simp))
    rw [filterMap_cons_some hresource, map_cons, map_cons, heq,
      ih fun other hother => hkeys other (mem_cons_of_mem _ hother)]

theorem Staged.keys_planPopulationObjects :
    (planPopulationObjects plan.objects P).map (·.key) =
      (orderedCreationKeys plan.objects P.desiredState).map (shadowKey plan) :=
  h.keys_filterMap fun _ hkey => h.perm_orderedCreationKeys.1.mem_iff.mp hkey

end

theorem shadowKey_injective : Function.Injective (shadowKey plan) := by
  intro a b heq
  obtain ⟨type, name⟩ := a
  obtain ⟨type', name'⟩ := b
  simp only [shadowKey, ObjectKey.mk.injEq] at heq
  exact ObjectKey.mk.injEq .. ▸ ⟨heq.1, buildDeploymentPhysicalName_injective _ heq.2⟩

theorem relationKeyByName_mem_relationNames (h : P.relationKeyByName name = some key) :
    key = ⟨.table, key.name⟩ ∧ key.name ∈ relationNames P := by
  rcases relationKeyByName_cases h with ⟨s, hs, -, rfl⟩ | ⟨m, hm, -, rfl⟩
  · exact ⟨rfl, mem_append_left _ (mem_map_of_mem hs)⟩
  · exact ⟨rfl, tableModel_mem_relationNames hm⟩

theorem mem_databaseTemplate {refs : List String} (h : name ∈ databaseTemplate P refs) :
    (⟨.table, name⟩ : ObjectKey) ∈ P.refKeys refs ∧ name ∈ relationNames P := by
  obtain ⟨key, hkey, rfl⟩ := mem_map.mp h
  obtain ⟨ref, href, hresolve⟩ := mem_filterMap.mp hkey
  obtain ⟨heq, hname⟩ := relationKeyByName_mem_relationNames hresolve
  exact ⟨heq ▸ mem_refKeys.mpr ⟨ref, href, hresolve⟩, hname⟩

theorem sourceRelationName_mem (hm : m ∈ P.tableModels) :
    (⟨.table, P.sourceRelationName m⟩ : ObjectKey) ∈ P.refKeys m.parsedRefs ∧
      P.sourceRelationName m ∈ relationNames P := by
  have hparsed := P.driving_parsed m hm
  obtain ⟨key, hkey⟩ := exists_relationKey (P.refs_resolve m hm _ hparsed)
  obtain ⟨heq, hname⟩ := relationKeyByName_mem_relationNames hkey
  have hsource : P.sourceRelationName m = key.name := by
    simp [sourceRelationName, hkey]
  rw [hsource]
  exact ⟨heq ▸ mem_refKeys.mpr ⟨_, hparsed, hkey⟩, hname⟩

section

variable (h : Staged P plan) (hfresh : Fresh P plan)
  (htarget : ∀ m ∈ P.tableModels, m.viewKey ∈ plan.plannedKeys → m.tableKey ∈ plan.plannedKeys)

include h hfresh htarget

/-- A relation that a planned resource refers to is the shadow of something its key depends on,
or a relation of the project. -/
theorem Staged.relations_cases (hkey : key ∈ plan.plannedKeys)
    (hresource : resourceOf P plan key = some resource) (hname : name ∈ resource.relations) :
    ∃ logical, name = shadowName plan logical ∧ logical ∈ relationNames P ∧
      P.desiredState.DependsOn key ⟨.table, logical⟩ := by
  rcases h.model key hkey with ⟨m, hm, rfl | rfl⟩ | ⟨v, hv, rfl⟩
  · rw [h.resourceOf_table hm hkey] at hresource
    cases hresource
    simp [shadowTable, AdapterResource.relations] at hname
  · have htable := htarget m hm hkey
    rw [h.resourceOf_view hfresh hm hkey htable] at hresource
    cases hresource
    simp only [shadowViewOfModel, AdapterResource.relations, mem_cons, mem_map] at hname
    rcases hname with rfl | rfl | ⟨logical, hlogical, rfl⟩
    · obtain ⟨hdep, hlive⟩ := sourceRelationName_mem hm
      exact ⟨_, rfl, hlive, viewOfModel_dependsOn hm (.inl hdep)⟩
    · exact ⟨m.relationName, (if_pos htable).symm, tableModel_mem_relationNames hm,
        viewOfModel_dependsOn hm (.inr rfl)⟩
    · obtain ⟨hdep, hlive⟩ := mem_databaseTemplate hlogical
      exact ⟨logical, rfl, hlive, viewOfModel_dependsOn hm (.inl hdep)⟩
  · rw [h.resourceOf_viewModel hfresh hv hkey] at hresource
    cases hresource
    simp only [shadowViewModel, AdapterResource.relations, mem_map] at hname
    obtain ⟨logical, hlogical, rfl⟩ := hname
    obtain ⟨hdep, hlive⟩ := mem_databaseTemplate hlogical
    exact ⟨logical, rfl, hlive, viewModel_dependsOn hv hdep⟩

/-- What a resource refers to and is planned has been created before it. -/
theorem Staged.created_before {before after : List AdapterResource}
    (hsplit : planPopulationObjects plan.objects P = before ++ resource :: after)
    (hname : name ∈ resource.relations)
    (hplanned : (⟨.table, name⟩ : ObjectKey) ∈ plan.plannedKeys.map (shadowKey plan)) :
    (⟨.table, name⟩ : ObjectKey) ∈ before.map (·.key) := by
  obtain ⟨hperm, hfirst⟩ := h.perm_orderedCreationKeys
  obtain ⟨early, late, horder, hbefore, hlate⟩ := filterMap_eq_append_iff.mp hsplit
  obtain ⟨skipped, key, rest, hlateEq, hskipped, hresource, -⟩ :=
    filterMap_eq_cons_iff.mp hlate
  have hmem : ∀ k ∈ early ++ (skipped ++ key :: rest), k ∈ plan.plannedKeys := by
    intro k hk
    rw [← hlateEq, ← horder] at hk
    exact hperm.mem_iff.mp hk
  have hkey : key ∈ plan.plannedKeys := hmem key (by simp)
  obtain ⟨logical, rfl, hlive, hdep⟩ := h.relations_cases hfresh htarget hkey hresource hname
  obtain ⟨⟨type, other⟩, hother, heq⟩ := mem_map.mp hplanned
  simp only [shadowKey, ObjectKey.mk.injEq] at heq
  obtain ⟨rfl, heq⟩ := heq
  obtain ⟨m, hm, rfl, hmplanned⟩ := h.exists_tableModel hother
  -- the name is a shadow name, so that it is the shadow of the dependency
  have hlogical : (⟨.table, logical⟩ : ObjectKey) ∈ plan.plannedKeys := by
    by_contra hout
    rw [shadowName, if_neg hout] at heq
    exact hfresh m hm hmplanned (heq ▸ hlive)
  rw [shadowName, if_pos hlogical]
  have hskip : (⟨.table, logical⟩ : ObjectKey) ∉ skipped := by
    intro hskip
    obtain ⟨other, hsome, -⟩ := h.exists_resourceOf hlogical
    exact absurd (hsome.symm.trans (hskipped _ hskip)) (by simp)
  have hrest : (⟨.table, logical⟩ : ObjectKey) ∉ rest := by
    intro hrest
    rw [horder, hlateEq, ← append_assoc] at hfirst
    have hlast := (pairwise_cons.mp (pairwise_append.mp hfirst).2.1).1 _ hrest
    exact hlast ((DesiredState.mem_depsOf nodup_keys).mpr hdep)
  have hself : (⟨.table, logical⟩ : ObjectKey) ≠ key := by
    rintro rfl
    exact absurd (keyRank_lt hdep) (lt_irrefl _)
  have hearly : (⟨.table, logical⟩ : ObjectKey) ∈ early := by
    have hin : (⟨.table, logical⟩ : ObjectKey) ∈ early ++ (skipped ++ key :: rest) := by
      rw [← hlateEq, ← horder]
      exact hperm.mem_iff.mpr hlogical
    simpa [hskip, hrest, hself] using hin
  have hkeys : before.map (·.key) = early.map (shadowKey plan) := by
    rw [← hbefore]
    exact h.keys_filterMap fun k hk => hmem k (mem_append_left _ hk)
  rw [hkeys]
  exact mem_map.mpr ⟨⟨.table, logical⟩, hearly, rfl⟩

end

theorem tableKeyByName_tableModel (hm : m ∈ P.tableModels) :
    tableKeyByName P.desiredState m.relationName = some m.tableKey := by
  obtain ⟨found, hfound⟩ : ∃ found,
      P.desiredState.tables.find? (fun table => table.name = m.relationName) = some found :=
    Option.isSome_iff_exists.mp (find?_isSome.mpr ⟨P.modelTable m, mem_tables hm, by
      simp [modelTable]⟩)
  have hname : found.name = m.relationName := by simpa using find?_some hfound
  simp [tableKeyByName, hfound, hname, tableKey]

/-- Where the target of every planned view is affected by a root, expansion succeeds. -/
theorem Staged.exists_expanded (h : Staged P plan)
    (howner : ∀ m ∈ P.tableModels, m.viewKey ∈ plan.plannedKeys →
      ∃ root ∈ plan.roots, m.tableKey ∈ root.affectedKeys) :
    ∃ expanded, expandFanInRoots P.desiredState plan = .ok expanded := by
  unfold expandFanInRoots
  cases hfold : (P.desiredState.materializedViews.filter fun view =>
      (⟨.materializedView, view.name⟩ : ObjectKey) ∈ plan.plannedKeys).foldlM
      (expandView P.desiredState plan) plan.roots with
  | ok roots =>
    refine ⟨{ plan with roots := roots }, ?_⟩
    simp only [hfold]
    rfl
  | error e =>
    obtain ⟨view, hview, roots, hfail⟩ := foldlM_error hfold
    obtain ⟨hmem, hplanned⟩ := mem_filter.mp hview
    simp only [decide_eq_true_eq] at hplanned
    obtain ⟨m, hm, rfl⟩ := exists_model_of_view hmem (h.model _ hplanned)
    obtain ⟨root, hroot, haffected⟩ := howner m hm hplanned
    obtain ⟨owner, hfound⟩ : ∃ owner,
        plan.roots.find? (fun root => m.tableKey ∈ root.affectedKeys) = some owner :=
      Option.isSome_iff_exists.mp (find?_isSome.mpr ⟨root, hroot, by simpa using haffected⟩)
    have htarget : tableKeyByName P.desiredState (P.modelView m).spec.targetTableName =
        some m.tableKey := tableKeyByName_tableModel hm
    unfold expandView at hfail
    simp only [htarget, hfound] at hfail
    split at hfail
    · cases hfail
    · split at hfail
      · cases hfail
      · cases hfail

end

section

variable {P : RealizedProject} {changes : List PlannedObjectChange} {plan : DeploymentPlan}
  {deploymentId : String} {replayLineageMode : Replay.AdapterReplayBoundaryMode}

theorem plannedKeys_populationPlan :
    (populationPlan plan deploymentId replayLineageMode).plannedKeys = preparedKeys plan := by
  simp [PopulationPlan.plannedKeys, populationPlan, preparedKeys]

variable {m : RealizedTableModel} (hretained : RetainedSubtrees P changes plan.rebuildSubtrees)

include hretained

theorem exists_root_of_table
    (h : ∃ subtree ∈ plan.rebuildSubtrees, m.tableKey ∈ subtree.affectedKeys) :
    ∃ root ∈ (populationPlan plan deploymentId replayLineageMode).roots,
      m.tableKey ∈ root.affectedKeys := by
  obtain ⟨subtree, hsubtree, hmem⟩ := h
  have hof := hretained.subtree subtree hsubtree
  have hrequired : subtree.replayRequired = true := by
    rw [hof.required]
    have hdescends := (hof.affected _).mp hmem
    rcases eq_or_tableKey_of_descends hof.model hdescends with heq | ⟨m', -, heq⟩
    · simp [← heq, tableKey]
    · simp [heq, tableKey]
  refine ⟨_, mem_map_of_mem (mem_filter.mpr ⟨hsubtree, hrequired⟩), hmem⟩

variable (hprepared : plan.preparedShadowObjects =
  buildPreparedShadowObjects P.desiredState plan.rebuildSubtrees (some deploymentId))

include hprepared

theorem staged_populationPlan : Staged P (populationPlan plan deploymentId replayLineageMode) := by
  have hkeys : preparedKeys plan = (plan.rebuildSubtrees.flatMap (·.affectedKeys)).eraseDups := by
    simp [preparedKeys, hprepared, buildPreparedShadowObjects, Function.comp_def]
  refine ⟨?_, ?_, ?_⟩
  · rw [plannedKeys_populationPlan, hkeys]
    exact nodup_eraseDups _
  · rw [plannedKeys_populationPlan, hkeys]
    simp [populationPlan, hprepared, buildPreparedShadowObjects]
  · intro key hkey
    rw [plannedKeys_populationPlan, mem_preparedKeys hprepared] at hkey
    obtain ⟨subtree, hsubtree, hmem⟩ := hkey
    have hof := hretained.subtree subtree hsubtree
    exact hof.model.of_descends ((hof.affected key).mp hmem)

theorem tableKey_planned_iff :
    m.tableKey ∈ (populationPlan plan deploymentId replayLineageMode).plannedKeys ↔
      Touched P changes m.tableKey := by
  rw [plannedKeys_populationPlan, mem_preparedKeys hprepared, hretained.exists_affected_table]

theorem viewKey_planned_iff (hm : m ∈ P.tableModels) :
    m.viewKey ∈ (populationPlan plan deploymentId replayLineageMode).plannedKeys ↔
      TouchedView P changes m.viewKey := by
  rw [plannedKeys_populationPlan, mem_preparedKeys hprepared,
    hretained.exists_affected_view (.inl ⟨m, hm, .inr rfl⟩) (by simp [viewKey])]

/-- A staged plan with its targets among the planned tables, and no name twice. -/
theorem stagedApart_of_targets (hfollow : TablesFollowViews P changes deploymentId) :
    StagedApart P (populationPlan plan deploymentId replayLineageMode) := by
  have hstaged : Staged P (populationPlan plan deploymentId replayLineageMode) :=
    staged_populationPlan hretained hprepared
  have htarget : ∀ m ∈ P.tableModels,
      m.viewKey ∈ (populationPlan plan deploymentId replayLineageMode).plannedKeys →
        m.tableKey ∈ (populationPlan plan deploymentId replayLineageMode).plannedKeys := by
    intro m hm hview
    rw [viewKey_planned_iff hretained hprepared hm] at hview
    exact (tableKey_planned_iff hretained hprepared).mpr (hfollow.views m hm hview)
  have hfresh : Fresh P (populationPlan plan deploymentId replayLineageMode) := by
    intro m hm htable
    exact hfollow.names m hm ((tableKey_planned_iff hretained hprepared).mp htable)
  obtain ⟨hperm, -⟩ := hstaged.perm_orderedCreationKeys
  refine ⟨htarget, hfresh, ?_, ?_, ?_, ?_, ?_, ?_, ?_⟩
  · intro m hm hkey
    exact mem_planPopulationObjects.mpr
      ⟨_, hperm.mem_iff.mpr hkey, hstaged.resourceOf_table hm hkey⟩
  · intro m hm hkey
    exact mem_planPopulationObjects.mpr
      ⟨_, hperm.mem_iff.mpr hkey, hstaged.resourceOf_view hfresh hm hkey (htarget m hm hkey)⟩
  · intro v hv hkey
    exact mem_planPopulationObjects.mpr
      ⟨_, hperm.mem_iff.mpr hkey, hstaged.resourceOf_viewModel hfresh hv hkey⟩
  · rw [hstaged.keys_planPopulationObjects]
    exact hperm.map _
  · rw [hstaged.keys_planPopulationObjects, nodup_map_iff shadowKey_injective, hperm.nodup_iff]
    exact hstaged.nodup
  · intro before resource after hsplit name hname hplanned
    exact hstaged.created_before hfresh htarget hsplit hname hplanned
  · refine hstaged.exists_expanded fun m hm hview => ?_
    have htable := (tableKey_planned_iff hretained hprepared).mp (htarget m hm hview)
    exact exists_root_of_table hretained (hretained.exists_affected_table.mpr htable)

end

/-- The shadow relations of a deployment leave the live ones alone just if changed tables drive
the table of every view that the plan reaches, and no shadow table takes the name of a relation
of the project. -/
theorem stagedApart_iff (A : SqlAnalyzer) (P : RealizedProject) (S : ActualState)
    (deploymentId : String) (options : PlanningOptions)
    (replayLineageMode : Replay.AdapterReplayBoundaryMode) {changes : List PlannedObjectChange}
    (hchanges : classifyObjectChanges A options S P.desiredState = .ok changes) :
    ∃ plan, buildDeploymentPlan A P.desiredState S (some deploymentId) options = .ok plan ∧
      (StagedApart P (populationPlan plan deploymentId replayLineageMode) ↔
        TablesFollowViews P changes deploymentId) := by
  obtain ⟨plan, hplan, -, hretained, hprepared⟩ := exists_plan hchanges deploymentId
  refine ⟨plan, hplan, ?_, stagedApart_of_targets hretained hprepared⟩
  intro h
  constructor
  · intro m hm hview
    rw [← viewKey_planned_iff hretained hprepared hm] at hview
    exact (tableKey_planned_iff hretained hprepared).mp (h.target m hm hview)
  · intro m hm htable
    exact h.own m hm ((tableKey_planned_iff hretained hprepared).mpr htable)

/-- A first deployment leaves the live relations alone. -/
theorem stagedApart_created :
    ∃ plan, buildDeploymentPlan plainAnalyzer fanInProject.desiredState ⟨[]⟩
        (some "20260101T000000Z_a1b2c3") {} = .ok plan ∧
      StagedApart fanInProject (populationPlan plan "20260101T000000Z_a1b2c3" .offsets) := by
  have hok : (classifyObjectChanges plainAnalyzer {} ⟨[]⟩
      fanInProject.desiredState).isOk = true := by decide +kernel
  obtain ⟨changes, hchanges⟩ : ∃ changes,
      classifyObjectChanges plainAnalyzer {} ⟨[]⟩ fanInProject.desiredState = .ok changes := by
    cases h : classifyObjectChanges plainAnalyzer {} ⟨[]⟩ fanInProject.desiredState with
    | ok changes => exact ⟨changes, rfl⟩
    | error e =>
      rw [h] at hok
      cases hok
  obtain ⟨plan, hplan, hiff⟩ := stagedApart_iff plainAnalyzer fanInProject ⟨[]⟩
    "20260101T000000Z_a1b2c3" {} .offsets hchanges
  refine ⟨plan, hplan, hiff.mpr ⟨?_, ?_⟩⟩
  · intro m hm _
    refine ⟨m, hm, ?_, .refl⟩
    exact changed_of_absent hchanges (tableKey_mem_keys hm) rfl
  · have hnames : ∀ m ∈ fanInProject.tableModels,
        buildDeploymentPhysicalName m.relationName "20260101T000000Z_a1b2c3" ∉
          relationNames fanInProject := by decide +kernel
    exact fun m hm _ => hnames m hm

/-- The first table has a column of another type. -/
def changedTable : ActualObject :=
  .table
    { name := "tbl__alpha"
      spec := { plainSpec with columns := [{ name := "order_id", type := "UInt64" }] } }

/-- Everything is deployed as desired, up to the first table. -/
def changedTableState : ActualState :=
  ⟨fanInProject.desiredState.objects.map deployed ++ [changedTable]⟩

/-- Where a side reference changed, the shadow view of its reader has no shadow table. -/
theorem not_stagedApart :
    ¬ ∀ (A : SqlAnalyzer) (P : RealizedProject) (S : ActualState) (deploymentId : String)
      (options : PlanningOptions) (replayLineageMode : Replay.AdapterReplayBoundaryMode)
      (plan : DeploymentPlan),
      buildDeploymentPlan A P.desiredState S (some deploymentId) options = .ok plan →
        StagedApart P (populationPlan plan deploymentId replayLineageMode) := by
  intro hall
  have hkeys : ((buildDeploymentPlan plainAnalyzer fanInProject.desiredState changedTableState
      (some "20260101T000000Z_a1b2c3") {}).map preparedKeys).toOption =
        some [⟨.table, "tbl__alpha"⟩, ⟨.materializedView, "mv__alpha"⟩,
          ⟨.materializedView, "mv__gamma"⟩] := by decide +kernel
  cases hplan : buildDeploymentPlan plainAnalyzer fanInProject.desiredState changedTableState
      (some "20260101T000000Z_a1b2c3") {} with
  | error e =>
    rw [hplan] at hkeys
    cases hkeys
  | ok plan =>
    rw [hplan] at hkeys
    have hprepared := Option.some.inj hkeys
    have h := hall plainAnalyzer fanInProject changedTableState "20260101T000000Z_a1b2c3" {}
      .offsets plan hplan
    have hmem := h.target (plainModel "gamma" "beta" ["alpha"]) (by decide)
    rw [plannedKeys_populationPlan, hprepared] at hmem
    exact absurd (hmem (by decide)) (by decide)

end SqlTide.Population
