import SqlTide.Planner.DeploymentPlan

/-!
# Population plans

What a build populates, in either mode: the replay roots, and the physical name of every planned
object. A materialized view whose side references are planned as well gets a catch-up root of its
own, taken from the first root that affects its table. The planned objects are created along
their dependencies, under their physical names.
-/

namespace SqlTide.Population

open Foundations Compiler Planner

structure PopulationRoot extends Replay.PopulationRoot where
  rootKey : ObjectKey
  affectedKeys : List ObjectKey
  upstreamBoundaryKey : ObjectKey

structure PopulationObject where
  logicalKey : ObjectKey
  physicalName : String
  deriving DecidableEq, Repr

structure PopulationPlan where
  executionId : String
  roots : List PopulationRoot
  objects : List PopulationObject

def PopulationPlan.plannedKeys (plan : PopulationPlan) : List ObjectKey :=
  plan.objects.map (·.logicalKey)

/-- `_population_plan` of the virtual build. -/
def populationPlan (plan : DeploymentPlan) (executionId : String)
    (replayLineageMode : Replay.AdapterReplayBoundaryMode) : PopulationPlan :=
  { executionId := executionId
    roots := (plan.rebuildSubtrees.filter (·.replayRequired)).map fun subtree =>
      { rootKey := subtree.rootKey
        affectedKeys := subtree.affectedKeys
        upstreamBoundaryKey := subtree.upstreamBoundaryKey
        replayLineageMode := replayLineageMode
        executionMode := subtree.executionMode
        forcedStartTime := subtree.forcedStartTime
        executionLookbackSeconds := subtree.executionLookbackSeconds
        persistWatermarks := true }
    objects := plan.preparedShadowObjects.map fun prepared =>
      { logicalKey := prepared.logicalKey, physicalName := prepared.physicalName } }

inductive PopulationError
  | keyError (name : String)
  | stopIteration
  deriving DecidableEq, Repr

def tableKeyByName (D : DesiredState) (name : String) : Option ObjectKey :=
  (D.tables.find? fun table => table.name = name).map fun table => ⟨.table, table.name⟩

section

variable (D : DesiredState) (plan : PopulationPlan)

/-- The side references of a view that reads `sourceKey` and writes `targetKey`. -/
def sideKeys (view : DesiredMaterializedView) (sourceKey targetKey : ObjectKey) : List ObjectKey :=
  view.deps.filter fun key => key ≠ sourceKey ∧ key ≠ targetKey

/-- The catch-up root of a view whose target `owner` affects. -/
def catchUpRoot (owner : PopulationRoot) (view : DesiredMaterializedView)
    (sourceKey targetKey : ObjectKey) : PopulationRoot :=
  { owner with
    rootKey := targetKey
    affectedKeys := [targetKey, ⟨.materializedView, view.name⟩]
    upstreamBoundaryKey := sourceKey
    persistWatermarks := false }

/-- The part of `expand_fan_in_roots` for one planned view. -/
def expandView (roots : List PopulationRoot) (view : DesiredMaterializedView) :
    Except PopulationError (List PopulationRoot) :=
  match tableKeyByName D view.spec.targetTableName with
  | none => .error (.keyError view.spec.targetTableName)
  | some targetKey =>
    match tableKeyByName D view.spec.sourceTableName with
    | none => .ok roots
    | some sourceKey =>
      if targetKey ∉ roots.map (·.rootKey) ∧
          (sideKeys view sourceKey targetKey).any (· ∈ plan.plannedKeys) then
        match plan.roots.find? fun root => targetKey ∈ root.affectedKeys with
        | none => .error .stopIteration
        | some owner => .ok (roots ++ [catchUpRoot owner view sourceKey targetKey])
      else .ok roots

def expandFanInRoots : Except PopulationError PopulationPlan := do
  let views := D.materializedViews.filter fun view =>
    (⟨.materializedView, view.name⟩ : ObjectKey) ∈ plan.plannedKeys
  let roots ← views.foldlM (expandView D plan) plan.roots
  return { plan with roots := roots }

end

theorem tableKeyByName_eq_some {D : DesiredState} {name : String} {key : ObjectKey}
    (h : tableKeyByName D name = some key) :
    key = ⟨.table, name⟩ ∧ ∃ table ∈ D.tables, table.name = name := by
  obtain ⟨table, hfound, rfl⟩ := Option.map_eq_some_iff.mp h
  have hname : table.name = name := by simpa using List.find?_some hfound
  exact ⟨by rw [hname], table, List.mem_of_find?_eq_some hfound, hname⟩

/-- Expanding by one view leaves the roots as they are, or adds one for a new target. -/
theorem expandView_cases {D : DesiredState} {plan : PopulationPlan}
    {roots roots' : List PopulationRoot}
    {view : DesiredMaterializedView} (h : expandView D plan roots view = .ok roots') :
    roots' = roots ∨ ∃ owner sourceKey targetKey,
      tableKeyByName D view.spec.sourceTableName = some sourceKey ∧
      tableKeyByName D view.spec.targetTableName = some targetKey ∧
      targetKey ∉ roots.map (·.rootKey) ∧
      roots' = roots ++ [catchUpRoot owner view sourceKey targetKey] := by
  unfold expandView at h
  cases htarget : tableKeyByName D view.spec.targetTableName with
  | none => simp [htarget] at h
  | some targetKey =>
    cases hsource : tableKeyByName D view.spec.sourceTableName with
    | none =>
      simp only [htarget, hsource, Except.ok.injEq] at h
      exact .inl h.symm
    | some sourceKey =>
      simp only [htarget, hsource] at h
      split_ifs at h with hfan
      · cases howner : plan.roots.find? fun root => targetKey ∈ root.affectedKeys with
        | none => simp [howner] at h
        | some owner =>
          simp only [howner, Except.ok.injEq] at h
          exact .inr ⟨owner, sourceKey, targetKey, rfl, rfl, hfan.1, h.symm⟩
      · exact .inl (Except.ok.inj h).symm

/-- A view of the desired state that realizes a model is its materialized view. -/
theorem exists_model_of_view {P : RealizedProject} {view : DesiredMaterializedView}
    (hview : view ∈ P.desiredState.materializedViews)
    (hmodel : P.ModelRelation ⟨.materializedView, view.name⟩) :
    ∃ m ∈ P.tableModels, view = P.modelView m := by
  obtain ⟨object, hobject, hsome⟩ := List.mem_filterMap.mp hview
  obtain rfl : object = .materializedView view := by
    cases object <;> simp_all [DesiredObject.asMaterializedView]
  rcases hmodel with ⟨m, hm, heq | heq⟩ | ⟨v, -, heq⟩
  · cases heq
  · refine ⟨m, hm, ?_⟩
    have hother := RealizedProject.mem_objects.mpr (.inr (.inl ⟨m, hm, .inr rfl⟩))
    exact DesiredObject.materializedView.inj (RealizedProject.object_unique hobject hother heq)
  · cases heq

/-- What is created for a planned object. A query is listed by the relations that its database
template names. -/
inductive AdapterResource
  | table (name : String) (spec : TableSpec)
  | materializedView (name sourceRelationName targetRelationName : String) (template : List String)
  | view (name : String) (template : List String)
  deriving DecidableEq, Repr

namespace AdapterResource

def key : AdapterResource → ObjectKey
  | .table name _ => ⟨.table, name⟩
  | .materializedView name _ _ _ => ⟨.materializedView, name⟩
  | .view name _ => ⟨.view, name⟩

/-- The relations that must be there before the resource is created. -/
def relations : AdapterResource → List String
  | .table _ _ => []
  | .materializedView _ source target template => source :: target :: template
  | .view _ template => template

end AdapterResource

/-- The relations of a database template, as the references of a query resolve to them. -/
def databaseTemplate (P : RealizedProject) (parsedRefs : List String) : List String :=
  (parsedRefs.filterMap P.relationKeyByName).map (·.name)

/-- The template of the named model. -/
def modelTemplate (P : RealizedProject) (name : String) : List String :=
  match P.tableModels.find? fun m => m.name = name with
  | some m => databaseTemplate P m.parsedRefs
  | none =>
    ((P.viewModels.find? fun v => v.name = name).map fun v =>
      databaseTemplate P v.parsedRefs).getD []

section

variable (objects : List PopulationObject)

/-- `physical_name_by_key`, for the keys of tables. -/
def tableRewrites : List (String × String) :=
  (objects.filter fun object => object.logicalKey.objectType = .table).map fun object =>
    (object.logicalKey.name, object.physicalName)

def physicalTableName (logicalName : String) : String :=
  (((tableRewrites objects).find? fun rewrite => rewrite.1 = logicalName).map (·.2)).getD
    logicalName

/-- `rewrite_template_relations`: one rewrite after the other over the whole template. -/
def rewriteShadowTemplate (template : List String) : List String :=
  (tableRewrites objects).foldl
    (fun template rewrite => template.map fun name =>
      if name = rewrite.1 then rewrite.2 else name) template

def buildShadowAdapterResource (P : RealizedProject) (physicalName : String) :
    DesiredObject → Option AdapterResource
  | .kafkaTable _ => none
  | .table t => some (.table physicalName t.spec)
  | .materializedView v => some (.materializedView physicalName
      (physicalTableName objects v.spec.sourceTableName)
      (physicalTableName objects v.spec.targetTableName)
      (rewriteShadowTemplate objects (modelTemplate P v.logicalModelName)))
  | .view v => some (.view physicalName
      (rewriteShadowTemplate objects (modelTemplate P v.logicalModelName)))

def orderedCreationKeys (D : DesiredState) : List ObjectKey :=
  let planned := objects.map (·.logicalKey)
  TopologicalOrder.postorder planned D.depsOf planned.length D.keys

def physicalName (key : ObjectKey) : String :=
  ((objects.find? fun object => object.logicalKey = key).map (·.physicalName)).getD ""

def planPopulationObjects (P : RealizedProject) : List AdapterResource :=
  (orderedCreationKeys objects P.desiredState).filterMap fun key =>
    (P.desiredState.objectByKey key).bind
      (buildShadowAdapterResource objects P (physicalName objects key))

end

end SqlTide.Population
