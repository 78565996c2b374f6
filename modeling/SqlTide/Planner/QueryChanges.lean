import SqlTide.Planner.DeploymentPlan

/-!
# Plans for changed queries

A deployment plan should prepare a model whose query changed, and everything that reads it. A
changed query changes the materialized view of the model and not its table; so the plan does
this just where a changed table drives each of these models.
-/

namespace SqlTide.Planner

open Foundations Compiler RealizedProject

/-- The actual materialized view of the model has another query, by the planner's comparison. -/
def QueryDiffers (A : SqlAnalyzer) (S : ActualState) (m : RealizedTableModel) : Prop :=
  ∃ view, S.objectByKey m.viewKey = some (.materializedView view) ∧
    queriesEqual A m.query view.spec.query = false

def preparedKeys (plan : DeploymentPlan) : List ObjectKey :=
  plan.preparedShadowObjects.map (·.logicalKey)

/-- The plan prepares the relations of a model with a changed query and of all its readers, and
the replayed roots are tables that a materialized view fills. -/
structure CoversQueryChanges (A : SqlAnalyzer) (P : RealizedProject) (S : ActualState)
    (plan : DeploymentPlan) : Prop where
  prepared : ∀ m ∈ P.tableModels, QueryDiffers A S m → ∀ x, P.Reads x m.name →
    ∀ key ∈ P.relationKeys x, key ∈ preparedKeys plan
  roots : ∀ subtree ∈ plan.rebuildSubtrees, subtree.replayRequired = true →
    ∃ table ∈ P.desiredState.tables, subtree.rootKey = ⟨.table, table.name⟩ ∧
      ∃ view ∈ P.desiredState.materializedViews, view.spec.targetTableName = table.name

/-- A changed table drives the table of the model; a view changed or reads what a changed table
drives. -/
def ModelTouched (P : RealizedProject) (changes : List PlannedObjectChange) (x : String) : Prop :=
  (∀ m ∈ P.tableModels, m.name = x → Touched P changes m.tableKey) ∧
    ∀ v ∈ P.viewModels, v.name = x → TouchedView P changes v.viewKey

/-- Changed tables drive every model with a changed query and its readers, and drive something
that each changed materialized view reads. -/
structure TablesFollowQueries (A : SqlAnalyzer) (P : RealizedProject) (S : ActualState)
    (changes : List PlannedObjectChange) : Prop where
  readers : ∀ m ∈ P.tableModels, QueryDiffers A S m → ∀ x, P.Reads x m.name →
    ModelTouched P changes x
  views : ∀ m ∈ P.tableModels, Changed changes m.viewKey →
    ∃ d, P.desiredState.DependsOn m.viewKey d ∧ Touched P changes d

section

variable {A : SqlAnalyzer} {P : RealizedProject} {S : ActualState} {options : PlanningOptions}
  {changes : List PlannedObjectChange} {retained : List RebuildSubtree}

theorem mem_preparedKeys {plan : DeploymentPlan} {deploymentId : String} {k : ObjectKey}
    (h : plan.preparedShadowObjects =
      buildPreparedShadowObjects P.desiredState plan.rebuildSubtrees (some deploymentId)) :
    k ∈ preparedKeys plan ↔ ∃ subtree ∈ plan.rebuildSubtrees, k ∈ subtree.affectedKeys := by
  simp [preparedKeys, h, buildPreparedShadowObjects, Function.comp_def, List.mem_eraseDups]

theorem exists_plan (hchanges : classifyObjectChanges A options S P.desiredState = .ok changes)
    (deploymentId : String) :
    ∃ plan, buildDeploymentPlan A P.desiredState S (some deploymentId) options = .ok plan ∧
      plan.objectChanges = changes ∧ RetainedSubtrees P changes plan.rebuildSubtrees ∧
      plan.preparedShadowObjects =
        buildPreparedShadowObjects P.desiredState plan.rebuildSubtrees (some deploymentId) := by
  obtain ⟨retained, hretained, hsubtrees⟩ := exists_retainedSubtrees (classified_known hchanges)
  refine ⟨{
    deploymentId := some deploymentId
    objectChanges := changes
    rebuildSubtrees := retained
    preparedShadowObjects :=
      buildPreparedShadowObjects P.desiredState retained (some deploymentId) }, ?_, rfl,
    hsubtrees, rfl⟩
  rw [buildDeploymentPlan, hchanges]
  simp only [bind, Except.bind, hretained, pure, Except.pure]

theorem RetainedSubtrees.relations_affected (h : RetainedSubtrees P changes retained) {x : String} :
    (∀ key ∈ P.relationKeys x, ∃ subtree ∈ retained, key ∈ subtree.affectedKeys) ↔
      ModelTouched P changes x := by
  constructor
  · intro hall
    refine ⟨fun m hm hname => ?_, fun v hv hname => ?_⟩
    · exact h.exists_affected_table.mp
        (hall _ (mem_relationKeys.mpr (.inl ⟨m, hm, hname, .inl rfl⟩)))
    · exact (h.exists_affected_view (.inr ⟨v, hv, rfl⟩) (by simp [RealizedViewModel.viewKey])).mp
        (hall _ (mem_relationKeys.mpr (.inr ⟨v, hv, hname, rfl⟩)))
  · rintro ⟨htables, hviews⟩ key hkey
    rcases mem_relationKeys.mp hkey with ⟨m, hm, hname, rfl | rfl⟩ | ⟨v, hv, hname, rfl⟩
    · exact h.exists_affected_table.mpr (htables m hm hname)
    · refine (h.exists_affected_view (.inl ⟨m, hm, .inr rfl⟩)
        (by simp [RealizedTableModel.viewKey])).mpr (.inr ⟨m.tableKey, ?_, htables m hm hname⟩)
      exact viewOfModel_dependsOn hm (.inr rfl)
    · exact (h.exists_affected_view (.inr ⟨v, hv, rfl⟩)
        (by simp [RealizedViewModel.viewKey])).mpr (hviews v hv hname)

theorem mem_tables {m : RealizedTableModel} (hm : m ∈ P.tableModels) :
    P.modelTable m ∈ P.desiredState.tables :=
  List.mem_filterMap.mpr ⟨.table (P.modelTable m),
    mem_objects.mpr (.inr (.inl ⟨m, hm, .inl rfl⟩)), rfl⟩

theorem mem_materializedViews {m : RealizedTableModel} (hm : m ∈ P.tableModels) :
    P.modelView m ∈ P.desiredState.materializedViews :=
  List.mem_filterMap.mpr ⟨.materializedView (P.modelView m),
    mem_objects.mpr (.inr (.inl ⟨m, hm, .inr rfl⟩)), rfl⟩

/-- The replayed roots are filled tables just if no view of a model is a root. -/
theorem RetainedSubtrees.roots_filled_iff (h : RetainedSubtrees P changes retained) :
    (∀ subtree ∈ retained, subtree.replayRequired = true →
      ∃ table ∈ P.desiredState.tables, subtree.rootKey = ⟨.table, table.name⟩ ∧
        ∃ view ∈ P.desiredState.materializedViews, view.spec.targetTableName = table.name) ↔
      ∀ m ∈ P.tableModels, Changed changes m.viewKey →
        ∃ d, P.desiredState.DependsOn m.viewKey d ∧ Touched P changes d := by
  constructor
  · intro hroots m hm hchanged
    by_contra hnone
    obtain ⟨subtree, hsubtree, hroot⟩ := (h.exists_viewRoot hm).mpr ⟨hchanged, hnone⟩
    have hrequired : subtree.replayRequired = true := by
      rw [(h.subtree subtree hsubtree).required, hroot]
      simp [RealizedTableModel.viewKey]
    obtain ⟨table, -, heq, -⟩ := hroots subtree hsubtree hrequired
    rw [hroot] at heq
    cases heq
  · intro hviews subtree hsubtree hrequired
    have hof := h.subtree subtree hsubtree
    rcases hof.model with ⟨m, hm, hroot | hroot⟩ | ⟨v, hv, hroot⟩
    · exact ⟨P.modelTable m, mem_tables hm, hroot, P.modelView m, mem_materializedViews hm, rfl⟩
    · have hviewRoot := (h.exists_viewRoot hm).mp ⟨subtree, hsubtree, hroot⟩
      exact absurd (hviews m hm hviewRoot.1) hviewRoot.2
    · rw [hof.required, hroot] at hrequired
      exact absurd rfl hrequired

end

/-- Planning covers the changed queries just if changed tables drive every model with a changed
query and its readers, and something that each changed materialized view reads. -/
theorem coversQueryChanges_iff (A : SqlAnalyzer) (P : RealizedProject) (S : ActualState)
    (deploymentId : String) (options : PlanningOptions) {changes : List PlannedObjectChange}
    (hchanges : classifyObjectChanges A options S P.desiredState = .ok changes) :
    ∃ plan, buildDeploymentPlan A P.desiredState S (some deploymentId) options = .ok plan ∧
      (CoversQueryChanges A P S plan ↔ TablesFollowQueries A P S changes) := by
  obtain ⟨plan, hplan, -, hretained, hprepared⟩ := exists_plan hchanges deploymentId
  refine ⟨plan, hplan, ?_, ?_⟩
  · intro h
    refine ⟨fun m hm hdiffers x hreads => ?_, hretained.roots_filled_iff.mp h.roots⟩
    refine hretained.relations_affected.mp fun key hkey => ?_
    exact (mem_preparedKeys hprepared).mp (h.prepared m hm hdiffers x hreads key hkey)
  · intro h
    refine ⟨fun m hm hdiffers x hreads key hkey => ?_, hretained.roots_filled_iff.mpr h.views⟩
    exact (mem_preparedKeys hprepared).mpr
      (hretained.relations_affected.mpr (h.readers m hm hdiffers x hreads) key hkey)

/-- Text is its own canonical form. -/
def plainAnalyzer : SqlAnalyzer where
  canonicalizeSql := some
  normalizeDataType := some

def changedView : ActualObject :=
  .materializedView
    { name := "mv__alpha"
      spec :=
        { sourceTableName := "orders_input"
          targetTableName := "tbl__alpha"
          query := "SELECT 1" } }

/-- The actual object that agrees with a desired one. -/
def deployed : DesiredObject → ActualObject
  | .kafkaTable t => .kafkaTable { name := t.name, spec := t.spec }
  | .table t => .table { name := t.name, spec := t.spec }
  | .materializedView v => .materializedView { name := v.name, spec := v.spec }
  | .view v => .view { name := v.name, spec := v.spec }

/-- Only the view of the first model is there, with another query. -/
def viewOnlyState : ActualState := ⟨[changedView]⟩

/-- Everything is deployed as desired, up to the query of the first model. -/
def changedQueryState : ActualState :=
  ⟨fanInProject.desiredState.objects.map deployed ++ [changedView]⟩

/-- Where the tables are to be created, the plan covers the changed query. -/
theorem coversQueryChanges_created :
    ∃ plan, buildDeploymentPlan plainAnalyzer fanInProject.desiredState viewOnlyState
        (some "dep_1") {} = .ok plan ∧
      CoversQueryChanges plainAnalyzer fanInProject viewOnlyState plan := by
  have hok : (classifyObjectChanges plainAnalyzer {} viewOnlyState
      fanInProject.desiredState).isOk = true := by decide +kernel
  obtain ⟨changes, hchanges⟩ : ∃ changes,
      classifyObjectChanges plainAnalyzer {} viewOnlyState fanInProject.desiredState =
        .ok changes := by
    cases h : classifyObjectChanges plainAnalyzer {} viewOnlyState fanInProject.desiredState with
    | ok changes => exact ⟨changes, rfl⟩
    | error e =>
      rw [h] at hok
      cases hok
  have htouched : ∀ m ∈ fanInProject.tableModels, Touched fanInProject changes m.tableKey := by
    intro m hm
    refine ⟨m, hm, ?_, .refl⟩
    have hnone : viewOnlyState.objectByKey m.tableKey = none := by
      revert m
      decide
    exact changed_of_absent hchanges (tableKey_mem_keys hm) hnone
  obtain ⟨plan, hplan, hiff⟩ := coversQueryChanges_iff plainAnalyzer fanInProject viewOnlyState
    "dep_1" {} hchanges
  refine ⟨plan, hplan, hiff.mpr ⟨?_, ?_⟩⟩
  · intro m _ _ x _
    refine ⟨fun m' hm' _ => htouched m' hm', ?_⟩
    intro v hv
    exact absurd hv (by simp [fanInProject])
  · intro m hm _
    exact ⟨m.tableKey, viewOfModel_dependsOn hm (.inr rfl), htouched m hm⟩

/-- Where only the query changed, the plan prepares the materialized view and not its table. -/
theorem not_coversQueryChanges :
    ¬ ∀ (A : SqlAnalyzer) (P : RealizedProject) (S : ActualState) (deploymentId : String)
      (options : PlanningOptions) (plan : DeploymentPlan),
      buildDeploymentPlan A P.desiredState S (some deploymentId) options = .ok plan →
        CoversQueryChanges A P S plan := by
  intro hall
  have hkeys : ((buildDeploymentPlan plainAnalyzer fanInProject.desiredState changedQueryState
      (some "dep_1") {}).map preparedKeys).toOption =
        some [⟨.materializedView, "mv__alpha"⟩] := by decide +kernel
  cases hplan : buildDeploymentPlan plainAnalyzer fanInProject.desiredState changedQueryState
      (some "dep_1") {} with
  | error e =>
    rw [hplan] at hkeys
    cases hkeys
  | ok plan =>
    rw [hplan] at hkeys
    have hprepared : preparedKeys plan = [⟨.materializedView, "mv__alpha"⟩] := Option.some.inj hkeys
    have h := hall plainAnalyzer fanInProject changedQueryState "dep_1" {} plan hplan
    have hdiffers :
      QueryDiffers plainAnalyzer changedQueryState (plainModel "alpha" "orders" []) := by
      refine ⟨{
        name := "mv__alpha"
        spec :=
          { sourceTableName := "orders_input"
            targetTableName := "tbl__alpha"
            query := "SELECT 1" } }, by decide +kernel, by decide +kernel⟩
    have hmem := h.prepared _ (by decide) hdiffers "alpha" .refl ⟨.table, "tbl__alpha"⟩ (by decide)
    rw [hprepared] at hmem
    exact absurd hmem (by decide)

end SqlTide.Planner
