import SqlTide.Foundations.Cascade
import SqlTide.Population.DirectPlan

/-!
# Direct rebuilds

The planned tables start empty, the materialized views are attached, and the roots of the
expanded plan are replayed in their order: the captured rows of the anchor go through the
transformation of the root, and what comes out goes on along the views. A row should reach each
transformation once. A catch-up root delivers the rows of a rebuilt table again, after the views
have delivered them; so this holds just where the catch-up roots find nothing to capture.
-/

namespace SqlTide.Population

open Compiler Foundations List Planner RealizedProject

section

variable {ρ : Type} (P : RealizedProject) (plan : PopulationPlan)

/-- What the query of a model makes of a block, by the tables as they are. -/
abbrev Transforms (ρ : Type) := String → (ObjectKey → List ρ) → List ρ → List ρ

/-- The materialized view of a model as what is inserted runs through it. -/
def attachedView (transforms : Transforms ρ) (m : RealizedTableModel) :
    Cascade.View ObjectKey ρ :=
  { source := drivingKey P m, target := m.tableKey, transform := transforms m.name }

/-- The replay request of a root, with the view found by its target. -/
def rootReplay (transforms : Transforms ρ) (captures : PopulationRoot → ρ → Bool)
    (root : PopulationRoot) : Option (Cascade.Replay ObjectKey ρ) :=
  (P.tableModels.find? fun m => m.tableKey = root.rootKey).map fun m =>
    { view :=
        { source := root.upstreamBoundaryKey
          target := root.rootKey
          transform := transforms m.name }
      captures := captures root }

/-- The store after the teardown: planned tables are empty, nothing has been delivered. -/
def recreated (contents : ObjectKey → List ρ) : Cascade.Store ObjectKey ρ :=
  { contents := fun key => if key ∈ plan.plannedKeys then [] else contents key
    delivered := fun _ => [] }

/-- More than the longest chain of views. -/
def cascadeDepth : ℕ := P.orderedNames.length + 3

variable (transforms : Transforms ρ) (captures : PopulationRoot → ρ → Bool)
  (attached : List RealizedTableModel) (contents : ObjectKey → List ρ)

/-- The replays of the plan, each with the store that it meets. -/
def rebuildSteps : List (Cascade.Store ObjectKey ρ × Cascade.Replay ObjectKey ρ) :=
  Cascade.replaySteps (attached.map (attachedView P transforms)) (cascadeDepth P)
    (recreated plan contents) (plan.roots.filterMap (rootReplay P transforms captures))

/-- The store at the end of the replays. -/
def rebuild : Cascade.Store ObjectKey ρ :=
  Cascade.runReplays (attached.map (attachedView P transforms)) (cascadeDepth P)
    (recreated plan contents) (plan.roots.filterMap (rootReplay P transforms captures))

/-- Every row of its driving input was delivered once to the transformation of each planned
table. -/
def DeliversOnce (store : Cascade.Store ObjectKey ρ) : Prop :=
  ∀ m ∈ P.tableModels, m.tableKey ∈ plan.plannedKeys →
    (store.delivered m.tableKey).Perm (store.contents (drivingKey P m))

/-- A replay from a table that is kept captures all its rows, one from a rebuilt table none. -/
def ReplaysOnlyKept (step : Cascade.Store ObjectKey ρ × Cascade.Replay ObjectKey ρ) : Prop :=
  step.2.captured step.1 =
    if step.2.view.source ∈ plan.plannedKeys then [] else step.1.contents step.2.view.source

/-- What the steps replay for the model: nothing from a rebuilt input, and a kept input once. -/
def ReplayedFor (steps : List (Cascade.Store ObjectKey ρ × Cascade.Replay ObjectKey ρ))
    (m : RealizedTableModel) : Prop :=
  if drivingKey P m ∈ plan.plannedKeys then Cascade.replayed steps m.tableKey = []
  else (Cascade.replayed steps m.tableKey).Perm (contents (drivingKey P m))

/-- Sources that the warehouse refreshes itself hold nothing for the planned tables. -/
def PostgresInputsEmpty : Prop :=
  ∀ m ∈ P.tableModels, m.tableKey ∈ plan.plannedKeys → isPostgresDriven P m = true →
    contents (drivingKey P m) = []

end

section

variable {P : RealizedProject} {scope : DirectScope} {plan : PopulationPlan}

/-- The root replays a planned model from its driving input. -/
def RootOf (P : RealizedProject) (scope : DirectScope) (root : PopulationRoot) : Prop :=
  ∃ m ∈ scopeModels P scope, root.rootKey = m.tableKey ∧
    root.upstreamBoundaryKey = drivingKey P m ∧ isPostgresDriven P m = false

/-- The plan roots come first, no target has two roots, and every root replays a planned model
from its driving input. -/
structure Expanded (P : RealizedProject) (scope : DirectScope) (roots : List PopulationRoot) :
    Prop where
  starts : ∀ root ∈ (directPopulationPlan P scope).roots, root ∈ roots
  nodup : (roots.map (·.rootKey)).Nodup
  root : ∀ root ∈ roots, RootOf P scope root

theorem expanded_directPopulationPlan : Expanded P scope (directPopulationPlan P scope).roots := by
  refine ⟨fun _ h => h, ?_, ?_⟩
  · have hkeys : (directPopulationPlan P scope).roots.map (·.rootKey) =
        (directReplayRoots P scope).map (·.tableKey) := by
      simp only [directPopulationPlan, map_map]
      rfl
    rw [hkeys]
    refine (nodup_scopeModels.filter _).map_on ?_
    intro m hm m' hm' heq
    exact tableKey_unique (mem_scopeModels.mp (mem_filter.mp hm).1).1
      (mem_scopeModels.mp (mem_filter.mp hm').1).1 heq
  · intro root hroot
    obtain ⟨m, hm, rfl⟩ := mem_map.mp hroot
    obtain ⟨hscope, -, hpostgres⟩ := mem_directReplayRoots.mp hm
    exact ⟨m, hscope, rfl, rfl, hpostgres⟩

theorem modelRelation_of_planned {key : ObjectKey}
    (h : key ∈ (directPopulationPlan P scope).plannedKeys) : P.ModelRelation key := by
  rw [plannedKeys_directPopulationPlan, mem_flatMap] at h
  obtain ⟨name, -, hkey⟩ := h
  rcases mem_relationKeys.mp hkey with ⟨m, hm, -, heq⟩ | ⟨v, hv, -, heq⟩
  · exact .inl ⟨m, hm, heq⟩
  · exact .inr ⟨v, hv, heq⟩

theorem isPostgresDriven_eq_false {m : RealizedTableModel} {table : DesiredTable}
    (htable : table ∈ P.desiredState.tables) (hname : table.name = P.sourceRelationName m) :
    isPostgresDriven P m = false := by
  by_contra hpostgres
  simp only [Bool.not_eq_false, isPostgresDriven, any_eq_true, Bool.and_eq_true,
    decide_eq_true_eq] at hpostgres
  obtain ⟨s, hs, hsource, hrefresh⟩ := hpostgres
  have hadopted : s.adopted = true := by
    unfold isPostgresRefresh at hrefresh
    unfold RealizedSource.adopted
    cases h : s.source <;> simp_all
  have hrelation : P.sourceRelationName m = s.relationName := by
    simp [sourceRelationName, ← hsource,
      RealizedProject.relationKeyByName_source hs, RealizedSource.relationKey]
  obtain ⟨hmodels, hmanaged⟩ := P.adopted_free s hs hadopted
  obtain ⟨object, hobject, hsome⟩ := mem_filterMap.mp htable
  obtain rfl : object = .table table := by
    cases object <;> simp_all [DesiredObject.asTable]
  rcases mem_objects.mp hobject with ⟨s', hs', hlanding⟩ | ⟨m', hm', heq | heq⟩ | ⟨v, -, heq⟩
  · have hkey := mem_keys_desiredObjects (mem_map_of_mem hlanding)
    obtain ⟨hlanded, hkey⟩ := hkey
    have hraw : table.name = rawTableName s'.name := by simpa [DesiredObject.key] using hkey
    have hown : s'.relationName = rawTableName s'.name := by
      unfold RealizedSource.adopted at hlanded
      unfold RealizedSource.relationName
      cases h : s'.source <;> simp_all
    exact hmanaged s' hs' hlanded (by rw [← hrelation, ← hname, hraw, hown])
  · obtain rfl := DesiredObject.table.inj heq
    exact hmodels m' hm' (hrelation.symm.trans hname.symm)
  · cases heq
  · cases heq

theorem Expanded.expandView {roots roots' : List PopulationRoot} {view : DesiredMaterializedView}
    (h : Expanded P scope roots) (hview : view ∈ P.desiredState.materializedViews)
    (hplanned : (⟨.materializedView, view.name⟩ : ObjectKey) ∈
      (directPopulationPlan P scope).plannedKeys)
    (hstep : expandView P.desiredState (directPopulationPlan P scope) roots view = .ok roots') :
    Expanded P scope roots' := by
  rcases expandView_cases hstep with rfl | ⟨owner, sourceKey, targetKey, hsource, htarget, hnew,
    rfl⟩
  · exact h
  · obtain ⟨m, hm, rfl⟩ := exists_model_of_view hview (modelRelation_of_planned hplanned)
    obtain ⟨hsourceKey, table, htable, hname⟩ := tableKeyByName_eq_some hsource
    obtain ⟨htargetKey, -⟩ := tableKeyByName_eq_some htarget
    have hscope : m ∈ scopeModels P scope := (viewKey_mem_plannedKeys hm).mp hplanned
    refine ⟨fun root hroot => mem_append_left _ (h.starts root hroot), ?_, ?_⟩
    · rw [map_append, map_cons, map_nil]
      exact nodup_append.mpr ⟨h.nodup, by simp, by
        intro key hkey other hother
        obtain rfl := mem_singleton.mp hother
        rintro rfl
        exact hnew hkey⟩
    · intro root hroot
      rcases mem_append.mp hroot with hroot | hroot
      · exact h.root root hroot
      · obtain rfl := mem_singleton.mp hroot
        exact ⟨m, hscope, htargetKey, hsourceKey, isPostgresDriven_eq_false htable hname⟩

theorem expanded_of_expandFanInRoots
    (hplan : expandFanInRoots P.desiredState (directPopulationPlan P scope) = .ok plan) :
    Expanded P scope plan.roots ∧
      plan.plannedKeys = (directPopulationPlan P scope).plannedKeys := by
  unfold expandFanInRoots at hplan
  simp only [bind_eq_ok, pure, Except.pure, Except.ok.injEq] at hplan
  obtain ⟨roots, hroots, rfl⟩ := hplan
  refine ⟨?_, rfl⟩
  refine foldlM_invariant (I := Expanded P scope) ?_ expanded_directPopulationPlan hroots
  intro view hview roots roots' hstep hexpanded
  obtain ⟨hmem, hplanned⟩ := mem_filter.mp hview
  exact hexpanded.expandView hmem (by simpa using hplanned) hstep

end

section

variable {ρ : Type} {P : RealizedProject} {scope : DirectScope} {plan : PopulationPlan}
  {transforms : Transforms ρ} {captures : PopulationRoot → ρ → Bool}
  {attached : List RealizedTableModel}

variable {m : RealizedTableModel} {roots : List PopulationRoot}
  {step : Cascade.Store ObjectKey ρ × Cascade.Replay ObjectKey ρ}

theorem keyRank_drivingKey (hm : m ∈ P.tableModels) :
    P.keyRank (drivingKey P m) < P.keyRank m.tableKey :=
  keyRank_lt
    (tableModel_dependsOn hm (relationKeyByName_source hm))

theorem keyRank_lt_cascadeDepth (key : ObjectKey) : P.keyRank key ≤ P.orderedNames.length + 2 := by
  obtain ⟨type, name⟩ := key
  cases type with
  | kafkaTable => exact Nat.zero_le _
  | table => exact (keyRank_le_of_table (.inl rfl)).trans (by omega)
  | materializedView => exact le_rfl
  | view => exact le_rfl

theorem layered_attached (hattached : attached.Perm (scopeModels P scope)) :
    Cascade.Layered (attached.map (attachedView P transforms)) P.keyRank := by
  have hmodel : ∀ m ∈ attached, m ∈ P.tableModels := by
    intro m hm
    exact (mem_scopeModels.mp (hattached.mem_iff.mp hm)).1
  constructor
  · intro view hview
    obtain ⟨m, hm, rfl⟩ := mem_map.mp hview
    exact keyRank_drivingKey (hmodel m hm)
  · rw [map_map]
    refine (hattached.nodup_iff.mpr nodup_scopeModels).map_on ?_
    intro m hm m' hm' heq
    exact tableKey_unique (hmodel m hm) (hmodel m' hm') heq

theorem rootReplay_eq {root : PopulationRoot} (hm : m ∈ scopeModels P scope)
    (hkey : root.rootKey = m.tableKey) (hanchor : root.upstreamBoundaryKey = drivingKey P m) :
    rootReplay P transforms captures root =
      some { view := attachedView P transforms m, captures := captures root } := by
  have hmodel := (mem_scopeModels.mp hm).1
  obtain ⟨found, hfound⟩ : ∃ found,
      P.tableModels.find? (fun m' => m'.tableKey = root.rootKey) = some found :=
    Option.isSome_iff_exists.mp (find?_isSome.mpr ⟨m, hmodel, by simp [hkey]⟩)
  have hfoundKey : found.tableKey = m.tableKey := by
    rw [← hkey]
    simpa using find?_some hfound
  obtain rfl := tableKey_unique (mem_of_find?_eq_some hfound) hmodel hfoundKey
  unfold rootReplay
  rw [hfound, Option.map_some, hanchor, hkey]
  rfl

theorem Expanded.targets_eq (hroot : ∀ root ∈ roots, RootOf P scope root) :
    (roots.filterMap (rootReplay P transforms captures)).map (·.view.target) =
      roots.map (·.rootKey) := by
  induction roots with
  | nil => rfl
  | cons root roots ih =>
    obtain ⟨m, hm, hkey, hanchor, -⟩ := hroot root (by simp)
    rw [filterMap_cons_some (rootReplay_eq hm hkey hanchor), map_cons, map_cons,
      ih fun other hother => hroot other (mem_cons_of_mem _ hother), hkey]
    rfl

/-- A replay of the plan goes through the attached view of a planned model that no Postgres
source drives. -/
theorem Expanded.replay_cases (h : Expanded P scope roots) {replay : Cascade.Replay ObjectKey ρ}
    (hreplay : replay ∈ roots.filterMap (rootReplay P transforms captures)) :
    ∃ m ∈ scopeModels P scope, replay.view = attachedView P transforms m ∧
      isPostgresDriven P m = false := by
  obtain ⟨root, hroot, heq⟩ := mem_filterMap.mp hreplay
  obtain ⟨m, hm, hkey, hanchor, hpostgres⟩ := h.root root hroot
  rw [rootReplay_eq hm hkey hanchor] at heq
  exact ⟨m, hm, by rw [← Option.some.inj heq], hpostgres⟩

/-- The driving input of a planned model is planned just if an attached view writes to it. -/
theorem drivingKey_planned_iff (hattached : attached.Perm (scopeModels P scope)) :
    drivingKey P m ∈ (directPopulationPlan P scope).plannedKeys ↔
      drivingKey P m ∈ (attached.map (attachedView P transforms)).map (·.target) := by
  have htargets : (attached.map (attachedView P transforms)).map (·.target) =
      attached.map (·.tableKey) := by
    rw [map_map]
    rfl
  rw [htargets]
  constructor
  · intro hplanned
    rcases modelRelation_of_planned hplanned with ⟨m', hm', heq | heq⟩ | ⟨v, -, heq⟩
    · rw [heq, tableKey_mem_plannedKeys hm'] at hplanned
      exact mem_map.mpr ⟨m', hattached.mem_iff.mpr hplanned, heq.symm⟩
    · cases heq
    · cases heq
  · intro hmem
    obtain ⟨m', hm', heq⟩ := mem_map.mp hmem
    have hscope := hattached.mem_iff.mp hm'
    rw [← heq]
    exact (tableKey_mem_plannedKeys (mem_scopeModels.mp hscope).1).mpr hscope

theorem Expanded.views_attached (h : Expanded P scope roots)
    (hattached : attached.Perm (scopeModels P scope)) :
    ∀ replay ∈ roots.filterMap (rootReplay P transforms captures),
      replay.view ∈ attached.map (attachedView P transforms) := by
  intro replay hreplay
  obtain ⟨m, hm, heq, -⟩ := h.replay_cases hreplay
  rw [heq]
  exact mem_map_of_mem (hattached.mem_iff.mpr hm)

theorem map_snd_rebuildSteps (contents : ObjectKey → List ρ) :
    (rebuildSteps P plan transforms captures attached contents).map (·.2) =
      plan.roots.filterMap (rootReplay P transforms captures) :=
  Cascade.map_snd_replaySteps _ _

/-- A planned model is delivered its driving input once just if nothing is replayed from a
rebuilt input, and what a kept input holds is replayed. -/
theorem deliversOnce_at (hattached : attached.Perm (scopeModels P scope))
    (hexpanded : Expanded P scope plan.roots)
    (hkeys : plan.plannedKeys = (directPopulationPlan P scope).plannedKeys)
    (contents : ObjectKey → List ρ) (hm : m ∈ scopeModels P scope) :
    ((rebuild P plan transforms captures attached contents).delivered m.tableKey).Perm
        ((rebuild P plan transforms captures attached contents).contents (drivingKey P m)) ↔
      ReplayedFor P plan contents (rebuildSteps P plan transforms captures attached contents)
        m := by
  have hviews : ∀ replay ∈ plan.roots.filterMap (rootReplay P transforms captures),
      replay.view ∈ attached.map (attachedView P transforms) :=
    hexpanded.views_attached hattached
  have hview : attachedView P transforms m ∈ attached.map (attachedView P transforms) :=
    mem_map_of_mem (hattached.mem_iff.mpr hm)
  obtain ⟨rows, hcontents, hdelivered⟩ := Cascade.balanced_runReplays
    (layered_attached hattached) keyRank_lt_cascadeDepth
    (show P.orderedNames.length + 2 < cascadeDepth P by unfold cascadeDepth; omega)
    (recreated plan contents) (plan.roots.filterMap (rootReplay P transforms captures)) hview
  change (rebuild P plan transforms captures attached contents).contents (drivingKey P m) =
    (recreated plan contents).contents (drivingKey P m) ++ rows at hcontents
  change ((rebuild P plan transforms captures attached contents).delivered m.tableKey).Perm
    ([] ++ (Cascade.replayed (rebuildSteps P plan transforms captures attached contents)
      m.tableKey ++ rows)) at hdelivered
  rw [nil_append] at hdelivered
  unfold ReplayedFor
  split_ifs with hplanned
  · have hempty : (recreated plan contents).contents (drivingKey P m) = [] := if_pos hplanned
    rw [hempty, nil_append] at hcontents
    rw [hcontents]
    constructor
    · intro hperm
      have hlength := (hdelivered.symm.trans hperm).length_eq
      rw [length_append] at hlength
      exact length_eq_zero_iff.mp (by omega)
    · intro hnil
      rw [hnil, nil_append] at hdelivered
      exact hdelivered
  · have htarget : drivingKey P m ∉ (attached.map (attachedView P transforms)).map (·.target) := by
      rw [← drivingKey_planned_iff hattached, ← hkeys]
      exact hplanned
    have hkept : (rebuild P plan transforms captures attached contents).contents (drivingKey P m) =
        (recreated plan contents).contents (drivingKey P m) :=
      (Cascade.contents_replaySteps htarget (recreated plan contents) hviews).2
    have hrows : rows = [] := by
      have hlength := congrArg List.length (hkept.symm.trans hcontents)
      rw [length_append] at hlength
      exact length_eq_zero_iff.mp (by omega)
    have hstart : (recreated plan contents).contents (drivingKey P m) =
        contents (drivingKey P m) := if_neg hplanned
    rw [hrows, append_nil] at hdelivered
    rw [hkept, hstart]
    exact ⟨hdelivered.symm.trans, hdelivered.trans⟩

theorem Expanded.nodup_targets (hexpanded : Expanded P scope plan.roots)
    (contents : ObjectKey → List ρ) :
    ((rebuildSteps P plan transforms captures attached contents).map
      fun step => step.2.view.target).Nodup := by
  have htargets : (plan.roots.filterMap (rootReplay P transforms captures)).map (·.view.target) =
      plan.roots.map (·.rootKey) := Expanded.targets_eq hexpanded.root
  have hsteps : (rebuildSteps P plan transforms captures attached contents).map
      (fun step => step.2.view.target) = plan.roots.map (·.rootKey) := by
    rw [← htargets, ← map_snd_rebuildSteps contents, map_map]
    rfl
  rw [hsteps]
  exact hexpanded.nodup

section

variable (hattached : attached.Perm (scopeModels P scope)) (hexpanded : Expanded P scope plan.roots)
  (hkeys : plan.plannedKeys = (directPopulationPlan P scope).plannedKeys)
  (contents : ObjectKey → List ρ)

include hattached hexpanded hkeys contents

/-- A replay from the driving input of a model captures what the run meets there. -/
theorem contents_rebuildSteps (hkept : drivingKey P m ∉ plan.plannedKeys)
    (hstep : step ∈ rebuildSteps P plan transforms captures attached contents) :
    step.1.contents (drivingKey P m) = contents (drivingKey P m) := by
  have htarget : drivingKey P m ∉ (attached.map (attachedView P transforms)).map (·.target) := by
    rw [← drivingKey_planned_iff hattached, ← hkeys]
    exact hkept
  have hsteps := (Cascade.contents_replaySteps htarget (recreated plan contents)
    (hexpanded.views_attached hattached)).1 step hstep
  rw [hsteps]
  exact if_neg hkept

/-- A replay keeps to kept tables just if its model gets what it should. -/
theorem replaysOnlyKept_iff
    (hstep : step ∈ rebuildSteps P plan transforms captures attached contents)
    (hview : step.2.view = attachedView P transforms m) :
    ReplaysOnlyKept plan step ↔
      ReplayedFor P plan contents (rebuildSteps P plan transforms captures attached contents)
        m := by
  have hcaptured : Cascade.replayed (rebuildSteps P plan transforms captures attached contents)
      m.tableKey = step.2.captured step.1 := by
    rw [← Cascade.replayed_eq_captured (hexpanded.nodup_targets contents) hstep, hview]
    rfl
  have hsource : step.2.view.source = drivingKey P m := by
    rw [hview]
    rfl
  unfold ReplaysOnlyKept ReplayedFor
  rw [hcaptured, hsource]
  split_ifs with hplanned
  · rfl
  · rw [← contents_rebuildSteps hattached hexpanded hkeys contents hplanned hstep]
    constructor
    · intro heq
      rw [heq]
    · intro hperm
      unfold Cascade.Replay.captured at hperm ⊢
      rw [hsource] at hperm ⊢
      exact filter_sublist.eq_of_length hperm.length_eq

end

/-- A model of the scope with a kept input has its replay, unless a Postgres source drives it. -/
theorem Expanded.exists_step (hexpanded : Expanded P scope plan.roots)
    (hkeys : plan.plannedKeys = (directPopulationPlan P scope).plannedKeys)
    (contents : ObjectKey → List ρ) (hm : m ∈ scopeModels P scope)
    (hkept : drivingKey P m ∉ plan.plannedKeys) (hpostgres : isPostgresDriven P m = false) :
    ∃ step ∈ rebuildSteps P plan transforms captures attached contents,
      step.2.view = attachedView P transforms m := by
  have hparent : executedParent P scope m = none := by
    by_contra hsome
    rw [hkeys] at hkept
    exact hkept ((drivingKey_mem_plannedKeys (mem_scopeModels.mp hm).1).mpr hsome)
  have hroot : directPopulationRoot P scope m ∈ plan.roots := by
    refine hexpanded.starts _ (mem_map_of_mem ?_)
    exact mem_directReplayRoots.mpr ⟨hm, hparent, hpostgres⟩
  have hreplay : ({ view := attachedView P transforms m
                    captures := captures (directPopulationRoot P scope m) } :
      Cascade.Replay ObjectKey ρ) ∈
        (rebuildSteps P plan transforms captures attached contents).map (·.2) := by
    rw [map_snd_rebuildSteps]
    exact mem_filterMap.mpr ⟨_, hroot, rootReplay_eq hm rfl rfl⟩
  obtain ⟨step, hstep, heq⟩ := mem_map.mp hreplay
  exact ⟨step, hstep, by rw [heq]⟩

theorem Expanded.step_cases (hexpanded : Expanded P scope plan.roots)
    (contents : ObjectKey → List ρ)
    (hstep : step ∈ rebuildSteps P plan transforms captures attached contents) :
    ∃ m ∈ scopeModels P scope, step.2.view = attachedView P transforms m ∧
      isPostgresDriven P m = false := by
  apply hexpanded.replay_cases
  rw [← map_snd_rebuildSteps contents]
  exact mem_map_of_mem hstep

theorem postgres_kept (hm : m ∈ P.tableModels) (hpostgres : isPostgresDriven P m = true) :
    drivingKey P m ∉ (directPopulationPlan P scope).plannedKeys := by
  rw [drivingKey_mem_plannedKeys hm, not_not, Option.eq_none_iff_forall_ne_some]
  intro parent hparent
  obtain ⟨hscope, hname⟩ := executedParent_eq_some.mp hparent
  simp only [isPostgresDriven, any_eq_true, Bool.and_eq_true, decide_eq_true_eq] at hpostgres
  obtain ⟨s, hs, hsource, -⟩ := hpostgres
  exact source_name_ne hs (mem_scopeModels.mp hscope).1 (hsource.trans hname.symm)

theorem Expanded.replayed_eq_nil (hexpanded : Expanded P scope plan.roots)
    (contents : ObjectKey → List ρ) (hm : m ∈ P.tableModels)
    (hnone : ∀ step ∈ rebuildSteps P plan transforms captures attached contents,
      step.2.view ≠ attachedView P transforms m) :
    Cascade.replayed (rebuildSteps P plan transforms captures attached contents)
      m.tableKey = [] := by
  rw [Cascade.replayed_eq_nil_iff]
  intro step hstep htarget
  obtain ⟨m', hm', hview, -⟩ := hexpanded.step_cases contents hstep
  rw [hview] at htarget
  obtain rfl := tableKey_unique (mem_scopeModels.mp hm').1 hm htarget
  exact absurd hview (hnone step hstep)

/-- A model that a Postgres source drives gets what it should just if there is nothing. -/
theorem Expanded.replayedFor_postgres (hexpanded : Expanded P scope plan.roots)
    (hkeys : plan.plannedKeys = (directPopulationPlan P scope).plannedKeys)
    (contents : ObjectKey → List ρ) (hm : m ∈ P.tableModels)
    (hpostgres : isPostgresDriven P m = true) :
    ReplayedFor P plan contents (rebuildSteps P plan transforms captures attached contents) m ↔
      contents (drivingKey P m) = [] := by
  have hnone : ∀ step ∈ rebuildSteps P plan transforms captures attached contents,
      step.2.view ≠ attachedView P transforms m := by
    intro step hstep hview
    obtain ⟨m', hm', hview', hother⟩ := hexpanded.step_cases contents hstep
    have htarget : m'.tableKey = m.tableKey :=
      congrArg Cascade.View.target (hview'.symm.trans hview)
    obtain rfl := tableKey_unique (mem_scopeModels.mp hm').1 hm htarget
    rw [hpostgres] at hother
    cases hother
  have hkept : drivingKey P m ∉ plan.plannedKeys := by
    rw [hkeys]
    exact postgres_kept hm hpostgres
  unfold ReplayedFor
  rw [if_neg hkept, hexpanded.replayed_eq_nil contents hm hnone, nil_perm]

end

/-- A direct rebuild delivers every driving row once just if each replay from a rebuilt table
captures nothing, each replay from a kept table captures everything, and the sources that the
warehouse refreshes itself are empty. -/
theorem deliversOnce_iff {ρ : Type} (P : RealizedProject) (scope : DirectScope)
    (transforms : Transforms ρ) (captures : PopulationRoot → ρ → Bool)
    {attached : List RealizedTableModel} (hattached : attached.Perm (scopeModels P scope))
    (contents : ObjectKey → List ρ) {plan : PopulationPlan}
    (hplan : expandFanInRoots P.desiredState (directPopulationPlan P scope) = .ok plan) :
    DeliversOnce P plan (rebuild P plan transforms captures attached contents) ↔
      (∀ step ∈ rebuildSteps P plan transforms captures attached contents,
        ReplaysOnlyKept plan step) ∧ PostgresInputsEmpty P plan contents := by
  obtain ⟨hexpanded, hkeys⟩ := expanded_of_expandFanInRoots hplan
  have hscope : ∀ m ∈ P.tableModels, m.tableKey ∈ plan.plannedKeys ↔ m ∈ scopeModels P scope := by
    intro m hm
    rw [hkeys]
    exact tableKey_mem_plannedKeys hm
  have hat : DeliversOnce P plan (rebuild P plan transforms captures attached contents) ↔
      ∀ m ∈ scopeModels P scope, ReplayedFor P plan contents
        (rebuildSteps P plan transforms captures attached contents) m := by
    constructor
    · intro h m hm
      have hmodel := (mem_scopeModels.mp hm).1
      exact (deliversOnce_at hattached hexpanded hkeys contents hm).mp
        (h m hmodel ((hscope m hmodel).mpr hm))
    · intro h m hmodel hplanned
      have hm := (hscope m hmodel).mp hplanned
      exact (deliversOnce_at hattached hexpanded hkeys contents hm).mpr (h m hm)
  rw [hat]
  constructor
  · intro h
    constructor
    · intro step hstep
      obtain ⟨m, hm, hview, -⟩ := hexpanded.step_cases contents hstep
      exact (replaysOnlyKept_iff hattached hexpanded hkeys contents hstep hview).mpr (h m hm)
    · intro m hm hplanned hpostgres
      exact (hexpanded.replayedFor_postgres hkeys contents hm hpostgres).mp
        (h m ((hscope m hm).mp hplanned))
  · rintro ⟨hsteps, hempty⟩ m hm
    have hmodel := (mem_scopeModels.mp hm).1
    by_cases hexists : ∃ step ∈ rebuildSteps P plan transforms captures attached contents,
        step.2.view = attachedView P transforms m
    · obtain ⟨step, hstep, hview⟩ := hexists
      exact (replaysOnlyKept_iff hattached hexpanded hkeys contents hstep hview).mp
        (hsteps step hstep)
    · cases hpostgres : isPostgresDriven P m with
      | true =>
        exact (hexpanded.replayedFor_postgres hkeys contents hmodel hpostgres).mpr
          (hempty m hmodel ((hscope m hmodel).mpr hm) hpostgres)
      | false =>
        have hdriving : drivingKey P m ∈ plan.plannedKeys := by
          by_contra hkept
          exact hexists (hexpanded.exists_step hkeys contents hm hkept hpostgres)
        unfold ReplayedFor
        rw [if_pos hdriving]
        refine hexpanded.replayed_eq_nil contents hmodel ?_
        intro step hstep hview
        exact hexists ⟨step, hstep, hview⟩

/-- One row in the adopted source. -/
def oneOrder (key : ObjectKey) : List String :=
  if key = ⟨.table, "orders_input"⟩ then ["order-1"] else []

def copyRows : Transforms String := fun _ _ rows => rows

/-- All models but the first, whose table stays. -/
def partialScope : DirectScope := { executionKeys := {"beta", "gamma", "delta"} }

def fullScope : DirectScope := { executionKeys := {"alpha", "beta", "gamma", "delta"} }

instance {ρ : Type} [DecidableEq ρ] (plan : PopulationPlan)
    (step : Cascade.Store ObjectKey ρ × Cascade.Replay ObjectKey ρ) :
    Decidable (ReplaysOnlyKept plan step) :=
  inferInstanceAs (Decidable (_ = _))

/-- Where the side reference stays, there is no catch-up root, and the row arrives once. -/
theorem deliversOnce_partial :
    ∃ plan, expandFanInRoots fanInProject.desiredState
        (directPopulationPlan fanInProject partialScope) = .ok plan ∧
      DeliversOnce fanInProject plan (rebuild fanInProject plan copyRows (fun _ _ => true)
        (scopeModels fanInProject partialScope) oneOrder) := by
  have hsteps : ((expandFanInRoots fanInProject.desiredState
      (directPopulationPlan fanInProject partialScope)).map fun plan =>
        decide (∀ step ∈ rebuildSteps fanInProject plan copyRows (fun _ _ => true)
          (scopeModels fanInProject partialScope) oneOrder, ReplaysOnlyKept plan step)).toOption =
      some true := by decide +kernel
  cases hplan : expandFanInRoots fanInProject.desiredState
      (directPopulationPlan fanInProject partialScope) with
  | error e =>
    rw [hplan] at hsteps
    cases hsteps
  | ok plan =>
    rw [hplan] at hsteps
    refine ⟨plan, rfl, (deliversOnce_iff fanInProject partialScope copyRows (fun _ _ => true)
      (List.Perm.refl _) oneOrder hplan).mpr ⟨?_, ?_⟩⟩
    · exact of_decide_eq_true (Option.some.inj hsteps)
    · intro m hm _ hpostgres
      have hnone : ∀ m ∈ fanInProject.tableModels, isPostgresDriven fanInProject m = false := by
        decide
      rw [hnone m hm] at hpostgres
      cases hpostgres

/-- Where everything is rebuilt, the catch-up root delivers the row a second time. -/
theorem not_deliversOnce :
    ¬ ∀ (P : RealizedProject) (scope : DirectScope) (transforms : Transforms String)
      (captures : PopulationRoot → String → Bool) (attached : List RealizedTableModel)
      (contents : ObjectKey → List String) (plan : PopulationPlan),
      attached.Perm (scopeModels P scope) →
      expandFanInRoots P.desiredState (directPopulationPlan P scope) = .ok plan →
        DeliversOnce P plan (rebuild P plan transforms captures attached contents) := by
  intro hall
  have hlengths : ((expandFanInRoots fanInProject.desiredState
      (directPopulationPlan fanInProject fullScope)).map fun plan =>
        let store := rebuild fanInProject plan copyRows (fun _ _ => true)
          (scopeModels fanInProject fullScope) oneOrder
        ((plan.plannedKeys.contains ⟨.table, "tbl__gamma"⟩),
          (store.delivered ⟨.table, "tbl__gamma"⟩).length,
          (store.contents ⟨.table, "tbl__beta"⟩).length)).toOption =
      some (true, 2, 1) := by decide +kernel
  cases hplan : expandFanInRoots fanInProject.desiredState
      (directPopulationPlan fanInProject fullScope) with
  | error e =>
    rw [hplan] at hlengths
    cases hlengths
  | ok plan =>
    rw [hplan] at hlengths
    have hvalues := Option.some.inj hlengths
    simp only [Prod.mk.injEq] at hvalues
    obtain ⟨hplanned, hdelivered, hcontents⟩ := hvalues
    have hgamma : (plainModel "gamma" "beta" ["alpha"]).tableKey ∈ plan.plannedKeys :=
      contains_iff_mem.mp hplanned
    have hperm := hall fanInProject fullScope copyRows (fun _ _ => true) _ oneOrder plan
      (List.Perm.refl _) hplan (plainModel "gamma" "beta" ["alpha"]) (by decide) hgamma
    exact absurd (hdelivered.symm.trans (hperm.length_eq.trans hcontents)) (by decide)

end SqlTide.Population
