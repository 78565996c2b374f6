import SqlTide.Population.PopulationPlan

/-!
# Direct population plans

A direct build recreates the relations of the models in its scope in place. Its replay roots are
the models whose driving input stays outside the scope; everything below a root is filled by the
materialized views. What a source refreshed from Postgres drives is left to the warehouse. The
plan is then expanded by the catch-up roots.
-/

namespace SqlTide.Population

open Compiler Foundations List Planner RealizedProject

/-- The models that are rebuilt, and from when on. -/
structure DirectScope where
  executionKeys : Finset String
  effectiveStartTime : Option String := none
  replayBoundaryMode : String → Replay.AdapterReplayBoundaryMode := fun _ => .offsets

section

variable (P : RealizedProject) (scope : DirectScope)

def executionScope : List String :=
  P.orderedNames.filter fun name => name ∈ scope.executionKeys ∧
    (name ∈ P.tableModels.map (·.name) ∨ name ∈ P.viewModels.map (·.name))

def tableModelByName (name : String) : Option RealizedTableModel :=
  P.tableModels.find? fun m => m.name = name

/-- The table models of the scope, in its order. -/
def scopeModels : List RealizedTableModel :=
  (executionScope P scope).filterMap (tableModelByName P)

/-- The driving parent of a model, where it is rebuilt as well. -/
def executedParent (m : RealizedTableModel) : Option RealizedTableModel :=
  (tableModelByName P m.source).filter fun parent => parent.name ∈ executionScope P scope

/-- The loop of `_replay_root_key`. -/
def climb : ℕ → RealizedTableModel → RealizedTableModel
  | 0, m => m
  | fuel + 1, m =>
    match executedParent P scope m with
    | none => m
    | some parent => climb fuel parent

/-- `_replay_root_key`. -/
def replayRootOf (m : RealizedTableModel) : RealizedTableModel :=
  climb P scope P.orderedNames.length m

def isPostgresRefresh (s : RealizedSource) : Bool :=
  match s.source with
  | .postgresRefresh _ => true
  | _ => false

/-- The driving input is among `_postgres_source_names`. -/
def isPostgresDriven (m : RealizedTableModel) : Bool :=
  P.sources.any fun s => s.name = m.source && isPostgresRefresh s

/-- `propagated_by_root`. -/
def propagatedModels (root : RealizedTableModel) : List RealizedTableModel :=
  (scopeModels P scope).filter fun m =>
    replayRootOf P scope m = root ∧ isPostgresDriven P root = false

/-- `_build_replay_roots`. -/
def directReplayRoots : List RealizedTableModel :=
  (scopeModels P scope).filter fun root => propagatedModels P scope root ≠ []

/-- The relation that drives a model. -/
def drivingKey (m : RealizedTableModel) : ObjectKey := ⟨.table, P.sourceRelationName m⟩

/-- `_population_root`. -/
def directPopulationRoot (root : RealizedTableModel) : PopulationRoot :=
  { rootKey := root.tableKey
    affectedKeys := (propagatedModels P scope root).flatMap fun m => [m.tableKey, m.viewKey]
    upstreamBoundaryKey := drivingKey P root
    replayLineageMode := scope.replayBoundaryMode root.name
    executionMode := .fullRebuild
    forcedStartTime := scope.effectiveStartTime
    executionLookbackSeconds := none
    persistWatermarks := true }

/-- `build_direct_population_plan`. -/
def directPopulationPlan : PopulationPlan :=
  { executionId := "direct"
    roots := (directReplayRoots P scope).map (directPopulationRoot P scope)
    objects := ((executionScope P scope).flatMap P.relationKeys).map fun key =>
      { logicalKey := key, physicalName := key.name } }

end

section

variable {P : RealizedProject} {scope : DirectScope}

variable {m : RealizedTableModel}

theorem tableModelByName_eq_some {name : String} :
    tableModelByName P name = some m ↔ m ∈ P.tableModels ∧ m.name = name := by
  unfold tableModelByName
  constructor
  · intro h
    exact ⟨mem_of_find?_eq_some h, by simpa using find?_some h⟩
  · rintro ⟨hm, rfl⟩
    obtain ⟨found, hfound⟩ : ∃ found,
        P.tableModels.find? (fun m' => m'.name = m.name) = some found :=
      Option.isSome_iff_exists.mp (find?_isSome.mpr ⟨m, hm, by simp⟩)
    have hname : found.name = m.name := by simpa using find?_some hfound
    rw [hfound, tableModel_unique (mem_of_find?_eq_some hfound) hm hname]

theorem mem_executionScope (hm : m ∈ P.tableModels) :
    m.name ∈ executionScope P scope ↔ m.name ∈ scope.executionKeys := by
  have hordered : m.name ∈ P.orderedNames := by
    rw [P.names_ordered.mem_iff]
    exact mem_append_right _ (mem_append_left _ (mem_map_of_mem hm))
  have hname : m.name ∈ P.tableModels.map (·.name) := mem_map_of_mem hm
  simp only [executionScope, mem_filter, hordered, hname, decide_eq_true_eq, true_or,
    true_and, and_true]

theorem mem_scopeModels :
    m ∈ scopeModels P scope ↔ m ∈ P.tableModels ∧ m.name ∈ scope.executionKeys := by
  simp only [scopeModels, mem_filterMap, tableModelByName_eq_some]
  constructor
  · rintro ⟨name, hname, hm, rfl⟩
    exact ⟨hm, (mem_executionScope hm).mp hname⟩
  · rintro ⟨hm, hname⟩
    exact ⟨m.name, (mem_executionScope hm).mpr hname, hm, rfl⟩

theorem nodup_scopeModels : (scopeModels P scope).Nodup := by
  have hnodup : (executionScope P scope).Nodup :=
    (P.names_ordered.nodup_iff.mpr P.names_nodup).filter _
  refine hnodup.filterMap ?_
  intro name name' m hm hm'
  have h := (tableModelByName_eq_some.mp hm).2
  have h' := (tableModelByName_eq_some.mp hm').2
  exact h.symm.trans h'

theorem executedParent_eq_some {parent : RealizedTableModel} :
    executedParent P scope m = some parent ↔
      parent ∈ scopeModels P scope ∧ parent.name = m.source := by
  simp only [executedParent, Option.filter_eq_some_iff, tableModelByName_eq_some, mem_scopeModels,
    decide_eq_true_eq]
  constructor
  · rintro ⟨⟨hparent, hname⟩, hscope⟩
    exact ⟨⟨hparent, (mem_executionScope hparent).mp hscope⟩, hname⟩
  · rintro ⟨⟨hparent, hscope⟩, hname⟩
    exact ⟨⟨hparent, hname⟩, (mem_executionScope hparent).mpr hscope⟩

/-- The climb along the driving parents ends where there is none in the scope. -/
theorem climb_spec {fuel : ℕ} (hm : m ∈ scopeModels P scope)
    (hfuel : P.orderedNames.idxOf m.name < fuel) :
    climb P scope fuel m ∈ scopeModels P scope ∧
      executedParent P scope (climb P scope fuel m) = none := by
  induction fuel generalizing m with
  | zero => omega
  | succ fuel ih =>
    unfold climb
    cases hparent : executedParent P scope m with
    | none => exact ⟨hm, hparent⟩
    | some parent =>
      obtain ⟨hscope, hname⟩ := executedParent_eq_some.mp hparent
      refine ih hscope ?_
      have hmodel := (mem_scopeModels.mp hm).1
      have hfirst := P.upstream_first m hmodel m.source (P.driving_parsed m hmodel)
      rw [← hname] at hfirst
      omega

theorem replayRootOf_spec (hm : m ∈ scopeModels P scope) :
    executedParent P scope (replayRootOf P scope m) = none := by
  refine (climb_spec hm (idxOf_lt_length_iff.mpr ?_)).2
  rw [P.names_ordered.mem_iff]
  exact mem_append_right _ (mem_append_left _ (mem_map_of_mem (mem_scopeModels.mp hm).1))

theorem replayRootOf_self (h : executedParent P scope m = none) : replayRootOf P scope m = m := by
  unfold replayRootOf
  cases P.orderedNames.length with
  | zero => rfl
  | succ fuel =>
    unfold climb
    rw [h]

/-- The replay roots are the models of the scope without a parent in it, up to those that a
Postgres source drives. -/
theorem mem_directReplayRoots :
    m ∈ directReplayRoots P scope ↔
      m ∈ scopeModels P scope ∧ executedParent P scope m = none ∧
        isPostgresDriven P m = false := by
  have hsome : propagatedModels P scope m ≠ [] ↔ ∃ other ∈ scopeModels P scope,
      replayRootOf P scope other = m ∧ isPostgresDriven P m = false := by
    simp [propagatedModels, filter_eq_nil_iff]
  simp only [directReplayRoots, mem_filter, decide_eq_true_eq, hsome]
  constructor
  · rintro ⟨hm, other, hother, hroot, hpostgres⟩
    exact ⟨hm, hroot ▸ replayRootOf_spec hother, hpostgres⟩
  · rintro ⟨hm, hparent, hpostgres⟩
    exact ⟨hm, m, hm, replayRootOf_self hparent, hpostgres⟩

theorem relationKeyByName_source (hm : m ∈ P.tableModels) :
    P.relationKeyByName m.source = some (drivingKey P m) := by
  obtain ⟨key, hkey⟩ :=
    exists_relationKey (P.refs_resolve m hm _ (P.driving_parsed m hm))
  have htype := relationKeyByName_objectType hkey
  obtain ⟨type, name⟩ := key
  obtain rfl : type = .table := htype
  simp [drivingKey, sourceRelationName, hkey]

theorem plannedKeys_directPopulationPlan :
    (directPopulationPlan P scope).plannedKeys =
      (executionScope P scope).flatMap P.relationKeys := by
  simp [PopulationPlan.plannedKeys, directPopulationPlan, Function.comp_def]

/-- A relation of one table model only is planned just if the model is in the scope. -/
theorem mem_plannedKeys_iff {key : ObjectKey} (hm : m ∈ P.tableModels)
    (hkey : key = m.tableKey ∨ key = m.viewKey)
    (honly : ∀ name, key ∈ P.relationKeys name → name = m.name) :
    key ∈ (directPopulationPlan P scope).plannedKeys ↔ m ∈ scopeModels P scope := by
  rw [plannedKeys_directPopulationPlan, mem_flatMap, mem_scopeModels]
  constructor
  · rintro ⟨name, hname, hmem⟩
    obtain rfl := honly name hmem
    exact ⟨hm, (mem_executionScope hm).mp hname⟩
  · rintro ⟨-, hscope⟩
    exact ⟨m.name, (mem_executionScope hm).mpr hscope,
      mem_relationKeys.mpr (.inl ⟨m, hm, rfl, hkey⟩)⟩

theorem tableKey_mem_plannedKeys (hm : m ∈ P.tableModels) :
    m.tableKey ∈ (directPopulationPlan P scope).plannedKeys ↔ m ∈ scopeModels P scope := by
  apply mem_plannedKeys_iff hm (.inl rfl)
  intro name hmem
  rcases mem_relationKeys.mp hmem with ⟨m', hm', rfl, heq | heq⟩ | ⟨v, -, -, heq⟩
  · rw [tableKey_unique hm hm' heq]
  · cases heq
  · cases heq

theorem viewKey_mem_plannedKeys (hm : m ∈ P.tableModels) :
    m.viewKey ∈ (directPopulationPlan P scope).plannedKeys ↔ m ∈ scopeModels P scope := by
  apply mem_plannedKeys_iff hm (.inr rfl)
  intro name hmem
  rcases mem_relationKeys.mp hmem with ⟨m', hm', rfl, heq | heq⟩ | ⟨v, -, -, heq⟩
  · cases heq
  · rw [viewKey_unique hm hm' heq]
  · cases heq

theorem drivingKey_mem_plannedKeys (hm : m ∈ P.tableModels) :
    drivingKey P m ∈ (directPopulationPlan P scope).plannedKeys ↔
      executedParent P scope m ≠ none := by
  have hsource := relationKeyByName_source hm
  rcases relationKeyByName_cases hsource with ⟨s, hs, hname, hkey⟩ | ⟨parent, hparent, hname, hkey⟩
  · have hnone : executedParent P scope m = none := by
      rw [Option.eq_none_iff_forall_ne_some]
      intro parent hsome
      obtain ⟨hscope, hparent⟩ := executedParent_eq_some.mp hsome
      exact source_name_ne hs (mem_scopeModels.mp hscope).1 (hname.trans hparent.symm)
    have hout : drivingKey P m ∉ (directPopulationPlan P scope).plannedKeys := by
      rw [plannedKeys_directPopulationPlan, mem_flatMap]
      rintro ⟨name, -, hmem⟩
      rw [hkey] at hmem
      rcases mem_relationKeys.mp hmem with ⟨m', hm', -, heq | heq⟩ | ⟨v, -, -, heq⟩
      · exact relationKey_ne_tableKey hs hm' heq
      · cases heq
      · cases heq
    simp [hnone, hout]
  · rw [hkey, tableKey_mem_plannedKeys hparent]
    constructor
    · intro hscope
      rw [executedParent_eq_some.mpr ⟨hscope, hname⟩]
      simp
    · intro hsome
      obtain ⟨other, hother⟩ := Option.ne_none_iff_exists'.mp hsome
      obtain ⟨hscope, hother⟩ := executedParent_eq_some.mp hother
      obtain rfl := tableModel_unique hparent (mem_scopeModels.mp hscope).1
        (hname.trans hother.symm)
      exact hscope

end

section

variable {P : RealizedProject} {scope : DirectScope}

/-- From the second model the first one is filled, through the models of the scope. -/
def DrivenFrom (P : RealizedProject) (scope : DirectScope) :
    RealizedTableModel → RealizedTableModel → Prop :=
  Relation.ReflTransGen fun m parent => executedParent P scope m = some parent

/-- No model of the scope on the driving chain of a model is driven by a Postgres source, which
the warehouse refreshes by itself. -/
def ReplayPopulated (P : RealizedProject) (scope : DirectScope) (m : RealizedTableModel) : Prop :=
  ∀ origin, DrivenFrom P scope m origin → isPostgresDriven P origin = false

variable {m : RealizedTableModel}

theorem idxOf_executedParent {parent : RealizedTableModel} (hm : m ∈ scopeModels P scope)
    (h : executedParent P scope m = some parent) :
    P.orderedNames.idxOf parent.name < P.orderedNames.idxOf m.name := by
  have hmodel := (mem_scopeModels.mp hm).1
  rw [(executedParent_eq_some.mp h).2]
  exact P.upstream_first m hmodel m.source (P.driving_parsed m hmodel)

/-- The climb does not depend on its bound once that exceeds the position of the model. -/
theorem climb_add {fuel : ℕ} (hm : m ∈ scopeModels P scope)
    (hfuel : P.orderedNames.idxOf m.name < fuel) (more : ℕ) :
    climb P scope (fuel + more) m = climb P scope fuel m := by
  induction fuel generalizing m with
  | zero => omega
  | succ fuel ih =>
    rw [Nat.add_right_comm, climb, climb]
    cases hparent : executedParent P scope m with
    | none => rfl
    | some parent =>
      have hlt := idxOf_executedParent hm hparent
      exact ih (executedParent_eq_some.mp hparent).1 (by omega)

theorem idxOf_scopeModel_lt (hm : m ∈ scopeModels P scope) :
    P.orderedNames.idxOf m.name < P.orderedNames.length := by
  rw [idxOf_lt_length_iff, P.names_ordered.mem_iff]
  exact mem_append_right _ (mem_append_left _ (mem_map_of_mem (mem_scopeModels.mp hm).1))

theorem drivenFrom_climb (fuel : ℕ) (m : RealizedTableModel) :
    DrivenFrom P scope m (climb P scope fuel m) := by
  induction fuel generalizing m with
  | zero => exact .refl
  | succ fuel ih =>
    rw [climb]
    cases hparent : executedParent P scope m with
    | none => exact .refl
    | some parent => exact .head hparent (ih parent)

theorem replayRootOf_parent {parent : RealizedTableModel} (hm : m ∈ scopeModels P scope)
    (h : executedParent P scope m = some parent) :
    replayRootOf P scope m = replayRootOf P scope parent := by
  have hlt := idxOf_executedParent hm h
  have hlength := idxOf_scopeModel_lt hm
  obtain ⟨fuel, hfuel⟩ : ∃ fuel, P.orderedNames.length = fuel + 1 :=
    Nat.exists_eq_succ_of_ne_zero (by omega)
  unfold replayRootOf
  rw [hfuel, climb, h]
  exact (climb_add (executedParent_eq_some.mp h).1 (by omega) 1).symm

theorem replayRootOf_of_drivenFrom {origin : RealizedTableModel} (hm : m ∈ scopeModels P scope)
    (h : DrivenFrom P scope m origin) : replayRootOf P scope m = replayRootOf P scope origin := by
  induction h using Relation.ReflTransGen.head_induction_on with
  | refl => rfl
  | head hstep _ ih =>
    exact (replayRootOf_parent hm hstep).trans (ih (executedParent_eq_some.mp hstep).1)

theorem executedParent_of_isPostgresDriven (scope : DirectScope)
    (h : isPostgresDriven P m = true) : executedParent P scope m = none := by
  obtain ⟨s, hs, hsource⟩ := any_eq_true.mp h
  have hname : s.name = m.source := by simpa using (Bool.and_eq_true_iff.mp hsource).1
  rw [Option.eq_none_iff_forall_ne_some]
  intro parent hparent
  obtain ⟨hscope, hparent⟩ := executedParent_eq_some.mp hparent
  exact source_name_ne hs (mem_scopeModels.mp hscope).1 (hname.trans hparent.symm)

theorem replayPopulated_iff (hm : m ∈ scopeModels P scope) :
    ReplayPopulated P scope m ↔ isPostgresDriven P (replayRootOf P scope m) = false := by
  constructor
  · intro h
    exact h _ (drivenFrom_climb _ m)
  · intro h origin horigin
    by_contra hdriven
    rw [Bool.not_eq_false] at hdriven
    have hroot := replayRootOf_self (executedParent_of_isPostgresDriven scope hdriven)
    rw [replayRootOf_of_drivenFrom hm horigin, hroot, hdriven] at h
    cases h

theorem mem_propagatedModels {root : RealizedTableModel} :
    m ∈ propagatedModels P scope root ↔
      m ∈ scopeModels P scope ∧ replayRootOf P scope m = root ∧
        isPostgresDriven P root = false := by
  simp [propagatedModels]

variable (P scope)

/-- The replay roots partition the models that are filled by a replay. -/
theorem directReplayRoots_partition :
    (∀ m ∈ scopeModels P scope, ReplayPopulated P scope m →
      ∃! root, root ∈ directReplayRoots P scope ∧ m ∈ propagatedModels P scope root) ∧
    (∀ root ∈ directReplayRoots P scope,
      (propagatedModels P scope root).Nodup ∧ root ∈ propagatedModels P scope root ∧
        (∀ m ∈ propagatedModels P scope root,
          m ∈ scopeModels P scope ∧ ReplayPopulated P scope m) ∧
        ∀ parent ∈ scopeModels P scope, parent.name ≠ root.source) ∧
    (directReplayRoots P scope).Nodup ∧
    ∀ m ∈ scopeModels P scope, ∀ fuel, P.orderedNames.length ≤ fuel →
      climb P scope fuel m = replayRootOf P scope m ∧
        executedParent P scope (climb P scope fuel m) = none := by
  refine ⟨?_, ?_, nodup_scopeModels.filter _, ?_⟩
  · intro m hm hpopulated
    have hroot : m ∈ propagatedModels P scope (replayRootOf P scope m) :=
      mem_propagatedModels.mpr ⟨hm, rfl, (replayPopulated_iff hm).mp hpopulated⟩
    refine ⟨replayRootOf P scope m, ⟨?_, hroot⟩, ?_⟩
    · have hlength := idxOf_scopeModel_lt hm
      exact mem_directReplayRoots.mpr ⟨(climb_spec hm hlength).1, replayRootOf_spec hm,
        (replayPopulated_iff hm).mp hpopulated⟩
    · rintro root ⟨-, hmem⟩
      exact (mem_propagatedModels.mp hmem).2.1.symm
  · intro root hroot
    obtain ⟨hscope, hparent, hpostgres⟩ := mem_directReplayRoots.mp hroot
    refine ⟨nodup_scopeModels.filter _, ?_, ?_, ?_⟩
    · exact mem_propagatedModels.mpr ⟨hscope, replayRootOf_self hparent, hpostgres⟩
    · intro m hmem
      obtain ⟨hm, rfl, hpostgres⟩ := mem_propagatedModels.mp hmem
      exact ⟨hm, (replayPopulated_iff hm).mpr hpostgres⟩
    · intro parent hparentScope hname
      rw [executedParent_eq_some.mpr ⟨hparentScope, hname⟩] at hparent
      cases hparent
  · intro m hm fuel hfuel
    obtain ⟨more, rfl⟩ := Nat.exists_eq_add_of_le hfuel
    have hclimb := climb_add hm (idxOf_scopeModel_lt hm) more
    exact ⟨hclimb, hclimb ▸ replayRootOf_spec hm⟩

end

end SqlTide.Population
