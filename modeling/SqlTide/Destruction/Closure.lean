import SqlTide.Destruction.Planning

/-!
# A destruction takes every reader along

A pipeline uses a resource when one of its models is that resource or reads it.
The selection of a destruction is closed when nobody outside of it uses a model of
the selected pipelines, or a managed source that they use.
-/

namespace SqlTide.Destruction

open Compiler Foundations List CompiledProject

variable {A : CompileAnalysis}

/-- The pipeline owns a model that is the resource or reads it. -/
def Uses (A : CompileAnalysis) (pipeline : String) (k : LogicalResourceKey) : Prop :=
  ∃ m ∈ A.project.models, m.pipelineName = pipeline ∧ A.graph.Reads m.key k

/-- Destroying the one pipeline would take something away from the other: a model of
the first, or a managed source that goes with the first. -/
def DestroyedWith (A : CompileAnalysis) (pipeline other : String) : Prop :=
  (∃ m ∈ A.project.models, m.pipelineName = pipeline ∧ Uses A other m.key) ∨
    ∃ s ∈ managedSources A, Uses A pipeline s.key ∧ Uses A other s.key

/-- Nobody outside of the selection would lose something. -/
def ClosedSelection (A : CompileAnalysis) (selection : Finset String) : Prop :=
  ∀ p ∈ selection, ∀ q, DestroyedWith A p q → q ∈ selection

variable {pipelineNames : Finset String} {k : LogicalResourceKey} {p q : String}
  {s : CompiledSource} {affected : List String}

theorem mem_modelKeysOf :
    k ∈ modelKeysOf A pipelineNames ↔
      ∃ m ∈ A.project.models, m.pipelineName ∈ pipelineNames ∧ m.key = k := by
  simp [modelKeysOf, modelsOf, and_assoc]

theorem modelKeysOf_subset : ∀ k ∈ modelKeysOf A pipelineNames, k ∈ A.project.keys := by
  intro k hk
  obtain ⟨m, hm, -, rfl⟩ := mem_modelKeysOf.mp hk
  exact model_mem_keys hm

theorem pipelineByModelKey_eq_some :
    pipelineByModelKey A k = some p ↔
      ∃ m ∈ A.project.models, m.key = k ∧ m.pipelineName = p := by
  simp only [pipelineByModelKey, Option.map_eq_some_iff]
  constructor
  · rintro ⟨m, hm, rfl⟩
    exact ⟨m, mem_of_find?_eq_some hm, by simpa using find?_some hm, rfl⟩
  · rintro ⟨m, hm, rfl, rfl⟩
    obtain ⟨m', hm'⟩ : ∃ m', A.project.models.find? (fun n => n.key = m.key) = some m' := by
      rw [← Option.isSome_iff_exists, find?_isSome]
      exact ⟨m, hm, by simp⟩
    have hkey : m'.key = m.key := by simpa using find?_some hm'
    have hsame := model_unique (mem_of_find?_eq_some hm') hm hkey
    exact ⟨m', hm', by rw [hsame]⟩

theorem mem_pipelinesOfKeys {keys : List LogicalResourceKey} :
    p ∈ pipelinesOfKeys A keys ↔
      ∃ m ∈ A.project.models, m.key ∈ keys ∧ m.pipelineName = p := by
  simp only [pipelinesOfKeys, mem_toFinset, mem_filterMap, pipelineByModelKey_eq_some]
  constructor
  · rintro ⟨k, hk, m, hm, rfl, rfl⟩
    exact ⟨m, hm, hk, rfl⟩
  · rintro ⟨m, hm, hk, rfl⟩
    exact ⟨m.key, hk, m, hm, rfl, rfl⟩

theorem mem_managedSources :
    s ∈ managedSources A ↔ s ∈ A.project.sources ∧ A.resourcesByLogicalKey s.key ≠ [] := by
  simp [managedSources]

theorem exists_source_of_mem_keys (hk : k ∈ A.project.keys)
    (htype : k.resourceType = .source) : ∃ s ∈ A.project.sources, s.key = k := by
  rcases mem_append.mp hk with hsource | hmodel
  · exact mem_map.mp hsource
  · obtain ⟨m, hm, rfl⟩ := mem_map.mp hmodel
    rw [A.project.model_key m hm] at htype
    cases htype

theorem mem_pipelineNamesByLogicalName (hs : s ∈ A.project.sources) :
    p ∈ (pipelineNamesByLogicalName A s.key.name).getD [] ↔ Uses A p s.key := by
  have hsources : ∀ s' ∈ A.project.sources.filter (fun s' => s'.key.name = s.key.name),
      s' = s := by
    intro s' hs'
    obtain ⟨hmem, hname⟩ := mem_filter.mp hs'
    exact source_unique hmem hs (by simpa using hname)
  have hself : s ∈ A.project.sources.filter (fun s' => s'.key.name = s.key.name) := by
    simp [hs]
  have hmodels : A.project.models.filter (fun m => m.key.name = s.key.name) = [] := by
    simp only [filter_eq_nil_iff, decide_eq_true_eq]
    intro m hm hname
    exact source_name_ne_model hs hm hname.symm
  have hroots : ∀ r ∈ ({s.key} : Finset LogicalResourceKey), r ∈ A.project.keys := by
    intro r hr
    rw [Finset.mem_singleton.mp hr]
    exact source_mem_keys hs
  have hdown : ∀ k, k ∈ (A.project.sources.filter
        (fun s' => s'.key.name = s.key.name)).flatMap
          (fun s' => A.graph.collectReachableKeys {s'.key} .downstream allDependencyEdgeTypes) ↔
      A.graph.Reads k s.key := by
    intro k
    rw [mem_flatMap]
    constructor
    · rintro ⟨s', hs', hk⟩
      rw [hsources s' hs', ProjectGraph.mem_collect_downstream hroots] at hk
      simpa using hk
    · intro hk
      exact ⟨s, hself, (ProjectGraph.mem_collect_downstream hroots).mpr ⟨s.key, by simp, hk⟩⟩
  have hsome : ¬ (A.project.sources.filter (fun s' => s'.key.name = s.key.name) = []) :=
    ne_nil_of_mem hself
  simp only [pipelineNamesByLogicalName, hmodels, hsome, and_false, if_false, Option.getD_some,
    mem_sortedNames, map_nil, toFinset_nil, Finset.empty_union, Finset.mem_union,
    mem_toFinset, mem_map, mem_filter, decide_eq_true_eq, mem_pipelinesOfKeys, hdown]
  constructor
  · rintro (⟨pipeline, ⟨hpipeline, hname⟩, rfl⟩ | ⟨m, hm, hreads, rfl⟩)
    · obtain ⟨declared, hdeclared, hsame⟩ := Option.map_eq_some_iff.mp hname
      obtain ⟨hmem, m, hm, hp, hreads⟩ := A.source_read pipeline hpipeline declared hdeclared
      rw [source_unique hmem hs hsame] at hreads
      exact ⟨m, hm, hp, hreads⟩
    · exact ⟨m, hm, rfl, hreads⟩
  · rintro ⟨m, hm, rfl, hreads⟩
    exact .inr ⟨m, hm, hreads, rfl⟩

theorem mem_selectedSourceNames {n : String} :
    n ∈ selectedSourceNames A pipelineNames ↔
      ∃ s ∈ managedSources A, s.key.name = n ∧ ∃ p ∈ pipelineNames, Uses A p s.key := by
  simp only [selectedSourceNames, mem_toFinset, mem_filter, mem_append,
    mem_filterMap, mem_map, decide_eq_true_eq, Option.map_eq_some_iff]
  constructor
  · rintro ⟨hname, s, hs, rfl⟩
    have hsource := (mem_managedSources.mp hs).1
    refine ⟨s, hs, rfl, ?_⟩
    rcases hname with ⟨pipeline, ⟨hpipeline, hp⟩, declared, hdeclared, hsame⟩ |
      ⟨k, ⟨hk, htype⟩, hsame⟩
    · obtain ⟨hmem, m, hm, hmp, hreads⟩ := A.source_read pipeline hpipeline declared hdeclared
      rw [source_unique hmem hsource hsame] at hreads
      exact ⟨pipeline.name, hp, m, hm, hmp, hreads⟩
    · obtain ⟨s', hs', rfl⟩ :=
        exists_source_of_mem_keys (ProjectGraph.collectReachableKeys_subset hk) htype
      obtain ⟨r, hr, hreads⟩ := (ProjectGraph.mem_collect_upstream modelKeysOf_subset).mp hk
      obtain ⟨m, hm, hp, rfl⟩ := mem_modelKeysOf.mp hr
      rw [source_unique hs' hsource hsame] at hreads
      exact ⟨m.pipelineName, hp, m, hm, rfl, hreads⟩
  · rintro ⟨s, hs, rfl, p, hp, m, hm, rfl, hreads⟩
    have hsource := (mem_managedSources.mp hs).1
    refine ⟨.inr ⟨s.key, ⟨?_, A.project.source_key s hsource⟩, rfl⟩, s, hs, rfl⟩
    exact (ProjectGraph.mem_collect_upstream modelKeysOf_subset).mpr
      ⟨m.key, mem_modelKeysOf.mpr ⟨m, hm, hp, rfl⟩, hreads⟩

theorem mem_sharedSourcePipelineNames :
    q ∈ sharedSourcePipelineNames A pipelineNames ↔
      ∃ p ∈ pipelineNames, ∃ s ∈ managedSources A, Uses A p s.key ∧ Uses A q s.key := by
  simp only [sharedSourcePipelineNames, Finset.mem_biUnion, mem_selectedSourceNames, mem_toFinset]
  constructor
  · rintro ⟨n, ⟨s, hs, rfl, p, hp, huses⟩, hq⟩
    rw [mem_pipelineNamesByLogicalName (mem_managedSources.mp hs).1] at hq
    exact ⟨p, hp, s, hs, huses, hq⟩
  · rintro ⟨p, hp, s, hs, huses, hq⟩
    refine ⟨s.key.name, ⟨s, hs, rfl, p, hp, huses⟩, ?_⟩
    exact (mem_pipelineNamesByLogicalName (mem_managedSources.mp hs).1).mpr hq

theorem mem_expandRequired {required : Finset String} :
    q ∈ expandRequired A required ↔ q ∈ required ∨ ∃ p ∈ required, DestroyedWith A p q := by
  simp only [expandRequired, Finset.mem_union, mem_pipelinesOfKeys,
    ProjectGraph.mem_collect_downstream modelKeysOf_subset, mem_modelKeysOf,
    mem_sharedSourcePipelineNames, or_assoc]
  apply or_congr_right
  constructor
  · rintro (⟨m, hm, ⟨k, ⟨m', hm', hp, rfl⟩, hreads⟩, rfl⟩ | ⟨p, hp, hshared⟩)
    · exact ⟨m'.pipelineName, hp, .inl ⟨m', hm', rfl, m, hm, rfl, hreads⟩⟩
    · exact ⟨p, hp, .inr hshared⟩
  · rintro ⟨p, hp, ⟨m', hm', rfl, m, hm, rfl, hreads⟩ | hshared⟩
    · exact .inl ⟨m, hm, ⟨m'.key, ⟨m', hm', hp, rfl⟩, hreads⟩, rfl⟩
    · exact .inr ⟨p, hp, hshared⟩

theorem subset_expandRequired (required : Finset String) :
    required ⊆ expandRequired A required := by
  intro p hp
  exact mem_expandRequired.mpr (.inl hp)

theorem expandRequired_mono : Monotone (expandRequired A) := by
  intro s t hst q hq
  rcases mem_expandRequired.mp hq with hmem | ⟨p, hp, hwith⟩
  · exact mem_expandRequired.mpr (.inl (hst hmem))
  · exact mem_expandRequired.mpr (.inr ⟨p, hst hp, hwith⟩)

theorem DestroyedWith.owns_model (h : DestroyedWith A p q) :
    ∃ m ∈ A.project.models, m.pipelineName = q := by
  rcases h with ⟨-, -, -, m, hm, hq, -⟩ | ⟨-, -, -, m, hm, hq, -⟩
  · exact ⟨m, hm, hq⟩
  · exact ⟨m, hm, hq⟩

theorem expandRequired_subset_domain {supplied required : Finset String}
    (h : required ⊆ selectionDomain A supplied) :
    expandRequired A required ⊆ selectionDomain A supplied := by
  intro q hq
  rcases mem_expandRequired.mp hq with hmem | ⟨p, -, hwith⟩
  · exact h hmem
  · obtain ⟨m, hm, rfl⟩ := hwith.owns_model
    apply Finset.mem_union_left
    apply Finset.mem_union_right
    exact mem_toFinset.mpr (mem_map_of_mem hm)

theorem supplied_subset_domain (supplied : Finset String) :
    supplied ⊆ selectionDomain A supplied := by
  intro p hp
  exact Finset.mem_union_left _ (Finset.mem_union_left _ hp)

theorem closedSelection_iff {selection : Finset String} :
    ClosedSelection A selection ↔ expandRequired A selection ⊆ selection := by
  constructor
  · intro h q hq
    rcases mem_expandRequired.mp hq with hmem | ⟨p, hp, hwith⟩
    · exact hmem
    · exact h p hp q hwith
  · intro h p hp q hwith
    exact h (mem_expandRequired.mpr (.inr ⟨p, hp, hwith⟩))

/-- The loop ends by itself. -/
theorem expandRequired_requiredPipelineNames (supplied : Finset String) :
    expandRequired A (requiredPipelineNames A supplied) = requiredPipelineNames A supplied := by
  apply step_saturate subset_expandRequired (selectionDomain A supplied)
  · intro t ht
    exact expandRequired_subset_domain ht
  · exact supplied_subset_domain supplied
  · omega

/-- The required pipelines are the least closed selection around the supplied ones. -/
theorem isLeast_requiredPipelineNames (supplied : Finset String) :
    IsLeast {selection | supplied ⊆ selection ∧ ClosedSelection A selection}
      (requiredPipelineNames A supplied) := by
  simp only [closedSelection_iff]
  apply isLeast_saturate expandRequired_mono subset_expandRequired (selectionDomain A supplied)
  · intro t ht
    exact expandRequired_subset_domain ht
  · exact supplied_subset_domain supplied
  · omega

variable {request : DestructionRequest} {available : List String}

theorem sdiff_supplied (s : Finset String) :
    (s \ request.pipelineNames.toFinset) \ request.includedDependentPipelineNames.toFinset =
      s \ request.supplied := by
  rw [sdiff_sdiff_left, DestructionRequest.supplied, toFinset_append, Finset.sup_eq_union]

theorem resolvePipelineSelection_ok {requested included : List String}
    (hop : request.operation = .destroyPipelines)
    (h : resolvePipelineSelection A request available = .ok (requested, included, affected)) :
    affected = sortedNames request.supplied ∧ ClosedSelection A request.supplied := by
  simp only [resolvePipelineSelection, hop, reduceCtorEq, if_false] at h
  split_ifs at h with hempty hunknown hmissing
  simp only [Except.ok.injEq, Prod.mk.injEq] at h
  have hleast := isLeast_requiredPipelineNames (A := A) request.supplied
  have hsub : requiredPipelineNames A request.supplied ⊆ request.supplied := by
    rw [not_not, sdiff_supplied, sortedNames_eq_nil] at hmissing
    exact Finset.sdiff_eq_empty_iff_subset.mp hmissing
  have hsame : requiredPipelineNames A request.supplied = request.supplied :=
    Finset.Subset.antisymm hsub hleast.1.1
  exact ⟨h.2.2.symm, hsame ▸ hleast.1.2⟩

theorem resolvePipelineSelection_dependency {missing : List String}
    (h : resolvePipelineSelection A request available = .error (.dependency missing)) :
    missing = sortedNames (requiredPipelineNames A request.supplied \ request.supplied) := by
  simp only [resolvePipelineSelection, sdiff_supplied] at h
  split_ifs at h with hreset hnames hempty hunknown hmissing
  · cases h
  · cases h
  · cases h
  · simp only [Except.error.injEq, DestructionError.dependency.injEq] at h
    exact h.symm

/-- The computation does not fail with a dependency error. -/
def NoDependencyError {α : Type} (x : Except DestructionError α) : Prop :=
  ∀ missing, x ≠ .error (.dependency missing)

namespace NoDependencyError

variable {α β : Type} {x : Except DestructionError α}

theorem ok (a : α) : NoDependencyError (.ok a) := by
  intro missing h
  cases h

theorem bind {f : α → Except DestructionError β} (hx : NoDependencyError x)
    (hf : ∀ a, NoDependencyError (f a)) : NoDependencyError (x >>= f) := by
  intro missing h
  rcases bind_eq_error.mp h with hfirst | ⟨a, -, hsecond⟩
  · exact hx missing hfirst
  · exact hf a missing hsecond

theorem map {f : α → β} (hx : NoDependencyError x) : NoDependencyError (x.map f) := by
  intro missing h
  exact hx missing (map_eq_error.mp h)

theorem foldlM {step : β → α → Except DestructionError β} {items : List α} {start : β}
    (hstep : ∀ b a, NoDependencyError (step b a)) :
    NoDependencyError (items.foldlM step start) := by
  intro missing h
  obtain ⟨a, -, b, hfail⟩ := foldlM_error h
  exact hstep b a missing hfail

theorem checkManifestVersions (manifests : List Manifest) :
    NoDependencyError (checkManifestVersions manifests) := by
  intro missing h
  rw [Destruction.checkManifestVersions] at h
  split at h <;> cases h

theorem loadManifestSnapshot (connection : PlanningConnection) :
    NoDependencyError (loadManifestSnapshot A request connection) := by
  intro missing h
  simp only [Destruction.loadManifestSnapshot] at h
  split_ifs at h
  · cases h
  · exact (checkManifestVersions _).map missing h

theorem addHistoricalResource (owned : Owned) (r : ManifestResource) :
    NoDependencyError (addHistoricalResource owned r) := by
  intro missing h
  rw [Destruction.addHistoricalResource] at h
  split at h <;> cases h

variable {connection : PlanningConnection}

theorem addHistoricalManifestRelations {owned : Owned} {catalog : CatalogSnapshot}
    {affected allowPublished : List String} {snapshot : Option ManifestSnapshot} :
    NoDependencyError (addHistoricalManifestRelations A owned request connection catalog affected
      allowPublished snapshot) := by
  apply bind
  · cases snapshot with
    | none => exact loadManifestSnapshot connection
    | some snapshot => exact ok snapshot
  · intro resolved
    split_ifs
    · exact ok owned
    · apply bind (checkManifestVersions _).map
      intro resources
      exact foldlM addHistoricalResource

theorem addMapping (scope : InventoryScope) (owned : Owned) (m : PreparedObjectMapping) :
    NoDependencyError (addMapping scope owned m) := by
  intro missing h
  rw [Destruction.addMapping] at h
  split_ifs at h
  cases h

theorem ownedRelations {scope : RelationScope} :
    NoDependencyError (scope.ownedRelations A request connection) := by
  apply bind
  · unfold RelationScope.manifestRelations
    split_ifs
    · exact addHistoricalManifestRelations
    · exact ok _
  · intro owned
    exact (foldlM (addMapping _)).map

theorem reverseTopologicallyOrderRelations (relations : List DestructionRelationEvidence) :
    NoDependencyError (reverseTopologicallyOrderRelations relations) := by
  intro missing h
  rw [Destruction.reverseTopologicallyOrderRelations] at h
  split at h
  · cases h
  · simp only at h
    split_ifs at h
    cases h

theorem validateDropSizeLimit (limit : Option Int) (relations : List DestructionRelationEvidence) :
    NoDependencyError (validateDropSizeLimit limit relations) := by
  intro missing h
  cases limit with
  | none => cases h
  | some limit =>
    simp only [Destruction.validateDropSizeLimit] at h
    split_ifs at h
    cases h

theorem validateExternalDependants {database : String} {names : Finset String} :
    NoDependencyError (validateExternalDependants connection database names) := by
  intro missing h
  simp only [Destruction.validateExternalDependants] at h
  split_ifs at h
  cases h

theorem planRelationEvidence {scope : RelationScope} {limit : Option Int} :
    NoDependencyError (scope.planRelationEvidence A request connection limit) := by
  apply bind ownedRelations
  intro owned
  apply bind (validateDropSizeLimit _ _)
  intro _
  apply bind validateExternalDependants
  intro _
  apply bind (reverseTopologicallyOrderRelations _)
  intro _
  exact ok _

theorem buildDestructionChallenges (names : List String) (production : Bool) :
    NoDependencyError (buildDestructionChallenges names production) := by
  intro missing h
  simp only [Destruction.buildDestructionChallenges] at h
  split_ifs at h
  cases h

theorem validatedCreatedAt {host : PlanningHost} {now : Option DateTime} {ttl : Int} :
    NoDependencyError (validatedCreatedAt host now ttl) := by
  intro missing h
  simp only [Destruction.validatedCreatedAt] at h
  split_ifs at h <;> cases h

theorem currentPipelineNames : NoDependencyError (currentPipelineNames A request) := by
  intro missing h
  simp only [Destruction.currentPipelineNames] at h
  split at h
  · cases h
  · split_ifs at h
    cases h

theorem historicalSnapshot {current : List String} :
    NoDependencyError (historicalSnapshot A request connection current) := by
  rw [Destruction.historicalSnapshot]
  split_ifs
  · exact (loadManifestSnapshot connection).map
  · exact ok _

end NoDependencyError

theorem planDestruction_dependency {host : PlanningHost} {connection : PlanningConnection}
    {now : Option DateTime} {ttl : Int} {planId : Option String} {missing : List String}
    (h : planDestruction A host request connection now ttl planId =
      .error (.dependency missing)) :
    ∃ available, resolvePipelineSelection A request available = .error (.dependency missing) := by
  simp only [planDestruction, bind_eq_error] at h
  rcases h with h | ⟨_, -, h | ⟨current, -, h | ⟨snapshot, -, h | ⟨selection, -, h⟩⟩⟩⟩
  · exact absurd h (NoDependencyError.validatedCreatedAt missing)
  · exact absurd h (NoDependencyError.currentPipelineNames missing)
  · exact absurd h (NoDependencyError.historicalSnapshot missing)
  · exact ⟨_, h⟩
  · rcases h with h | ⟨_, -, h | ⟨_, -, h⟩⟩
    · exact absurd h (NoDependencyError.planRelationEvidence missing)
    · exact absurd h (NoDependencyError.buildDestructionChallenges _ _ missing)
    · cases h

/-- The sources selected for a destruction are the managed ones that it uses. -/
theorem mem_affectedSourceKeys :
    k ∈ affectedSourceKeys A .destroyPipelines affected ↔
      ∃ s ∈ managedSources A, s.key = k ∧ ∃ p ∈ affected, Uses A p s.key := by
  simp only [affectedSourceKeys, mem_filter, mem_map, mem_filterMap,
    decide_eq_true_eq, Option.map_eq_some_iff, ProjectGraph.mem_collect_upstream modelKeysOf_subset,
    mem_modelKeysOf, mem_toFinset]
  constructor
  · rintro ⟨⟨s, hs, rfl⟩, hread | hdeclared⟩
    · obtain ⟨k, ⟨m, hm, hp, rfl⟩, hreads⟩ := hread
      exact ⟨s, hs, rfl, m.pipelineName, hp, m, hm, rfl, hreads⟩
    · obtain ⟨pipeline, ⟨hpipeline, hp⟩, declared, hdeclared, hsame⟩ := hdeclared
      obtain ⟨-, m, hm, hmp, hreads⟩ := A.source_read pipeline hpipeline declared hdeclared
      exact ⟨s, hs, rfl, pipeline.name, hp, m, hm, hmp, hsame ▸ hreads⟩
  · rintro ⟨s, hs, rfl, p, hp, m, hm, rfl, hreads⟩
    exact ⟨⟨s, hs, rfl⟩, .inl ⟨m.key, ⟨m, hm, hp, rfl⟩, hreads⟩⟩

theorem notMem_historicalSourceNames {snapshot : Option ManifestSnapshot}
    (hs : s ∈ A.project.sources) : s.key.name ∉ (historicalLogicalNames A snapshot affected).2 := by
  cases snapshot with
  | none => simp [historicalLogicalNames]
  | some snapshot =>
    intro h
    simp only [historicalLogicalNames, historicalNamesOfType, mem_map, mem_filter,
      decide_eq_true_eq] at h
    obtain ⟨k, ⟨-, -, -, -, hnot⟩, hname⟩ := h
    exact hnot ⟨s, hs, hname.symm⟩

theorem RelationScope.uses_of_affectedSourceName {scope : RelationScope}
    (hop : request.operation = .destroyPipelines)
    (hs : s ∈ managedSources A) (h : s.key.name ∈ scope.affectedSourceNames A request) :
    ∃ p ∈ scope.affected, Uses A p s.key := by
  have hsource := (mem_managedSources.mp hs).1
  have hcurrent : s.key.name ∈ scope.currentSourceNames A request := by
    simp only [affectedSourceNames] at h
    split_ifs at h
    · simp only [mem_sortedNames, mem_toFinset, mem_append] at h
      exact h.resolve_right (notMem_historicalSourceNames hsource)
    · exact h
  simp only [currentSourceNames, sourceKeys, hop, mem_sortedNames, mem_toFinset,
    mem_map, mem_affectedSourceKeys] at hcurrent
  obtain ⟨k, ⟨s', hs', rfl, huses⟩, hname⟩ := hcurrent
  rw [source_unique (mem_managedSources.mp hs').1 hsource hname] at huses
  exact huses

/-- The plan takes something away from the pipeline: a model that it reads, or a managed
source that it reads. -/
def LosesTo (A : CompileAnalysis) (plan : DestructionPlan) (pipeline : String) : Prop :=
  (∃ m ∈ A.project.models, m.pipelineName ∈ plan.affectedPipelineNames ∧
    Uses A pipeline m.key) ∨
  ∃ s ∈ managedSources A, s.key.name ∈ plan.affectedSourceNames ∧ Uses A pipeline s.key

/-- A successful plan affects every pipeline that it takes something away from; the
pipelines that a failed one reports as missing are those of the least closed selection
around the request that the request does not name; and the search for it ends. -/
theorem planDestruction_closure (host : PlanningHost) (request : DestructionRequest)
    (connection : PlanningConnection) (now : Option DateTime) (ttl : Int)
    (planId : Option String) (hop : request.operation = .destroyPipelines) :
    (∀ plan, planDestruction A host request connection now ttl planId = .ok plan →
      ∀ p, LosesTo A plan p → p ∈ plan.affectedPipelineNames) ∧
    (∀ missing, planDestruction A host request connection now ttl planId =
        .error (.dependency missing) →
      ∃ required, IsLeast {selection | request.supplied ⊆ selection ∧
          ClosedSelection A selection} required ∧
        missing = sortedNames (required \ request.supplied)) ∧
    ∀ supplied, expandRequired A (requiredPipelineNames A supplied) =
      requiredPipelineNames A supplied := by
  refine ⟨?_, ?_, expandRequired_requiredPipelineNames⟩
  · intro plan hplan p hloses
    obtain ⟨current, requested, included, scope, owned, hby⟩ := planDestruction_ok hplan
    obtain ⟨haffected, hclosed⟩ := resolvePipelineSelection_ok hop hby.selected
    have hmem : ∀ q, q ∈ plan.affectedPipelineNames ↔ q ∈ request.supplied := by
      intro q
      rw [hby.affected, haffected, mem_sortedNames]
    rw [hmem]
    rcases hloses with ⟨m, hm, haff, huses⟩ | ⟨s, hs, hname, huses⟩
    · exact hclosed m.pipelineName ((hmem _).mp haff) p (.inl ⟨m, hm, rfl, huses⟩)
    · rw [hby.sources] at hname
      obtain ⟨q, hq, hshares⟩ := scope.uses_of_affectedSourceName hop hs hname
      rw [haffected, mem_sortedNames] at hq
      exact hclosed q hq p (.inr ⟨s, hs, hshares, huses⟩)
  · intro missing hmissing
    obtain ⟨available, hselection⟩ := planDestruction_dependency hmissing
    exact ⟨requiredPipelineNames A request.supplied,
      isLeast_requiredPipelineNames request.supplied,
      resolvePipelineSelection_dependency hselection⟩

/-- A source that lands in its own table, a model that reads it, and a model of another
pipeline that reads the first. -/
def ordersProject : CompiledProject where
  sources := [⟨⟨.source, "events"⟩⟩]
  models := [⟨⟨.model, "stg_orders"⟩, "orders"⟩, ⟨⟨.model, "fct_sales"⟩, "marts"⟩]
  pipelines := [⟨"marts", none⟩, ⟨"orders", some ⟨⟨.source, "events"⟩⟩⟩]
  source_key := by decide
  model_key := by decide
  names_nodup := by decide
  model_pipeline := by decide

def ordersGraph : ProjectGraph ordersProject where
  upstreamEdgesByKey k :=
    if k = ⟨.model, "stg_orders"⟩ then
      [⟨⟨.source, "events"⟩, ⟨.model, "stg_orders"⟩, .drivingInput⟩]
    else if k = ⟨.model, "fct_sales"⟩ then
      [⟨⟨.model, "stg_orders"⟩, ⟨.model, "fct_sales"⟩, .reference⟩]
    else []
  orderedKeys := ordersProject.keys
  edge_downstream := by
    intro k e he
    split_ifs at he with hstaging hmart
    · obtain rfl := mem_singleton.mp he
      exact ⟨hstaging.symm, hstaging ▸ by decide⟩
    · obtain rfl := mem_singleton.mp he
      exact ⟨hmart.symm, hmart ▸ by decide⟩
    · cases he
  edge_upstream := by
    intro k e he
    split_ifs at he
    · obtain rfl := mem_singleton.mp he
      decide
    · obtain rfl := mem_singleton.mp he
      decide
    · cases he
  ordered := fun _ => Iff.rfl

def ordersAnalysis : CompileAnalysis where
  project := ordersProject
  graph := ordersGraph
  resourcesByLogicalKey k :=
    if k = ⟨.source, "events"⟩ then [⟨.table, "raw__events"⟩]
    else if k = ⟨.model, "stg_orders"⟩ then [⟨.table, "t_stg_orders"⟩]
    else if k = ⟨.model, "fct_sales"⟩ then [⟨.view, "v_fct_sales"⟩]
    else []
  projectDirName := "shop"
  manifestPayload := .none
  relation_owner := by decide
  source_read := by
    intro p hp s hs
    simp only [ordersProject, mem_cons, not_mem_nil, or_false] at hp
    rcases hp with rfl | rfl
    · cases hs
    · cases hs
      refine ⟨by decide, ⟨⟨.model, "stg_orders"⟩, "orders"⟩, by decide, rfl, .single ?_⟩
      exact ⟨_, mem_singleton.mpr rfl, rfl⟩

/-- A warehouse with the current relations, no deployments and no history. -/
def ordersConnection : PlanningConnection where
  loadCatalog _ :=
    [⟨"raw__events", "MergeTree", [], none, none, none⟩,
      ⟨"t_stg_orders", "MergeTree", ["raw__events"], none, none, none⟩,
      ⟨"v_fct_sales", "View", ["t_stg_orders"], none, none, none⟩]
  loadDeploymentInventory _ := ⟨[], [], by simp⟩
  loadManifests _ _ _ _ := ⟨.absent, [], none⟩
  loadExternalDependants _ _ := []
  loadRelationDropSizeLimit := none
  loadRelationDropSizeServerDefault := none
  query _ := []

def ordersRequest (pipelineNames included : List String)
    (h : ∀ n ∈ pipelineNames, n ∉ included) : DestructionRequest where
  operation := .destroyPipelines
  target := "dev"
  database := "shop_dev"
  metadataDatabase := "shop_meta"
  pipelineNames := pipelineNames
  includedDependentPipelineNames := included
  includeOrphans := false
  orphans_destroy := by simp
  disjoint := h

def ordersHost : PlanningHost where
  sha256Hexdigest := id
  utcNow := 0
  uuid4Hex := "0"

theorem planDestruction_closure_orders :
    (∃ plan, planDestruction ordersAnalysis ordersHost
        (ordersRequest ["orders"] ["marts"] (by decide)) ordersConnection none 1 none = .ok plan ∧
      ∀ p, LosesTo ordersAnalysis plan p → p ∈ plan.affectedPipelineNames) ∧
    ∃ required, IsLeast {selection | {"orders"} ⊆ selection ∧
        ClosedSelection ordersAnalysis selection} required ∧
      ["marts"] = sortedNames (required \ {"orders"}) := by
  constructor
  · have hok : (planDestruction ordersAnalysis ordersHost
        (ordersRequest ["orders"] ["marts"] (by decide)) ordersConnection none 1 none).isOk :=
      by decide +kernel
    cases hplan : planDestruction ordersAnalysis ordersHost
        (ordersRequest ["orders"] ["marts"] (by decide)) ordersConnection none 1 none with
    | error e =>
      rw [hplan] at hok
      cases hok
    | ok plan =>
      exact ⟨plan, rfl, (planDestruction_closure ordersHost _ ordersConnection none 1 none
        rfl).1 plan hplan⟩
  · exact (planDestruction_closure (A := ordersAnalysis) ordersHost
      (ordersRequest ["orders"] [] (by decide)) ordersConnection none 1 none rfl).2.1 ["marts"]
        (by decide +kernel)

end SqlTide.Destruction
