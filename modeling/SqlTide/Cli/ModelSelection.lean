import SqlTide.Compiler.Lineage

/-!
# What a selection of models includes

A selection is first extended to every model that reads a selected one in the lineage. The
relations of these models are widened downstream along the dependencies of the desired objects,
and the result is closed upstream. The widening by itself goes through tables of driving chains
only: a materialized view reached by a reference from the side brings in its table, but not the
readers of that table. It is the lineage that makes the selection complete.
-/

namespace SqlTide.Cli

open Compiler Foundations List RealizedProject DesiredState

/-- A non-empty choice of models. -/
structure ModelSelection (P : RealizedProject) where
  names : List String
  names_mem : ∀ n ∈ names, n ∈ P.tableModels.map (·.name) ++ P.viewModels.map (·.name)
  nonempty : names ≠ []

/-- `physical_model_keys`: the table or the view of each model. -/
def physicalModelKeys (P : RealizedProject) (names : List String) : List ObjectKey :=
  (P.tableModels.filter (·.name ∈ names)).map (·.tableKey) ++
    (P.viewModels.filter (·.name ∈ names)).map (·.viewKey)

def pipelineModelNames (P : RealizedProject) (pipeline : RealizedPipeline) : List String :=
  (P.tableModels.filter (·.pipelineName = pipeline.name)).map (·.name) ++
    (P.viewModels.filter (·.pipelineName = pipeline.name)).map (·.name)

def pipelineSourceKeys (pipeline : RealizedPipeline) : List ObjectKey :=
  match pipeline.source with
  | none => []
  | some s => s.desiredObjects.map (·.key) ++ [s.relationKey]

section

variable (P : RealizedProject) (selectedModelKeys : List ObjectKey)

/-- The source relations of every pipeline that has a selected model. -/
def selectedSourceKeys : Finset ObjectKey :=
  ((P.pipelines.filter fun pipeline =>
    (physicalModelKeys P (pipelineModelNames P pipeline)).any (· ∈ selectedModelKeys)).flatMap
      pipelineSourceKeys).toFinset

def downstreamKeys : Finset ObjectKey :=
  explore P.desiredState.reverseDeps (P.desiredState.keys.length + selectedModelKeys.length)
    (selectedSourceKeys P selectedModelKeys ∪ selectedModelKeys.toFinset)
    selectedModelKeys

/-- One pass over the included keys: the dependencies of each are included too. -/
def withDependencies (D : DesiredState) (included : Finset ObjectKey) : Finset ObjectKey :=
  included ∪ included.biUnion fun key => (D.depsOf key).toFinset

def expandIncludedKeys : Finset ObjectKey :=
  saturate (withDependencies P.desiredState)
    ((P.desiredState.objects.flatMap (·.deps)).length + 1)
    (downstreamKeys P selectedModelKeys)

end

def filterDesiredState (D : DesiredState) (includedKeys : Finset ObjectKey) :
    Except GraphInputError DesiredState := do
  let orderedKeys ← D.orderDesiredKeys includedKeys
  return {
    objects := orderedKeys.filterMap D.objectByKey
    replayAnchorKeys := D.replayAnchorKeys.filter (· ∈ includedKeys)
    mutableRefWarningKeys := D.mutableRefWarningKeys.filter (· ∈ includedKeys)
    externalSourceReplayConfigs :=
      D.externalSourceReplayConfigs.filter (·.key ∈ includedKeys) }

section

variable {P : RealizedProject} {selectedModelKeys : List ObjectKey} {names : List String}

variable {key : ObjectKey}

theorem mem_physicalModelKeys :
    key ∈ physicalModelKeys P names ↔
      (∃ m ∈ P.tableModels, m.name ∈ names ∧ key = m.tableKey) ∨
        ∃ v ∈ P.viewModels, v.name ∈ names ∧ key = v.viewKey := by
  simp [physicalModelKeys, and_assoc, eq_comm]

theorem physicalModelKeys_subset (h : key ∈ physicalModelKeys P names) :
    key ∈ P.desiredState.keys := by
  rcases mem_physicalModelKeys.mp h with ⟨m, hm, -, rfl⟩ | ⟨v, hv, -, rfl⟩
  · exact tableKey_mem_keys hm
  · exact mem_map.mpr ⟨.view (P.viewModelView v), mem_objects.mpr (.inr (.inr ⟨v, hv, rfl⟩)), rfl⟩

theorem modelRelation_of_mem (h : key ∈ physicalModelKeys P names) : P.ModelRelation key := by
  rcases mem_physicalModelKeys.mp h with ⟨m, hm, -, rfl⟩ | ⟨v, hv, -, rfl⟩
  · exact .inl ⟨m, hm, .inl rfl⟩
  · exact .inr ⟨v, hv, rfl⟩

theorem notMem_sourceKeys (h : P.ModelRelation key) :
    key ∉ selectedSourceKeys P selectedModelKeys := by
  intro hmem
  simp only [selectedSourceKeys, mem_toFinset, mem_flatMap, mem_filter] at hmem
  obtain ⟨pipeline, hpipeline, hkey⟩ := hmem
  unfold pipelineSourceKeys at hkey
  split at hkey
  · simp at hkey
  · next s hs =>
    have hsource := P.pipeline_source pipeline hpipeline.1 s hs
    rcases mem_append.mp hkey with hkey | hkey
    · rcases h with ⟨m, hm, h | h⟩ | ⟨v, hv, h⟩
      · exact (sourceKey_ne hsource hkey hm).1 h
      · exact (sourceKey_ne hsource hkey hm).2 h
      · exact sourceKey_ne_viewModel hkey v h
    · obtain rfl := mem_singleton.mp hkey
      rcases h with ⟨m, hm, h | h⟩ | ⟨v, hv, h⟩
      · exact relationKey_ne_tableKey hsource hm h
      · cases h
      · cases h

theorem mem_downstreamKeys (hselected : ∀ key ∈ selectedModelKeys, P.ModelRelation key ∧
      key ∈ P.desiredState.keys) :
    key ∈ downstreamKeys P selectedModelKeys ↔
      key ∈ selectedSourceKeys P selectedModelKeys ∨
        ∃ root ∈ selectedModelKeys, P.desiredState.Descends root key := by
  have hclosed : ∀ a ∈ {key | P.ModelRelation key}, ∀ b ∈ P.desiredState.reverseDeps a,
      b ∈ {key | P.ModelRelation key} :=
    fun a ha b hb =>
      RealizedProject.ModelRelation.of_dependsOn ha (mem_reverseDeps.mp hb)
  have hunion : downstreamKeys P selectedModelKeys =
      selectedSourceKeys P selectedModelKeys ∪
        explore P.desiredState.reverseDeps
          (P.desiredState.keys.length + selectedModelKeys.length) selectedModelKeys.toFinset
          selectedModelKeys :=
    explore_union hclosed (fun a ha => notMem_sourceKeys ha)
      (fun a ha => (hselected a ha).1) _
  have hexplore : key ∈ explore P.desiredState.reverseDeps
        (P.desiredState.keys.length + selectedModelKeys.length) selectedModelKeys.toFinset
        selectedModelKeys ↔
      ∃ root ∈ selectedModelKeys.toFinset,
        Relation.ReflTransGen (fun a b => b ∈ P.desiredState.reverseDeps a) root key := by
    apply mem_explore P.desiredState.keys.toFinset
    · intro a _ b hb
      exact mem_toFinset.mpr (mem_reverseDeps.mp hb).mem_keys
    · intro a ha
      exact mem_toFinset.mpr (hselected a (mem_toFinset.mp ha)).2
    · intro a
      exact mem_toFinset.symm
    · have := toFinset_card_le P.desiredState.keys
      omega
  rw [hunion, Finset.mem_union, hexplore]
  simp only [mem_reverseDeps, mem_toFinset]
  rfl

theorem mem_withDependencies {D : DesiredState} {included : Finset ObjectKey} :
    key ∈ withDependencies D included ↔
      key ∈ included ∨ ∃ k ∈ included, key ∈ D.depsOf k := by
  simp [withDependencies]

theorem depsOf_subset {dep : ObjectKey} (h : dep ∈ P.desiredState.depsOf key) :
    dep ∈ (P.desiredState.objects.flatMap (·.deps)).toFinset := by
  obtain ⟨object, hobject, -, hdep⟩ := (mem_depsOf nodup_keys).mp h
  exact mem_toFinset.mpr (mem_flatMap.mpr ⟨object, hobject, hdep⟩)

theorem downstreamKeys_subset :
    downstreamKeys P selectedModelKeys ⊆
      expandIncludedKeys P selectedModelKeys :=
  subset_saturate (fun _ => Finset.subset_union_left) _ _

theorem expandIncludedKeys_closed {k k' : ObjectKey}
    (hk : k ∈ expandIncludedKeys P selectedModelKeys) (hdep : P.desiredState.DependsOn k k') :
    k' ∈ expandIncludedKeys P selectedModelKeys := by
  have hstable : withDependencies P.desiredState (expandIncludedKeys P selectedModelKeys)
      = expandIncludedKeys P selectedModelKeys := by
    apply step_saturate (fun _ => Finset.subset_union_left)
      (downstreamKeys P selectedModelKeys ∪
        (P.desiredState.objects.flatMap (·.deps)).toFinset)
    · intro t ht key hkey
      rcases mem_withDependencies.mp hkey with hkey | ⟨k, -, hkey⟩
      · exact ht hkey
      · exact Finset.mem_union_right _ (depsOf_subset hkey)
    · exact Finset.subset_union_left
    · have hunion := Finset.card_union_le (downstreamKeys P selectedModelKeys)
        (P.desiredState.objects.flatMap (·.deps)).toFinset
      have hdeps := toFinset_card_le (P.desiredState.objects.flatMap (·.deps))
      omega
  rw [← hstable]
  exact mem_withDependencies.mpr (.inr ⟨k, hk, (mem_depsOf nodup_keys).mpr hdep⟩)

theorem expandIncludedKeys_subset (h : key ∈ expandIncludedKeys P selectedModelKeys) :
    key ∈ downstreamKeys P selectedModelKeys ∨ ∃ k, P.desiredState.DependsOn k key := by
  have hmono : Monotone (withDependencies P.desiredState) := by
    intro s t hst key hkey
    rcases mem_withDependencies.mp hkey with hkey | ⟨k, hk, hkey⟩
    · exact mem_withDependencies.mpr (.inl (hst hkey))
    · exact mem_withDependencies.mpr (.inr ⟨k, hst hk, hkey⟩)
  have hsub := saturate_subset hmono (s := downstreamKeys P selectedModelKeys)
    (t := downstreamKeys P selectedModelKeys ∪
      (P.desiredState.objects.flatMap (·.deps)).toFinset) Finset.subset_union_left (by
      intro key hkey
      rcases mem_withDependencies.mp hkey with hkey | ⟨k, -, hkey⟩
      · exact hkey
      · exact Finset.mem_union_right _ (depsOf_subset hkey)) _ h
  rcases Finset.mem_union.mp hsub with hsub | hsub
  · exact .inl hsub
  · obtain ⟨object, hobject, hdep⟩ := mem_flatMap.mp (mem_toFinset.mp hsub)
    exact .inr ⟨object.key, object, hobject, rfl, hdep⟩

theorem mem_expandIncludedKeys_view
    (hview : key.objectType = .materializedView ∨ key.objectType = .view) :
    key ∈ expandIncludedKeys P selectedModelKeys ↔
      key ∈ downstreamKeys P selectedModelKeys := by
  refine ⟨fun h => ?_, fun h => downstreamKeys_subset h⟩
  rcases expandIncludedKeys_subset h with h | ⟨k, hdep⟩
  · exact h
  · rcases dependsOn_objectType hdep with htable | hkafka
    · simp [htable] at hview
    · simp [hkafka] at hview

theorem exists_filterDesiredState (included : Finset ObjectKey) :
    ∃ filtered, filterDesiredState P.desiredState included = .ok filtered ∧
      ∀ key, key ∈ filtered.keys ↔ key ∈ P.desiredState.keys ∧ key ∈ included := by
  obtain ⟨ordered, hok, -, hmem, -⟩ := orderDesiredKeys_eq_ok
    nodup_keys (fun k k' h => keyRank_lt h) included
  refine ⟨_, by rw [filterDesiredState, hok]; rfl, ?_⟩
  intro key
  rw [← hmem]
  simp only [DesiredState.keys, mem_map, mem_filterMap]
  constructor
  · rintro ⟨object, ⟨k, hk, hobject⟩, rfl⟩
    exact (objectByKey_eq_some.mp hobject).2 ▸ hk
  · intro hkey
    obtain ⟨object, hobject, rfl⟩ := mem_map.mp ((hmem key).mp hkey).1
    exact ⟨object, ⟨_, hkey, objectByKey_eq_some.mpr ⟨hobject, rfl⟩⟩, rfl⟩

/-- The relations of every model that reads one of the named models are included, what is
included is closed under dependencies, and the filtered desired state has all these
relations. -/
structure Covers (P : RealizedProject) (names : List String) (included : Finset ObjectKey) :
    Prop where
  readers : ∀ n ∈ names, ∀ x, P.Reads x n → ∀ key ∈ P.relationKeys x, key ∈ included
  closed : ∀ k ∈ included, ∀ k', P.desiredState.DependsOn k k' → k' ∈ included
  filtered : ∃ filtered, filterDesiredState P.desiredState included = .ok filtered ∧
    ∀ n ∈ names, ∀ x, P.Reads x n → ∀ key ∈ P.relationKeys x, key ∈ filtered.keys

theorem covers_of_readers (h : ∀ n ∈ names, ∀ x, P.Reads x n → ∀ key ∈ P.relationKeys x,
      key ∈ expandIncludedKeys P selectedModelKeys) :
    Covers P names (expandIncludedKeys P selectedModelKeys) := by
  refine ⟨h, fun k hk k' hdep => expandIncludedKeys_closed hk hdep, ?_⟩
  obtain ⟨filtered, hok, hmem⟩ := exists_filterDesiredState (P := P)
    (expandIncludedKeys P selectedModelKeys)
  refine ⟨filtered, hok, fun n hn x hreads key hkey => ?_⟩
  refine (hmem key).mpr ⟨?_, h n hn x hreads key hkey⟩
  rcases mem_relationKeys.mp hkey with ⟨m, hm, -, rfl | rfl⟩ | ⟨v, hv, -, rfl⟩
  · exact tableKey_mem_keys hm
  · exact viewKey_mem_keys hm
  · exact mem_map.mpr ⟨.view (P.viewModelView v), mem_objects.mpr (.inr (.inr ⟨v, hv, rfl⟩)), rfl⟩

/-- The model refers to a relation on a driving chain from one of the named table models. -/
def RefersToChain (P : RealizedProject) (names : List String) (x : String) : Prop :=
  ∃ r, P.Refers x r ∧ ∃ m ∈ P.tableModels, m.name ∈ names ∧
    ∃ key, P.relationKeyByName r = some key ∧ P.DrivenFrom m.tableKey key

/-- Where the widening reaches from a selected relation. -/
theorem drivenFrom_selected {root d : ObjectKey} (hroot : root ∈ physicalModelKeys P names)
    (hdriven : P.DrivenFrom root d) (htable : d.objectType = .table) :
    ∃ m ∈ P.tableModels, m.name ∈ names ∧ root = m.tableKey := by
  rcases mem_physicalModelKeys.mp hroot with ⟨m, hm, hname, rfl⟩ | ⟨v, -, -, rfl⟩
  · exact ⟨m, hm, hname, rfl⟩
  · rcases Relation.ReflTransGen.cases_head hdriven with rfl | ⟨b, ⟨m, -, -, hkey⟩, -⟩
    · cases htable
    · cases relationKeyByName_objectType hkey

theorem selected_relations : ∀ key ∈ physicalModelKeys P names, P.ModelRelation key ∧
    key ∈ P.desiredState.keys :=
  fun _ h => ⟨modelRelation_of_mem h, physicalModelKeys_subset h⟩

/-- The widening reaches the view of a table model that is selected or refers to a driving
chain from a selected model. -/
theorem mem_downstreamKeys_tableModel {m : RealizedTableModel} (hm : m ∈ P.tableModels) :
    m.viewKey ∈ downstreamKeys P (physicalModelKeys P names) ↔
      m.name ∈ names ∨ RefersToChain P names m.name := by
  have hrelation : P.ModelRelation m.viewKey := .inl ⟨m, hm, .inr rfl⟩
  rw [mem_downstreamKeys selected_relations, or_iff_right (notMem_sourceKeys hrelation)]
  constructor
  · rintro ⟨root, hroot, hdescends⟩
    rcases descends_iff.mp hdescends with rfl | ⟨d, hdriven, hdep⟩
    · rcases mem_physicalModelKeys.mp hroot with ⟨m', -, -, h⟩ | ⟨v, -, -, h⟩
      · cases h
      · cases h
    · rcases (viewOfModel_dependsOn_iff hm).mp hdep with href | rfl
      · obtain ⟨r, hr, hkey⟩ := mem_refKeys.mp href
        obtain ⟨m', hm', hname, rfl⟩ := drivenFrom_selected hroot hdriven
          (relationKeyByName_objectType hkey)
        exact .inr ⟨r, .inl ⟨m, hm, rfl, hr⟩, m', hm', hname, d, hkey, hdriven⟩
      · obtain ⟨m', hm', hname, rfl⟩ := drivenFrom_selected hroot hdriven rfl
        rcases (drivenFrom_tableKey hm).mp hdriven with heq | ⟨key, hkey, hdriven⟩
        · exact .inl (tableKey_unique hm' hm heq ▸ hname)
        · exact .inr ⟨m.source, .inl ⟨m, hm, rfl, P.driving_parsed m hm⟩, m', hm', hname, key,
            hkey, hdriven⟩
  · rintro (hname | ⟨r, hr, m', hm', hname, key, hkey, hdriven⟩)
    · refine ⟨m.tableKey, mem_physicalModelKeys.mpr (.inl ⟨m, hm, hname, rfl⟩), ?_⟩
      exact descends_iff.mpr (.inr ⟨m.tableKey, .refl, viewOfModel_dependsOn hm (.inr rfl)⟩)
    · refine ⟨m'.tableKey, mem_physicalModelKeys.mpr (.inl ⟨m', hm', hname, rfl⟩), ?_⟩
      have href : r ∈ m.parsedRefs := by
        rcases hr with ⟨m₂, hm₂, heq, href⟩ | ⟨v, hv, heq, -⟩
        · exact tableModel_unique hm₂ hm heq ▸ href
        · exact absurd heq.symm (tableModel_name_ne hm hv)
      exact descends_iff.mpr (.inr ⟨key, hdriven,
        viewOfModel_dependsOn hm
          (.inl (mem_refKeys.mpr ⟨r, href, hkey⟩))⟩)

theorem mem_downstreamKeys_viewModel {v : RealizedViewModel} (hv : v ∈ P.viewModels) :
    v.viewKey ∈ downstreamKeys P (physicalModelKeys P names) ↔
      v.name ∈ names ∨ RefersToChain P names v.name := by
  have hrelation : P.ModelRelation v.viewKey := .inr ⟨v, hv, rfl⟩
  have hrefers : ∀ r, P.Refers v.name r ↔ r ∈ v.parsedRefs := by
    intro r
    constructor
    · rintro (⟨m, hm, heq, -⟩ | ⟨v', hv', heq, href⟩)
      · exact absurd heq (tableModel_name_ne hm hv)
      · exact viewModel_unique hv' hv heq ▸ href
    · exact fun href => .inr ⟨v, hv, rfl, href⟩
  rw [mem_downstreamKeys selected_relations, or_iff_right (notMem_sourceKeys hrelation)]
  constructor
  · rintro ⟨root, hroot, hdescends⟩
    rcases descends_iff.mp hdescends with rfl | ⟨d, hdriven, hdep⟩
    · rcases mem_physicalModelKeys.mp hroot with ⟨m, -, -, h⟩ | ⟨v', hv', hname, h⟩
      · cases h
      · have hnodup := (nodup_append.mp P.relationNames_nodup).2.1
        obtain rfl := inj_on_of_nodup_map hnodup hv hv' (congrArg ObjectKey.name h)
        exact .inl hname
    · obtain ⟨r, hr, hkey⟩ := mem_refKeys.mp ((viewModel_dependsOn_iff hv).mp hdep)
      obtain ⟨m, hm, hname, rfl⟩ := drivenFrom_selected hroot hdriven
        (relationKeyByName_objectType hkey)
      exact .inr ⟨r, (hrefers r).mpr hr, m, hm, hname, d, hkey, hdriven⟩
  · rintro (hname | ⟨r, hr, m, hm, hname, key, hkey, hdriven⟩)
    · exact ⟨v.viewKey, mem_physicalModelKeys.mpr (.inr ⟨v, hv, hname, rfl⟩), .refl⟩
    · refine ⟨m.tableKey, mem_physicalModelKeys.mpr (.inl ⟨m, hm, hname, rfl⟩), ?_⟩
      exact descends_iff.mpr (.inr ⟨key, hdriven,
        viewModel_dependsOn hv
          (mem_refKeys.mpr ⟨r, (hrefers r).mp hr, hkey⟩)⟩)

/-- The relations of a model are included just if the widening reaches the model. -/
theorem relationKeys_included {x : String}
    (hx : x ∈ P.tableModels.map (·.name) ++ P.viewModels.map (·.name)) :
    (∀ key ∈ P.relationKeys x, key ∈ expandIncludedKeys P (physicalModelKeys P names)) ↔
      x ∈ names ∨ RefersToChain P names x := by
  rcases mem_append.mp hx with hx | hx
  · obtain ⟨m, hm, rfl⟩ := mem_map.mp hx
    have hreach : m.viewKey ∈ downstreamKeys P (physicalModelKeys P names) ↔ _ :=
      mem_downstreamKeys_tableModel hm
    rw [← hreach, ← mem_expandIncludedKeys_view (.inl rfl)]
    constructor
    · intro h
      exact h _ (mem_relationKeys.mpr (.inl ⟨m, hm, rfl, .inr rfl⟩))
    · intro h key hkey
      rcases mem_relationKeys.mp hkey with ⟨m', hm', heq, hrelation⟩ | ⟨v, hv, heq, -⟩
      · obtain rfl := tableModel_unique hm' hm heq
        rcases hrelation with rfl | rfl
        · exact expandIncludedKeys_closed h (viewOfModel_dependsOn hm (.inr rfl))
        · exact h
      · exact absurd heq.symm (tableModel_name_ne hm hv)
  · obtain ⟨v, hv, rfl⟩ := mem_map.mp hx
    have hreach : v.viewKey ∈ downstreamKeys P (physicalModelKeys P names) ↔ _ :=
      mem_downstreamKeys_viewModel hv
    rw [← hreach, ← mem_expandIncludedKeys_view (.inr rfl)]
    constructor
    · intro h
      exact h _ (mem_relationKeys.mpr (.inr ⟨v, hv, rfl, rfl⟩))
    · intro h key hkey
      rcases mem_relationKeys.mp hkey with ⟨m, hm, heq, -⟩ | ⟨v', hv', heq, rfl⟩
      · exact absurd heq (tableModel_name_ne hm hv)
      · exact viewModel_unique hv' hv heq ▸ h

end

theorem mem_models_of_reads {P : RealizedProject} (selection : ModelSelection P) {n x : String}
    (hn : n ∈ selection.names) (hreads : P.Reads x n) :
    x ∈ P.tableModels.map (·.name) ++ P.viewModels.map (·.name) := by
  rcases Relation.ReflTransGen.cases_head hreads with rfl | ⟨r, hrefers, -⟩
  · exact selection.names_mem x hn
  · rcases hrefers with ⟨m, hm, rfl, -⟩ | ⟨v, hv, rfl, -⟩
    · exact mem_append_left _ (mem_map_of_mem hm)
    · exact mem_append_right _ (mem_map_of_mem hv)

/-- On its own, the expansion of a selection covers the readers just if every one of them is
selected too, or refers itself to a relation on a driving chain from a selected model. -/
theorem covers_expandIncludedKeys_iff (P : RealizedProject) (selection : ModelSelection P) :
    Covers P selection.names (expandIncludedKeys P (physicalModelKeys P selection.names)) ↔
      ∀ n ∈ selection.names, ∀ x, P.Reads x n →
        x ∈ selection.names ∨ RefersToChain P selection.names x := by
  constructor
  · intro h n hn x hreads
    exact (relationKeys_included (mem_models_of_reads selection hn hreads)).mp
      (h.readers n hn x hreads)
  · intro h
    refine covers_of_readers fun n hn x hreads => ?_
    exact (relationKeys_included (mem_models_of_reads selection hn hreads)).mpr (h n hn x hreads)

/-- The names of the models that are executed for a selection: what the lineage reaches
downstream from the selected models. -/
def executionModelNames (P : RealizedProject) (selection : ModelSelection P) : List String :=
  ((P.lineageGraph.collectReachableKeys (selection.names.map P.logicalKey).toFinset .downstream
    allDependencyEdgeTypes).filter (·.resourceType = .model)).map (·.name)

/-- The included keys of `resolve_selection`. -/
def includedKeys (P : RealizedProject) (selection : ModelSelection P) : Finset ObjectKey :=
  expandIncludedKeys P (physicalModelKeys P (executionModelNames P selection))

theorem mem_executionModelNames {P : RealizedProject} (selection : ModelSelection P) {n x : String}
    (hn : n ∈ selection.names) (hreads : P.Reads x n) : x ∈ executionModelNames P selection := by
  have hkey := logicalKey_model (mem_models_of_reads selection hn hreads)
  refine mem_map.mpr ⟨P.logicalKey x, mem_filter.mpr ⟨?_, ?_⟩, rfl⟩
  · refine (mem_collect_readers ?_).mpr ⟨n, hn, hreads⟩
    intro n' hn'
    exact P.names_ordered.mem_iff.mpr (mem_append_right _ (selection.names_mem n' hn'))
  · simp [hkey]

/-- What is included for a selection covers every model that reads a selected one. -/
theorem covers_includedKeys (P : RealizedProject) (selection : ModelSelection P) :
    Covers P selection.names (includedKeys P selection) := by
  refine covers_of_readers fun n hn x hreads => ?_
  have hmodel := mem_models_of_reads selection hn hreads
  exact (relationKeys_included hmodel).mpr (.inl (mem_executionModelNames selection hn hreads))

end SqlTide.Cli
