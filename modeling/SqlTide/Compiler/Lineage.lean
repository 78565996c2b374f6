import SqlTide.Compiler.DesiredGraph
import SqlTide.Compiler.ProjectGraph

/-!
# The lineage graph of a realized project

The logical sources and models behind a realized project, with one typed edge for every
reference of a query. A model reads another in the lineage just if its query refers to it,
directly or through others.
-/

namespace SqlTide.Compiler

open Foundations List

namespace RealizedProject

variable (P : RealizedProject)

def logicalKey (name : String) : LogicalResourceKey :=
  ⟨if name ∈ P.sources.map (·.name) then .source else .model, name⟩

variable {P}

theorem logicalKey_source {s : RealizedSource} (hs : s ∈ P.sources) :
    P.logicalKey s.name = ⟨.source, s.name⟩ := by
  simp only [logicalKey, if_pos (mem_map_of_mem hs)]

variable {name reader : String} {key : LogicalResourceKey}

theorem logicalKey_model (h : name ∈ P.tableModels.map (·.name) ++ P.viewModels.map (·.name)) :
    P.logicalKey name = ⟨.model, name⟩ := by
  have hnot : name ∉ P.sources.map (·.name) :=
    fun hsource => (nodup_append.mp P.names_nodup).2.2 name hsource name h rfl
  simp only [logicalKey, if_neg hnot]

variable (P)

def compiledProject : CompiledProject where
  sources := P.sources.map fun s => ⟨⟨.source, s.name⟩⟩
  models := P.tableModels.map (fun m => ⟨⟨.model, m.name⟩, m.pipelineName⟩) ++
    P.viewModels.map fun v => ⟨⟨.model, v.name⟩, v.pipelineName⟩
  pipelines := P.pipelines.map fun pipeline =>
    ⟨pipeline.name, pipeline.source.map fun s => ⟨⟨.source, s.name⟩⟩⟩
  source_key := by simp
  model_key := by
    intro m hm
    rcases mem_append.mp hm with hm | hm
    · obtain ⟨model, -, rfl⟩ := mem_map.mp hm
      rfl
    · obtain ⟨view, -, rfl⟩ := mem_map.mp hm
      rfl
  names_nodup := by simpa [Function.comp_def] using P.names_nodup
  model_pipeline := by
    intro m hm
    simp only [map_map, Function.comp_def]
    refine P.pipeline_listed m.pipelineName ?_
    rcases mem_append.mp hm with hm | hm
    · obtain ⟨model, hmodel, rfl⟩ := mem_map.mp hm
      exact mem_append_left _ (mem_map_of_mem hmodel)
    · obtain ⟨view, hview, rfl⟩ := mem_map.mp hm
      exact mem_append_right _ (mem_map_of_mem hview)

theorem mem_compiledProject_keys :
    key ∈ P.compiledProject.keys ↔ ∃ name ∈ P.orderedNames, key = P.logicalKey name := by
  constructor
  · intro h
    simp only [CompiledProject.keys, compiledProject, map_append, map_map, mem_append, mem_map] at h
    rcases h with ⟨s, hs, rfl⟩ | ⟨m, hm, rfl⟩ | ⟨v, hv, rfl⟩
    · refine ⟨s.name, P.names_ordered.mem_iff.mpr ?_, (logicalKey_source hs).symm⟩
      exact mem_append_left _ (mem_map_of_mem hs)
    · refine ⟨m.name, P.names_ordered.mem_iff.mpr ?_, (logicalKey_model ?_).symm⟩
      · exact mem_append_right _ (mem_append_left _ (mem_map_of_mem hm))
      · exact mem_append_left _ (mem_map_of_mem hm)
    · refine ⟨v.name, P.names_ordered.mem_iff.mpr ?_, (logicalKey_model ?_).symm⟩
      · exact mem_append_right _ (mem_append_right _ (mem_map_of_mem hv))
      · exact mem_append_right _ (mem_map_of_mem hv)
  · rintro ⟨name, hname, rfl⟩
    rcases mem_append.mp (P.names_ordered.mem_iff.mp hname) with h | h
    · obtain ⟨s, hs, rfl⟩ := mem_map.mp h
      rw [logicalKey_source hs]
      simp only [CompiledProject.keys, compiledProject, map_map, mem_append, mem_map]
      exact .inl ⟨s, hs, rfl⟩
    · rw [logicalKey_model h]
      simp only [CompiledProject.keys, compiledProject, map_append, map_map, mem_append, mem_map]
      rcases mem_append.mp h with h | h
      · obtain ⟨m, hm, rfl⟩ := mem_map.mp h
        exact .inr (.inl ⟨m, hm, rfl⟩)
      · obtain ⟨v, hv, rfl⟩ := mem_map.mp h
        exact .inr (.inr ⟨v, hv, rfl⟩)

/-- `_edge_type` of a reference of a table model. -/
def edgeType (m : RealizedTableModel) (name : String) : DependencyEdgeType :=
  if name = m.source then .drivingInput
  else if name ∈ m.mutableRefs then .mutableReference
  else .reference

def upstreamEdge (P : RealizedProject) (reader : String) (edgeType : String → DependencyEdgeType)
    (name : String) : DependencyEdge :=
  { upstreamKey := P.logicalKey name
    downstreamKey := P.logicalKey reader
    edgeType := edgeType name }

/-- `_model_upstream_edges`: one edge for each resource that the query refers to. -/
def modelUpstreamEdges (reader : String) (edgeType : String → DependencyEdgeType)
    (parsedRefs : List String) : List DependencyEdge :=
  sortedBy
    (fun e => [e.upstreamKey.resourceType.value, e.upstreamKey.name, e.edgeType.value])
    (parsedRefs.eraseDups.map (P.upstreamEdge reader edgeType))

/-- `build_lineage_upstream_edges`. -/
def lineageUpstreamEdges (key : LogicalResourceKey) : List DependencyEdge :=
  (P.tableModels.filter fun m => P.logicalKey m.name = key).flatMap
      (fun m => P.modelUpstreamEdges m.name (edgeType m) m.parsedRefs) ++
    (P.viewModels.filter fun v => P.logicalKey v.name = key).flatMap
      fun v => P.modelUpstreamEdges v.name (fun _ => .reference) v.parsedRefs

theorem mem_lineageUpstreamEdges {e : DependencyEdge} :
    e ∈ P.lineageUpstreamEdges key ↔
      (∃ m ∈ P.tableModels, P.logicalKey m.name = key ∧
        ∃ r ∈ m.parsedRefs, e = P.upstreamEdge m.name (edgeType m) r) ∨
      ∃ v ∈ P.viewModels, P.logicalKey v.name = key ∧
        ∃ r ∈ v.parsedRefs, e = P.upstreamEdge v.name (fun _ => .reference) r := by
  simp [lineageUpstreamEdges, modelUpstreamEdges, and_assoc, mem_eraseDups, eq_comm]

theorem mem_orderedNames
    (h : name ∈ P.sources.map (·.name) ++ P.tableModels.map (·.name)) : name ∈ P.orderedNames := by
  refine P.names_ordered.mem_iff.mpr ?_
  rw [← append_assoc]
  exact mem_append_left _ h

def lineageGraph : ProjectGraph P.compiledProject where
  upstreamEdgesByKey := P.lineageUpstreamEdges
  orderedKeys := P.orderedNames.map P.logicalKey
  edge_downstream := by
    intro k e he
    rw [mem_compiledProject_keys]
    rcases P.mem_lineageUpstreamEdges.mp he with ⟨m, hm, rfl, r, -, rfl⟩ | ⟨v, hv, rfl, r, -, rfl⟩
    · refine ⟨rfl, m.name, P.names_ordered.mem_iff.mpr ?_, rfl⟩
      exact mem_append_right _ (mem_append_left _ (mem_map_of_mem hm))
    · refine ⟨rfl, v.name, P.names_ordered.mem_iff.mpr ?_, rfl⟩
      exact mem_append_right _ (mem_append_right _ (mem_map_of_mem hv))
  edge_upstream := by
    intro k e he
    rw [mem_compiledProject_keys]
    rcases P.mem_lineageUpstreamEdges.mp he with ⟨m, hm, rfl, r, hr, rfl⟩ | ⟨v, hv, rfl, r, hr, rfl⟩
    · exact ⟨r, P.mem_orderedNames (P.refs_resolve m hm r hr), rfl⟩
    · exact ⟨r, P.mem_orderedNames (P.view_refs_resolve v hv r hr), rfl⟩
  ordered := by
    intro k
    rw [mem_compiledProject_keys, mem_map]
    simp only [eq_comm]

variable {P}

theorem logicalKey_injective : Function.Injective P.logicalKey :=
  fun _ _ h => congrArg LogicalResourceKey.name h

theorem directlyReads_iff :
    P.lineageGraph.DirectlyReads (P.logicalKey reader) (P.logicalKey name) ↔
      P.Refers reader name := by
  constructor
  · rintro ⟨e, he, hupstream⟩
    rcases P.mem_lineageUpstreamEdges.mp he with ⟨m, hm, hkey, r, hr, rfl⟩ |
      ⟨v, hv, hkey, r, hr, rfl⟩
    · obtain rfl := logicalKey_injective hupstream
      exact .inl ⟨m, hm, logicalKey_injective hkey, hr⟩
    · obtain rfl := logicalKey_injective hupstream
      exact .inr ⟨v, hv, logicalKey_injective hkey, hr⟩
  · rintro (⟨m, hm, rfl, hr⟩ | ⟨v, hv, rfl, hr⟩)
    · exact ⟨P.upstreamEdge m.name (edgeType m) name,
        P.mem_lineageUpstreamEdges.mpr (.inl ⟨m, hm, rfl, name, hr, rfl⟩), rfl⟩
    · exact ⟨P.upstreamEdge v.name (fun _ => .reference) name,
        P.mem_lineageUpstreamEdges.mpr (.inr ⟨v, hv, rfl, name, hr, rfl⟩), rfl⟩

theorem lineage_reads_iff :
    P.lineageGraph.Reads (P.logicalKey reader) (P.logicalKey name) ↔ P.Reads reader name := by
  constructor
  · intro h
    have hall : ∀ key, P.lineageGraph.Reads key (P.logicalKey name) → ∀ x,
        key = P.logicalKey x → P.Reads x name := by
      intro key hreads
      induction hreads using Relation.ReflTransGen.head_induction_on with
      | refl =>
        intro x hx
        exact logicalKey_injective hx ▸ .refl
      | head hstep _ ih =>
        rintro x rfl
        obtain ⟨r, -, rfl⟩ := P.mem_compiledProject_keys.mp hstep.mem_keys.2
        exact .head (directlyReads_iff.mp hstep) (ih r rfl)
    exact hall _ h reader rfl
  · intro h
    exact Relation.ReflTransGen.lift P.logicalKey (fun _ _ => directlyReads_iff.mpr) _ _ h

/-- Downstream over all edges, the search from some models finds their readers. -/
theorem mem_collect_readers {names : List String} (hnames : ∀ n ∈ names, n ∈ P.orderedNames)
    {x : String} :
    P.logicalKey x ∈ P.lineageGraph.collectReachableKeys (names.map P.logicalKey).toFinset
        .downstream allDependencyEdgeTypes ↔
      ∃ n ∈ names, P.Reads x n := by
  rw [ProjectGraph.mem_collect_downstream]
  · simp only [mem_toFinset, mem_map, exists_exists_and_eq_and, lineage_reads_iff]
  · intro r hr
    obtain ⟨n, hn, rfl⟩ := mem_map.mp (mem_toFinset.mp hr)
    exact P.mem_compiledProject_keys.mpr ⟨n, hnames n hn, rfl⟩

end RealizedProject

end SqlTide.Compiler
