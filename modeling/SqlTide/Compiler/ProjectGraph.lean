import SqlTide.Foundations.Reachability
import SqlTide.Foundations.Sorting

/-!
# Compiled projects and their lineage graph

The logical sources and models of a compiled project, and the typed graph over
them. What compilation has checked is carried by the structures: logical names
are unique, every model belongs to a pipeline, every edge joins two resources of
the project, and every resource is in the order. A key `reads` another one when
it can be reached against the direction of the data.
-/

namespace SqlTide.Compiler

open Foundations List

inductive LogicalResourceType
  | source
  | model
  deriving DecidableEq, Repr

def LogicalResourceType.value : LogicalResourceType → String
  | .source => "source"
  | .model => "model"

structure LogicalResourceKey where
  resourceType : LogicalResourceType
  name : String
  deriving DecidableEq, Repr

structure CompiledSource where
  key : LogicalResourceKey
  deriving DecidableEq, Repr

structure CompiledModel where
  key : LogicalResourceKey
  pipelineName : String
  deriving DecidableEq, Repr

/-- A pipeline, with the source its driving inputs lead to. -/
structure CompiledPipeline where
  name : String
  source : Option CompiledSource
  deriving DecidableEq, Repr

structure CompiledProject where
  sources : List CompiledSource
  models : List CompiledModel
  pipelines : List CompiledPipeline
  projectName : Option String := none
  targetName : Option String := none
  productionTarget : Bool := false
  destructionRelationDropSizeLimit : Option Int := none
  source_key : ∀ s ∈ sources, s.key.resourceType = .source
  model_key : ∀ m ∈ models, m.key.resourceType = .model
  names_nodup : (sources.map (·.key.name) ++ models.map (·.key.name)).Nodup
  model_pipeline : ∀ m ∈ models, m.pipelineName ∈ pipelines.map (·.name)

namespace CompiledProject

variable (P : CompiledProject)

def keys : List LogicalResourceKey := P.sources.map (·.key) ++ P.models.map (·.key)

variable {P}

theorem model_unique {m m' : CompiledModel} (hm : m ∈ P.models) (hm' : m' ∈ P.models)
    (h : m.key = m'.key) : m = m' := by
  have hnodup : (P.models.map (·.key.name)).Nodup := (nodup_append.mp P.names_nodup).2.1
  exact inj_on_of_nodup_map hnodup hm hm' (congrArg LogicalResourceKey.name h)

theorem source_unique {s s' : CompiledSource} (hs : s ∈ P.sources) (hs' : s' ∈ P.sources)
    (h : s.key.name = s'.key.name) : s = s' := by
  have hnodup : (P.sources.map (·.key.name)).Nodup := (nodup_append.mp P.names_nodup).1
  exact inj_on_of_nodup_map hnodup hs hs' h

theorem source_name_ne_model {s : CompiledSource} {m : CompiledModel} (hs : s ∈ P.sources)
    (hm : m ∈ P.models) : s.key.name ≠ m.key.name :=
  (nodup_append.mp P.names_nodup).2.2 _ (mem_map_of_mem hs) _ (mem_map_of_mem hm)

theorem source_mem_keys {s : CompiledSource} (hs : s ∈ P.sources) : s.key ∈ P.keys :=
  mem_append_left _ (mem_map_of_mem hs)

theorem model_mem_keys {m : CompiledModel} (hm : m ∈ P.models) : m.key ∈ P.keys :=
  mem_append_right _ (mem_map_of_mem hm)

end CompiledProject

inductive DependencyEdgeType
  | drivingInput
  | reference
  | mutableReference
  deriving DecidableEq, Repr

def DependencyEdgeType.value : DependencyEdgeType → String
  | .drivingInput => "driving_input"
  | .reference => "reference"
  | .mutableReference => "mutable_reference"

def allDependencyEdgeTypes : List DependencyEdgeType :=
  [.drivingInput, .reference, .mutableReference]

theorem mem_allDependencyEdgeTypes (t : DependencyEdgeType) : t ∈ allDependencyEdgeTypes := by
  cases t <;> decide

structure DependencyEdge where
  upstreamKey : LogicalResourceKey
  downstreamKey : LogicalResourceKey
  edgeType : DependencyEdgeType
  deriving DecidableEq, Repr

inductive GraphTraversalDirection
  | upstream
  | downstream
  deriving DecidableEq, Repr

structure ProjectGraph (P : CompiledProject) where
  upstreamEdgesByKey : LogicalResourceKey → List DependencyEdge
  orderedKeys : List LogicalResourceKey
  edge_downstream : ∀ k, ∀ e ∈ upstreamEdgesByKey k, e.downstreamKey = k ∧ k ∈ P.keys
  edge_upstream : ∀ k, ∀ e ∈ upstreamEdgesByKey k, e.upstreamKey ∈ P.keys
  ordered : ∀ k, k ∈ orderedKeys ↔ k ∈ P.keys

namespace ProjectGraph

variable {P : CompiledProject} (G : ProjectGraph P)

/-- `build_lineage_downstream_edges`: the upstream edges, by their other end. -/
def downstreamEdgesByKey (k : LogicalResourceKey) : List DependencyEdge :=
  sortedBy
    (fun e => [e.downstreamKey.resourceType.value, e.downstreamKey.name, e.edgeType.value])
    ((P.keys.flatMap G.upstreamEdgesByKey).filter fun e => e.upstreamKey = k)

variable {k k' : LogicalResourceKey} {roots : Finset LogicalResourceKey}
  {direction : GraphTraversalDirection}

theorem mem_downstreamEdgesByKey {e : DependencyEdge} :
    e ∈ G.downstreamEdgesByKey k ↔
      e.upstreamKey = k ∧ e ∈ G.upstreamEdgesByKey e.downstreamKey := by
  simp only [downstreamEdgesByKey, mem_sortedBy, mem_filter, mem_flatMap, decide_eq_true_eq]
  constructor
  · rintro ⟨⟨k', hk', he⟩, hup⟩
    obtain ⟨rfl, -⟩ := G.edge_downstream k' e he
    exact ⟨hup, he⟩
  · rintro ⟨hup, he⟩
    exact ⟨⟨e.downstreamKey, (G.edge_downstream _ e he).2, he⟩, hup⟩

def edgesForDirection (direction : GraphTraversalDirection) (k : LogicalResourceKey) :
    List DependencyEdge :=
  match direction with
  | .upstream => G.upstreamEdgesByKey k
  | .downstream => G.downstreamEdgesByKey k

def reachableKey (direction : GraphTraversalDirection) (e : DependencyEdge) :
    LogicalResourceKey :=
  match direction with
  | .upstream => e.upstreamKey
  | .downstream => e.downstreamKey

/-- The keys pushed from `k`, in the order in which they are pushed. -/
def neighbours (direction : GraphTraversalDirection) (edgeTypes : List DependencyEdgeType)
    (k : LogicalResourceKey) : List LogicalResourceKey :=
  ((G.edgesForDirection direction k).reverse.filter fun e => e.edgeType ∈ edgeTypes).map
    (reachableKey direction)

/-- `collect_reachable_keys`: the roots and what they reach, in dependency order. -/
def collectReachableKeys (roots : Finset LogicalResourceKey)
    (direction : GraphTraversalDirection) (edgeTypes : List DependencyEdgeType) :
    List LogicalResourceKey :=
  let stack := G.orderedKeys.filter (· ∈ roots)
  let visited := explore (G.neighbours direction edgeTypes)
    (G.orderedKeys.length + stack.length) roots stack
  G.orderedKeys.filter (· ∈ visited)

/-- One reference: `k` reads `k'`. -/
def DirectlyReads (k k' : LogicalResourceKey) : Prop :=
  ∃ e ∈ G.upstreamEdgesByKey k, e.upstreamKey = k'

/-- `k` is `k'` or reads it, directly or through others. -/
def Reads : LogicalResourceKey → LogicalResourceKey → Prop :=
  Relation.ReflTransGen G.DirectlyReads

variable {G}

theorem mem_neighbours_upstream :
    k' ∈ G.neighbours .upstream allDependencyEdgeTypes k ↔ G.DirectlyReads k k' := by
  simp [neighbours, edgesForDirection, reachableKey, mem_allDependencyEdgeTypes, DirectlyReads]

theorem mem_neighbours_downstream :
    k' ∈ G.neighbours .downstream allDependencyEdgeTypes k ↔ G.DirectlyReads k' k := by
  simp only [neighbours, edgesForDirection, reachableKey, mem_allDependencyEdgeTypes, decide_true,
    filter_true, mem_map, mem_reverse, mem_downstreamEdgesByKey, DirectlyReads]
  constructor
  · rintro ⟨e, ⟨hup, he⟩, rfl⟩
    exact ⟨e, he, hup⟩
  · rintro ⟨e, he, hup⟩
    have hdown := (G.edge_downstream k' e he).1
    exact ⟨e, ⟨hup, hdown ▸ he⟩, hdown⟩

theorem DirectlyReads.mem_keys (h : G.DirectlyReads k k') : k ∈ P.keys ∧ k' ∈ P.keys := by
  obtain ⟨e, he, rfl⟩ := h
  exact ⟨(G.edge_downstream k e he).2, G.edge_upstream k e he⟩

theorem mem_collectReachableKeys (hroots : ∀ r ∈ roots, r ∈ P.keys) :
    k ∈ G.collectReachableKeys roots direction allDependencyEdgeTypes ↔
      ∃ r ∈ roots, Relation.ReflTransGen
        (fun a b => b ∈ G.neighbours direction allDependencyEdgeTypes a) r k := by
  have hedge : ∀ a, ∀ b ∈ G.neighbours direction allDependencyEdgeTypes a, b ∈ P.keys := by
    intro a b hb
    cases direction with
    | upstream => exact (mem_neighbours_upstream.mp hb).mem_keys.2
    | downstream => exact (mem_neighbours_downstream.mp hb).mem_keys.1
  have hexplore : k ∈ explore (G.neighbours direction allDependencyEdgeTypes)
      (G.orderedKeys.length + (G.orderedKeys.filter (· ∈ roots)).length) roots
        (G.orderedKeys.filter (· ∈ roots)) ↔
      ∃ r ∈ roots, Relation.ReflTransGen
        (fun a b => b ∈ G.neighbours direction allDependencyEdgeTypes a) r k := by
    apply mem_explore G.orderedKeys.toFinset
    · intro a _ b hb
      simpa using (G.ordered b).mpr (hedge a b hb)
    · intro r hr
      simpa using (G.ordered r).mpr (hroots r hr)
    · intro a
      simpa using fun ha => (G.ordered a).mpr (hroots a ha)
    · have := toFinset_card_le G.orderedKeys
      omega
  simp only [collectReachableKeys, mem_filter, decide_eq_true_eq, hexplore, and_iff_right_iff_imp]
  rintro ⟨r, hr, hreach⟩
  rw [G.ordered]
  cases hreach with
  | refl => exact hroots k hr
  | tail _ hlast => exact hedge _ k hlast

theorem collectReachableKeys_subset {edgeTypes : List DependencyEdgeType}
    (h : k ∈ G.collectReachableKeys roots direction edgeTypes) : k ∈ P.keys :=
  (G.ordered k).mp (mem_filter.mp h).1

theorem mem_collect_upstream (hroots : ∀ r ∈ roots, r ∈ P.keys) :
    k ∈ G.collectReachableKeys roots .upstream allDependencyEdgeTypes ↔
      ∃ r ∈ roots, G.Reads r k := by
  rw [mem_collectReachableKeys hroots]
  simp only [mem_neighbours_upstream]
  rfl

theorem mem_collect_downstream (hroots : ∀ r ∈ roots, r ∈ P.keys) :
    k ∈ G.collectReachableKeys roots .downstream allDependencyEdgeTypes ↔
      ∃ r ∈ roots, G.Reads k r := by
  rw [mem_collectReachableKeys hroots]
  simp only [mem_neighbours_downstream]
  constructor
  · rintro ⟨r, hr, hreach⟩
    exact ⟨r, hr, Relation.reflTransGen_swap.mp hreach⟩
  · rintro ⟨r, hr, hreads⟩
    exact ⟨r, hr, Relation.reflTransGen_swap.mpr hreads⟩

theorem mem_keys_of_mem_neighbours {edgeTypes : List DependencyEdgeType}
    (h : k' ∈ G.neighbours direction edgeTypes k) : k' ∈ P.keys := by
  obtain ⟨e, he, rfl⟩ := mem_map.mp h
  have hedge := mem_reverse.mp (mem_filter.mp he).1
  cases direction with
  | upstream => exact G.edge_upstream k e hedge
  | downstream => exact (G.edge_downstream _ e (G.mem_downstreamEdgesByKey.mp hedge).2).2

theorem collectReachableKeys_known (roots : Finset LogicalResourceKey)
    (direction : GraphTraversalDirection) (edgeTypes : List DependencyEdgeType) :
    G.collectReachableKeys roots direction edgeTypes =
      G.collectReachableKeys (roots.filter (· ∈ P.keys)) direction edgeTypes := by
  have hstack : G.orderedKeys.filter (· ∈ roots) =
      G.orderedKeys.filter (· ∈ roots.filter (· ∈ P.keys)) := by
    apply filter_congr
    intro k hk
    simp [(G.ordered k).mp hk]
  have hroots : roots = roots.filter (· ∉ P.keys) ∪ roots.filter (· ∈ P.keys) := by
    ext k
    by_cases hk : k ∈ P.keys <;> simp [hk]
  have hclosed : ∀ a ∈ {k | k ∈ P.keys}, ∀ b ∈ G.neighbours direction edgeTypes a,
      b ∈ {k | k ∈ P.keys} := fun _ _ _ => mem_keys_of_mem_neighbours
  have hextra : ∀ a ∈ {k | k ∈ P.keys}, a ∉ roots.filter (· ∉ P.keys) :=
    fun a ha hmem => (Finset.mem_filter.mp hmem).2 ha
  have hsearch : ∀ fuel, ∀ stack : List LogicalResourceKey, (∀ k ∈ stack, k ∈ P.keys) →
      explore (G.neighbours direction edgeTypes) fuel roots stack =
        roots.filter (· ∉ P.keys) ∪
          explore (G.neighbours direction edgeTypes) fuel (roots.filter (· ∈ P.keys)) stack := by
    intro fuel stack hstack
    have hunion := congrArg (explore (G.neighbours direction edgeTypes) fuel · stack) hroots
    exact hunion.trans (explore_union hclosed hextra hstack fuel)
  simp only [collectReachableKeys]
  rw [hstack, hsearch _ _ fun k hk => (G.ordered k).mp (mem_filter.mp hk).1]
  apply filter_congr
  intro k hk
  simp [(G.ordered k).mp hk]

/-- Downstream, the search from any roots collects what reads those of the project. -/
theorem mem_collect_downstream_known :
    k ∈ G.collectReachableKeys roots .downstream allDependencyEdgeTypes ↔
      ∃ r ∈ roots, r ∈ P.keys ∧ G.Reads k r := by
  rw [collectReachableKeys_known, mem_collect_downstream fun r hr => (Finset.mem_filter.mp hr).2]
  simp only [Finset.mem_filter, and_assoc]

end ProjectGraph

end SqlTide.Compiler
