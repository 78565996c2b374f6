import SqlTide.Compiler.DesiredGraph
import SqlTide.Compiler.ProjectGraph

/-!
# The two dependency orders

Logical keys and desired keys are both put in order by taking out what waits for nothing. The order
of the desired keys leaves out dependencies on what is not included. That of the logical keys counts
every edge, so that it needs edges between its own keys.
-/

namespace SqlTide.Compiler

open Foundations List TopologicalOrder

/-- Logical keys with the edges at each of them, listed in some order. -/
structure LogicalEdges where
  keys : List LogicalResourceKey
  edges : List DependencyEdge
  upstreamEdgesByKey : LogicalResourceKey → List DependencyEdge
  downstreamEdgesByKey : LogicalResourceKey → List DependencyEdge
  keys_nodup : keys.Nodup
  upstream_perm : ∀ key,
    (upstreamEdgesByKey key).Perm (edges.filter fun edge => edge.downstreamKey = key)
  downstream_perm : ∀ key,
    (downstreamEdgesByKey key).Perm (edges.filter fun edge => edge.upstreamKey = key)

inductive OrderingError
  | missingKey (key : LogicalResourceKey)
  | graph (error : GraphInputError)
  deriving DecidableEq, Repr

/-- `_logical_key_sort_key`. -/
def logicalSortKey (key : LogicalResourceKey) : List String := [key.resourceType.value, key.name]

def logicalCycleMessage (unresolved : List LogicalResourceKey) : String :=
  "Dependency cycle detected involving: " ++
    ", ".intercalate (unresolved.map fun key => key.resourceType.value ++ ":" ++ key.name)

namespace LogicalEdges

variable (G : LogicalEdges)

def deps (key : LogicalResourceKey) : List LogicalResourceKey :=
  (G.upstreamEdgesByKey key).map (·.upstreamKey)

def dependents (key : LogicalResourceKey) : List LogicalResourceKey :=
  (G.downstreamEdgesByKey key).map (·.downstreamKey)

/-- `indegree_by_key[edge.downstream_key] -= 1`, which fails on a key that is not ordered. -/
def releaseEdge (progress : TopologicalOrder.Progress LogicalResourceKey)
    (edge : DependencyEdge) :
    Except OrderingError (TopologicalOrder.Progress LogicalResourceKey) :=
  if edge.downstreamKey ∈ G.keys then
    .ok (release G.keys (sortedBy logicalSortKey) progress edge.downstreamKey)
  else .error (.missingKey edge.downstreamKey)

/-- The loop over the keys that are ready; every key is so once. -/
def takeReadyKeys : ℕ → TopologicalOrder.Progress LogicalResourceKey →
    Except OrderingError (TopologicalOrder.Progress LogicalResourceKey)
  | 0, progress => .ok progress
  | fuel + 1, progress =>
    match progress.ready with
    | [] => .ok progress
    | key :: ready => do
      let progress ← (G.downstreamEdgesByKey key).foldlM G.releaseEdge
        { progress with ordered := progress.ordered ++ [key], ready := ready }
      takeReadyKeys fuel progress

def topologicallyOrderLogicalKeys : Except OrderingError (List LogicalResourceKey) := do
  let progress ← G.takeReadyKeys G.keys.length
    { ordered := []
      ready := sortedBy logicalSortKey
        (G.keys.filter fun key => (G.upstreamEdgesByKey key).length = 0)
      indegree := fun key => (G.upstreamEdgesByKey key).length }
  if progress.ordered.length ≠ G.keys.length then
    .error (.graph (.cycle (logicalCycleMessage
      (sortedBy logicalSortKey (G.keys.filter (· ∉ progress.ordered))))))
  else .ok progress.ordered

/-- Every edge joins two of the keys. -/
def Closed : Prop := ∀ edge ∈ G.edges, edge.upstreamKey ∈ G.keys ∧ edge.downstreamKey ∈ G.keys

end LogicalEdges

/-- The keys come once each, behind those of them that they depend on; there is no such order just
where they wait for each other. -/
structure OrdersDependencies {α ε : Type} [DecidableEq α] (keys : List α) (deps : α → List α)
    (result : Except ε (List α)) : Prop where
  perm : ∀ order, result = .ok order → order.Perm keys
  behind : ∀ order, result = .ok order → ∀ before key after, order = before ++ key :: after →
    ∀ dep ∈ deps key, dep ∈ keys → dep ∈ before
  fails : (∃ e, result = .error e) ↔ TopologicalOrder.Cyclic keys deps

section

variable {α ε : Type} [DecidableEq α] {keys : List α} {deps dependents : α → List α}
  {sort : List α → List α}

theorem ordersDependencies_of_topologicalOrder (hsort : ∀ l, (sort l).Perm l) (hnodup : keys.Nodup)
    (hcount : ∀ a ∈ keys, ∀ b ∈ keys, (dependents a).count b = (deps b).count a)
    {result : Except ε (List α)} {e : ε} (hresult : result =
      if (topologicalOrder keys sort deps dependents).length ≠ keys.length then
        .error e
      else .ok (topologicalOrder keys sort deps dependents)) :
    OrdersDependencies keys deps result := by
  have hiff := perm_topologicalOrder_iff hsort hnodup hcount
  obtain ⟨hordered, hfirst⟩ := nodup_topologicalOrder hsort hnodup hcount
  have hsubset := topologicalOrder_subset hsort hnodup hcount
  generalize topologicalOrder keys sort deps dependents = taken at *
  have hperm : taken.length = keys.length ↔ taken.Perm keys := by
    constructor
    · intro hlength
      exact (subperm_of_subset hordered hsubset).perm_of_length_le hlength.ge
    · exact fun hperm => hperm.length_eq
  have hok : ∀ order, result = .ok order → order = taken ∧ taken.Perm keys := by
    intro order horder
    rw [hresult] at horder
    split_ifs at horder with hlength
    exact ⟨(Except.ok.inj horder).symm, hperm.mp (not_not.mp hlength)⟩
  refine ⟨?_, ?_, ?_⟩
  · intro order horder
    obtain ⟨rfl, hperm⟩ := hok order horder
    exact hperm
  · intro order horder before key after hsplit dep hdep hmem
    obtain ⟨rfl, htaken⟩ := hok order horder
    have hin := htaken.mem_iff.mpr hmem
    rw [hsplit] at hin hfirst
    rcases mem_append.mp hin with hbefore | hrest
    · exact hbefore
    · rcases mem_cons.mp hrest with rfl | hafter
      · have hkey : dep ∈ keys := hmem
        exact absurd ⟨dep, .single ⟨hkey, hkey, hdep⟩⟩ (hiff.mp htaken)
      · have hlater := (pairwise_cons.mp (pairwise_append.mp hfirst).2.1).1 dep hafter
        exact absurd hdep hlater
  · rw [← not_iff_not, ← hiff, ← hperm, hresult]
    split_ifs with hlength
    · simpa using hlength
    · simpa using hlength

end

namespace DesiredState

variable {D D' : DesiredState}

theorem orderDesiredKeys_eq (includedKeys : Finset ObjectKey) :
    D.orderDesiredKeys includedKeys =
      if (topologicalOrder (D.keys.filter (· ∈ includedKeys))
        D.sortByIndex D.depsOf
          D.reverseDeps).length ≠ (D.keys.filter (· ∈ includedKeys)).length then
        .error (.cycle (cycleMessage ((D.keys.filter (· ∈ includedKeys)).filter (· ∉
          topologicalOrder (D.keys.filter (· ∈ includedKeys)) D.sortByIndex
            D.depsOf D.reverseDeps))))
      else .ok (topologicalOrder (D.keys.filter (· ∈ includedKeys)) D.sortByIndex
        D.depsOf D.reverseDeps) := rfl

theorem sortByIndex_perm (keys : List ObjectKey) : (D.sortByIndex keys).Perm keys :=
  perm_insertionSort _ _

theorem count_reverseDeps_included (hnodup : D.keys.Nodup) (includedKeys : Finset ObjectKey) :
    ∀ a ∈ D.keys.filter (· ∈ includedKeys), ∀ b ∈ D.keys.filter (· ∈ includedKeys),
      (D.reverseDeps a).count b = (D.depsOf b).count a :=
  fun _ _ _ hb => count_reverseDeps hnodup (mem_filter.mp hb).1

theorem ordersDependencies (hnodup : D.keys.Nodup) (includedKeys : Finset ObjectKey) :
    OrdersDependencies (D.keys.filter (· ∈ includedKeys)) D.depsOf
      (D.orderDesiredKeys includedKeys) :=
  ordersDependencies_of_topologicalOrder sortByIndex_perm (hnodup.filter _)
    (count_reverseDeps_included hnodup includedKeys) (orderDesiredKeys_eq includedKeys)

theorem orderDesiredKeys_congr (hnodup : D.keys.Nodup) (hkeys : D'.keys = D.keys)
    (hdeps : ∀ k k', D'.DependsOn k k' ↔ D.DependsOn k k') (includedKeys : Finset ObjectKey) :
    D'.orderDesiredKeys includedKeys = D.orderDesiredKeys includedKeys := by
  have hnodup' : D'.keys.Nodup := hkeys ▸ hnodup
  have hsort : D'.sortByIndex = D.sortByIndex := by
    funext keys
    rw [sortByIndex, sortByIndex, hkeys]
  have hsorted : ∀ keys, (D.sortByIndex keys).Pairwise fun a b => D.keys.idxOf a ≤ D.keys.idxOf b :=
    fun keys => by
      have : Std.Total fun a b : ObjectKey => D.keys.idxOf a ≤ D.keys.idxOf b :=
        ⟨fun a b => le_total _ _⟩
      have : IsTrans ObjectKey fun a b => D.keys.idxOf a ≤ D.keys.idxOf b :=
        ⟨fun _ _ _ hab hbc => le_trans hab hbc⟩
      exact pairwise_insertionSort _ keys
  have hanti : ∀ a ∈ D.keys.filter (· ∈ includedKeys), ∀ b ∈ D.keys.filter (· ∈ includedKeys),
      D.keys.idxOf a ≤ D.keys.idxOf b → D.keys.idxOf b ≤ D.keys.idxOf a → a = b := by
    intro a ha b _ hab hba
    exact (idxOf_inj (mem_filter.mp ha).1).mp (le_antisymm hab hba)
  have hfilter : D'.keys.filter (· ∈ includedKeys) = D.keys.filter (· ∈ includedKeys) := by
    rw [hkeys]
  have hcount' := count_reverseDeps_included hnodup' includedKeys
  have horder : topologicalOrder (D'.keys.filter (· ∈ includedKeys)) D'.sortByIndex
        D'.depsOf D'.reverseDeps =
      topologicalOrder (D.keys.filter (· ∈ includedKeys)) D.sortByIndex D.depsOf
        D.reverseDeps := by
    rw [hfilter] at hcount'
    rw [hfilter, hsort, topologicalOrder_eq_takeAvailable sortByIndex_perm hsorted hanti
      (hnodup.filter _) hcount', topologicalOrder_eq_takeAvailable sortByIndex_perm hsorted hanti
      (hnodup.filter _) (count_reverseDeps_included hnodup includedKeys)]
    refine takeAvailable_congr sortByIndex_perm hsorted hanti (List.Perm.refl _) ?_ _ _
    intro b _ a _
    rw [mem_depsOf hnodup', mem_depsOf hnodup, hdeps]
  rw [orderDesiredKeys_eq, orderDesiredKeys_eq, horder, hfilter]

end DesiredState

theorem logicalSortKey_injective : Function.Injective logicalSortKey := by
  rintro ⟨type, name⟩ ⟨type', name'⟩ h
  obtain ⟨htype, hname⟩ : type.value = type'.value ∧ name = name' := by
    simpa [logicalSortKey] using h
  cases type <;> cases type' <;> simp_all [LogicalResourceType.value]

theorem sortedBy_perm {α : Type} (key : α → List String) (values : List α) :
    (sortedBy key values).Perm values := perm_insertionSort _ _

theorem pairwise_sortedBy {α : Type} (key : α → List String) (values : List α) :
    (sortedBy key values).Pairwise fun a b => key a ≤ key b := by
  have : Std.Total fun a b => key a ≤ key b := ⟨fun a b => le_total (key a) (key b)⟩
  have : IsTrans α fun a b => key a ≤ key b := ⟨fun _ _ _ hab hbc => le_trans hab hbc⟩
  exact pairwise_insertionSort _ values

namespace LogicalEdges

variable {G G' : LogicalEdges}

variable {key : LogicalResourceKey} {edge : DependencyEdge}

theorem mem_upstreamEdgesByKey :
    edge ∈ G.upstreamEdgesByKey key ↔ edge ∈ G.edges ∧ edge.downstreamKey = key := by
  simp [(G.upstream_perm key).mem_iff]

theorem mem_downstreamEdgesByKey :
    edge ∈ G.downstreamEdgesByKey key ↔ edge ∈ G.edges ∧ edge.upstreamKey = key := by
  simp [(G.downstream_perm key).mem_iff]

theorem count_dependents (a b : LogicalResourceKey) :
    (G.dependents a).count b = (G.deps b).count a := by
  simp only [dependents, deps, List.count, countP_map, Function.comp_def]
  rw [(G.downstream_perm a).countP_eq, (G.upstream_perm b).countP_eq, countP_filter, countP_filter]
  refine countP_congr fun edge _ => ?_
  simp only [Bool.and_eq_true, beq_iff_eq, decide_eq_true_eq]
  exact and_comm

theorem foldlM_releaseEdge (hclosed : G.Closed) (key : LogicalResourceKey)
    (progress : TopologicalOrder.Progress LogicalResourceKey) :
    (G.downstreamEdgesByKey key).foldlM G.releaseEdge progress =
      .ok ((G.dependents key).foldl
        (release G.keys (sortedBy logicalSortKey)) progress) := by
  rw [dependents, foldl_map]
  refine foldlM_eq_ok_foldl ?_ progress
  intro edge hedge progress
  exact if_pos (hclosed edge (mem_downstreamEdgesByKey.mp hedge).1).2

theorem takeReadyKeys_eq (hclosed : G.Closed) (fuel : ℕ)
    (progress : TopologicalOrder.Progress LogicalResourceKey) :
    G.takeReadyKeys fuel progress = .ok (takeReady G.keys
      (sortedBy logicalSortKey) G.dependents fuel progress) := by
  induction fuel generalizing progress with
  | zero => rfl
  | succ fuel ih =>
    unfold takeReadyKeys takeReady
    cases progress.ready with
    | nil => rfl
    | cons key ready =>
      dsimp only
      rw [foldlM_releaseEdge hclosed]
      exact ih _

theorem remaining_eq (hclosed : G.Closed) (key : LogicalResourceKey) :
    remaining G.keys G.deps [] key = (G.upstreamEdgesByKey key).length := by
  unfold remaining
  rw [countP_eq_length.mpr, deps, length_map]
  intro dep hdep
  obtain ⟨edge, hedge, rfl⟩ := mem_map.mp hdep
  simpa using (hclosed edge (mem_upstreamEdgesByKey.mp hedge).1).1

theorem topologicallyOrderLogicalKeys_eq (hclosed : G.Closed) :
    G.topologicallyOrderLogicalKeys =
      if (topologicalOrder G.keys (sortedBy logicalSortKey) G.deps
          G.dependents).length ≠ G.keys.length then
        .error (.graph (.cycle (logicalCycleMessage (sortedBy logicalSortKey
          (G.keys.filter (· ∉ topologicalOrder G.keys (sortedBy logicalSortKey)
            G.deps G.dependents))))))
      else .ok (topologicalOrder G.keys (sortedBy logicalSortKey) G.deps
        G.dependents) := by
  have hstart : start G.keys (sortedBy logicalSortKey) G.deps =
      { ordered := []
        ready := sortedBy logicalSortKey
          (G.keys.filter fun key => (G.upstreamEdgesByKey key).length = 0)
        indegree := fun key => (G.upstreamEdgesByKey key).length } := by
    simp only [start, remaining_eq hclosed]
  unfold topologicallyOrderLogicalKeys
  rw [← hstart, takeReadyKeys_eq hclosed]
  rfl

theorem ordersDependencies (hclosed : G.Closed) :
    OrdersDependencies G.keys G.deps G.topologicallyOrderLogicalKeys :=
  ordersDependencies_of_topologicalOrder (sortedBy_perm logicalSortKey) G.keys_nodup
    (fun a _ b _ => count_dependents a b) (topologicallyOrderLogicalKeys_eq hclosed)

theorem topologicallyOrderLogicalKeys_congr (hclosed : G.Closed) (hclosed' : G'.Closed)
    (hkeys : G'.keys.Perm G.keys) (hdeps : ∀ k k', k' ∈ G'.deps k ↔ k' ∈ G.deps k) :
    G'.topologicallyOrderLogicalKeys = G.topologicallyOrderLogicalKeys := by
  have hanti : ∀ G : LogicalEdges, ∀ a ∈ G.keys, ∀ b ∈ G.keys,
      logicalSortKey a ≤ logicalSortKey b → logicalSortKey b ≤ logicalSortKey a → a = b :=
    fun _ _ _ _ _ hab hba => logicalSortKey_injective (le_antisymm hab hba)
  have hsort := sortedBy_perm logicalSortKey
  have hsorted := pairwise_sortedBy logicalSortKey
  have horder : topologicalOrder G'.keys (sortedBy logicalSortKey) G'.deps
        G'.dependents =
      topologicalOrder G.keys (sortedBy logicalSortKey) G.deps G.dependents := by
    rw [topologicalOrder_eq_takeAvailable hsort hsorted (hanti G') G'.keys_nodup
        fun a _ b _ => count_dependents a b,
      topologicalOrder_eq_takeAvailable hsort hsorted (hanti G) G.keys_nodup
        fun a _ b _ => count_dependents a b, hkeys.length_eq]
    exact takeAvailable_congr hsort hsorted (hanti G) hkeys (fun b _ a _ => hdeps b a) _ _
  have hunresolved : sortedBy logicalSortKey (G'.keys.filter (· ∉ topologicalOrder
        G.keys (sortedBy logicalSortKey) G.deps G.dependents)) =
      sortedBy logicalSortKey (G.keys.filter (· ∉ topologicalOrder G.keys
        (sortedBy logicalSortKey) G.deps G.dependents)) :=
    sortedBy_eq_of_perm logicalSortKey_injective (hkeys.filter _)
  rw [topologicallyOrderLogicalKeys_eq hclosed', topologicallyOrderLogicalKeys_eq hclosed, horder,
    hunresolved, hkeys.length_eq]

end LogicalEdges

/-- Both orders put keys behind their dependencies, fail just on a cycle, and do not depend on how
the edges are listed; the logical keys need edges between them alone. -/
theorem dependencyOrders :
    (∀ D : DesiredState, D.keys.Nodup → ∀ includedKeys : Finset ObjectKey,
      OrdersDependencies (D.keys.filter (· ∈ includedKeys)) D.depsOf
          (D.orderDesiredKeys includedKeys) ∧
        ∀ D' : DesiredState, D'.keys = D.keys →
          (∀ k k', D'.DependsOn k k' ↔ D.DependsOn k k') →
          D'.orderDesiredKeys includedKeys = D.orderDesiredKeys includedKeys) ∧
    ∀ G : LogicalEdges, G.Closed →
      OrdersDependencies G.keys G.deps G.topologicallyOrderLogicalKeys ∧
        ∀ G' : LogicalEdges, G'.Closed → G'.keys.Perm G.keys →
          (∀ k k', k' ∈ G'.deps k ↔ k' ∈ G.deps k) →
          G'.topologicallyOrderLogicalKeys = G.topologicallyOrderLogicalKeys := by
  constructor
  · intro D hnodup includedKeys
    refine ⟨DesiredState.ordersDependencies hnodup includedKeys, fun D' hkeys hdeps => ?_⟩
    exact DesiredState.orderDesiredKeys_congr hnodup hkeys hdeps includedKeys
  · intro G hclosed
    refine ⟨LogicalEdges.ordersDependencies hclosed, fun G' hclosed' hkeys hdeps => ?_⟩
    exact LogicalEdges.topologicallyOrderLogicalKeys_congr hclosed hclosed' hkeys hdeps

/-- The daily totals on their own, with the edge from the orders that they are computed from. -/
def dailyEdges : LogicalEdges where
  keys := [⟨.model, "daily"⟩]
  edges := [⟨⟨.model, "orders"⟩, ⟨.model, "daily"⟩, .drivingInput⟩]
  upstreamEdgesByKey key := [⟨⟨.model, "orders"⟩, ⟨.model, "daily"⟩, .drivingInput⟩].filter
    fun edge => edge.downstreamKey = key
  downstreamEdgesByKey key := [⟨⟨.model, "orders"⟩, ⟨.model, "daily"⟩, .drivingInput⟩].filter
    fun edge => edge.upstreamKey = key
  keys_nodup := by decide
  upstream_perm _ := List.Perm.refl _
  downstream_perm _ := List.Perm.refl _

/-- The edge from outside is waited for, so that the order fails without a cycle. -/
theorem not_dependencyOrders :
    ¬ ∀ G : LogicalEdges, OrdersDependencies G.keys G.deps G.topologicallyOrderLogicalKeys := by
  intro h
  have hfails : (dailyEdges.topologicallyOrderLogicalKeys).toOption = none := by decide +kernel
  cases hresult : dailyEdges.topologicallyOrderLogicalKeys with
  | ok order =>
    rw [hresult] at hfails
    cases hfails
  | error e =>
    obtain ⟨key, hcycle⟩ := (h dailyEdges).fails.mp ⟨e, hresult⟩
    obtain ⟨next, ⟨hkey, hnext, hdep⟩, -⟩ := Relation.TransGen.head'_iff.mp hcycle
    obtain rfl := mem_singleton.mp hkey
    obtain rfl := mem_singleton.mp hnext
    exact absurd hdep (by decide)

end SqlTide.Compiler
