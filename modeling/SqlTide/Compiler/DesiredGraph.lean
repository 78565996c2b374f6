import SqlTide.Compiler.DesiredState
import SqlTide.Foundations.Failures
import SqlTide.Foundations.Reachability
import SqlTide.Foundations.TopologicalOrder

/-!
# Traversals of the desired state

The downstream closure of a desired object, its dependency order, and the nearest table that
a replay can start from. In the desired state of a realized project nothing depends on a view,
so that what descends from a table is what reads a table of a driving chain from it.
-/

namespace SqlTide.Compiler

open Foundations List RealizedTableModel

inductive GraphInputError
  | cycle (message : String)
  deriving DecidableEq, Repr

namespace DesiredState

variable (D : DesiredState)

def sortKey (key : ObjectKey) : List String := [key.objectType.value, key.name]

/-- `build_desired_reverse_deps`: who depends on the key, once for each occurrence. -/
def reverseDeps (key : ObjectKey) : List ObjectKey :=
  sortedBy sortKey
    (D.objects.flatMap fun object => (object.deps.filter (· = key)).map fun _ => object.key)

def depsOf (key : ObjectKey) : List ObjectKey :=
  ((D.objectByKey key).map (·.deps)).getD []

def sortByIndex (keys : List ObjectKey) : List ObjectKey :=
  keys.insertionSort fun a b => D.keys.idxOf a ≤ D.keys.idxOf b

def cycleMessage (unresolved : List ObjectKey) : String :=
  "Dependency cycle detected involving: " ++
    ", ".intercalate (unresolved.map fun key => key.objectType.value ++ ":" ++ key.name)

def orderDesiredKeys (includedKeys : Finset ObjectKey) : Except GraphInputError (List ObjectKey) :=
  let included := D.keys.filter (· ∈ includedKeys)
  let ordered := TopologicalOrder.topologicalOrder included D.sortByIndex D.depsOf D.reverseDeps
  if ordered.length ≠ included.length then
    .error (.cycle (cycleMessage (included.filter (· ∉ ordered))))
  else .ok ordered

/-- The keys that `collect_desired_descendant_keys` visits. -/
def descendantKeySet (rootKey : ObjectKey) : Finset ObjectKey :=
  sweep D.reverseDeps D.keys.toFinset (1 + (D.keys.map fun key => (D.reverseDeps key).length).sum)
    ∅ [rootKey]

def collectDesiredDescendantKeys (rootKey : ObjectKey) :
    Except GraphInputError (List ObjectKey) :=
  D.orderDesiredKeys (D.descendantKeySet rootKey)

/-- Where the search for a replay anchor goes on from a key; `none` ends it there. -/
def nextAnchorKey (rootKey : ObjectKey) (allowRootKey : Bool) (current : ObjectKey) :
    Option ObjectKey :=
  match D.objectByKey current with
  | none => none
  | some (.materializedView view) => some ⟨.table, view.spec.sourceTableName⟩
  | some object =>
    if current ∈ D.replayAnchorKeys ∧ (allowRootKey = true ∨ current ≠ rootKey) then none
    else object.deps.find? fun dep => dep.objectType = .table

def nearestAnchor (rootKey : ObjectKey) (allowRootKey : Bool) :
    ℕ → List ObjectKey → ObjectKey → Except GraphInputError ObjectKey
  | 0, _, _ => .error (.cycle
      ("Dependency cycle detected while finding replay anchor for '" ++ rootKey.name ++ "'"))
  | fuel + 1, visited, current =>
    if current ∈ visited then .error (.cycle
      ("Dependency cycle detected while finding replay anchor for '" ++ rootKey.name ++ "'"))
    else
      match D.nextAnchorKey rootKey allowRootKey current with
      | none => .ok current
      | some next => nearestAnchor rootKey allowRootKey fuel (current :: visited) next

def findNearestReplayAnchorKey (rootKey : ObjectKey) (allowRootKey : Bool) :
    Except GraphInputError ObjectKey :=
  D.nearestAnchor rootKey allowRootKey (D.objects.length + 1) [] rootKey

/-- The object with key `k` has `k'` among its dependencies. -/
def DependsOn (k k' : ObjectKey) : Prop :=
  ∃ object ∈ D.objects, object.key = k ∧ k' ∈ object.deps

/-- `k` is `root` or depends on it, directly or through others. -/
def Descends (root k : ObjectKey) : Prop :=
  Relation.ReflTransGen (fun a b => D.DependsOn b a) root k

variable {D}

variable {k k' : ObjectKey}

theorem mem_reverseDeps : k' ∈ D.reverseDeps k ↔ D.DependsOn k' k := by
  simp only [reverseDeps, mem_sortedBy, mem_flatMap, mem_map, mem_filter,
    decide_eq_true_eq, DependsOn]
  constructor
  · rintro ⟨object, hobject, dep, ⟨hdep, rfl⟩, rfl⟩
    exact ⟨object, hobject, rfl, hdep⟩
  · rintro ⟨object, hobject, rfl, hdep⟩
    exact ⟨object, hobject, k, ⟨hdep, rfl⟩, rfl⟩

variable {object : DesiredObject} {rank : ObjectKey → ℕ} {rootKey current : ObjectKey}
  {allowRootKey : Bool}

theorem count_dependents {objects : List DesiredObject} (hnodup : (objects.map (·.key)).Nodup)
    (hobject : object ∈ objects) (key : ObjectKey) :
    (objects.flatMap fun object => (object.deps.filter (· = key)).map fun _ => object.key).count
      object.key = object.deps.count key := by
  have hself : ∀ other : DesiredObject,
      ((other.deps.filter (· = key)).map fun _ => other.key).count object.key =
        if other.key = object.key then other.deps.count key else 0 := by
    intro other
    rw [map_const', count_replicate, ← countP_eq_length_filter]
    by_cases h : other.key = object.key
    · simp only [h, beq_self_eq_true, if_true, List.count]
      exact countP_congr fun dep _ => by simp
    · simp [h]
  induction objects with
  | nil => simp at hobject
  | cons other objects ih =>
    rw [map_cons, nodup_cons] at hnodup
    rw [flatMap_cons, count_append, hself]
    rcases mem_cons.mp hobject with rfl | hobject
    · have hrest : object.key ∉ objects.flatMap fun object =>
          (object.deps.filter (· = key)).map fun _ => object.key := by
        intro hmem
        obtain ⟨other, hother, hmem⟩ := mem_flatMap.mp hmem
        obtain ⟨-, -, hkey⟩ := mem_map.mp hmem
        exact hnodup.1 (mem_map.mpr ⟨other, hother, hkey⟩)
      rw [if_pos rfl, count_eq_zero_of_not_mem hrest, Nat.add_zero]
    · have hne : other.key ≠ object.key := by
        intro hkey
        exact hnodup.1 (hkey ▸ mem_map_of_mem hobject)
      rw [if_neg hne, Nat.zero_add, ih hnodup.2 hobject]

theorem objectByKey_of_mem (hnodup : D.keys.Nodup)
    (hobject : object ∈ D.objects) : D.objectByKey object.key = some object := by
  obtain ⟨other, hother⟩ : ∃ other,
      D.objects.find? (fun other => other.key = object.key) = some other :=
    Option.isSome_iff_exists.mp (find?_isSome.mpr ⟨object, hobject, by simp⟩)
  have hkey : other.key = object.key := by simpa using find?_some hother
  rw [objectByKey, hother, inj_on_of_nodup_map hnodup (mem_of_find?_eq_some hother) hobject hkey]

theorem mem_depsOf (hnodup : D.keys.Nodup) : k' ∈ D.depsOf k ↔ D.DependsOn k k' := by
  constructor
  · intro h
    unfold depsOf at h
    cases hobject : D.objectByKey k with
    | none => simp [hobject] at h
    | some object =>
      refine ⟨object, mem_of_find?_eq_some hobject, ?_, by simpa [hobject] using h⟩
      simpa using find?_some hobject
  · rintro ⟨object, hobject, rfl, hdep⟩
    simpa [depsOf, objectByKey_of_mem hnodup hobject] using hdep

theorem count_reverseDeps (hnodup : D.keys.Nodup) (hk : k' ∈ D.keys) :
    (D.reverseDeps k).count k' = (D.depsOf k').count k := by
  obtain ⟨object, hobject, rfl⟩ := mem_map.mp hk
  rw [reverseDeps, sortedBy, (perm_insertionSort _ _).count_eq,
    count_dependents hnodup hobject, depsOf, objectByKey_of_mem hnodup hobject]
  rfl

/-- Without a cycle the included keys are listed once each, behind their dependencies. -/
theorem orderDesiredKeys_eq_ok (hnodup : D.keys.Nodup)
    (hrank : ∀ k k', D.DependsOn k k' → rank k' < rank k) (includedKeys : Finset ObjectKey) :
    ∃ ordered, D.orderDesiredKeys includedKeys = .ok ordered ∧ ordered.Nodup ∧
      (∀ k, k ∈ ordered ↔ k ∈ D.keys ∧ k ∈ includedKeys) ∧
      TopologicalOrder.DependenciesFirst D.depsOf ordered := by
  have hincluded : (D.keys.filter (· ∈ includedKeys)).Nodup := hnodup.filter _
  obtain ⟨hperm, hfirst⟩ := TopologicalOrder.perm_topologicalOrder
    (fun l => perm_insertionSort (fun a b => D.keys.idxOf a ≤ D.keys.idxOf b) l) hincluded
    (fun a _ b hb => count_reverseDeps hnodup (mem_filter.mp hb).1)
    (fun b _ a ha _ => hrank b a ((mem_depsOf hnodup).mp ha))
  refine ⟨_, ?_, hperm.nodup_iff.mpr hincluded, ?_, hfirst⟩
  · unfold orderDesiredKeys
    exact if_neg (not_not.mpr hperm.length_eq)
  · intro k
    rw [hperm.mem_iff, mem_filter, decide_eq_true_eq]

theorem DependsOn.mem_keys (h : D.DependsOn k k') : k ∈ D.keys := by
  obtain ⟨object, hobject, rfl, -⟩ := h
  exact mem_map_of_mem hobject

theorem mem_descendantKeySet (hnodup : D.keys.Nodup) {root : ObjectKey} (hroot : root ∈ D.keys) :
    k ∈ D.descendantKeySet root ↔ D.Descends root k := by
  have hfuel : 1 + ∑ key ∈ D.keys.toFinset, (D.reverseDeps key).length ≤
      1 + (D.keys.map fun key => (D.reverseDeps key).length).sum := by
    rw [sum_toFinset _ hnodup]
  have hclosed : ∀ a ∈ D.keys.toFinset, ∀ b ∈ D.reverseDeps a, b ∈ D.keys.toFinset := by
    intro a _ b hb
    exact mem_toFinset.mpr (mem_reverseDeps.mp hb).mem_keys
  rw [descendantKeySet, mem_sweep hclosed (mem_toFinset.mpr hroot) hfuel]
  simp only [mem_reverseDeps]
  rfl

/-- From a materialized view the search goes on at its source table, and from any other object at a
table that it depends on. -/
theorem nextAnchorKey_cases {next : ObjectKey}
    (h : D.nextAnchorKey rootKey allowRootKey current = some next) :
    (∃ view, .materializedView view ∈ D.objects ∧
        (DesiredObject.materializedView view).key = current ∧
        next = ⟨.table, view.spec.sourceTableName⟩) ∨
      (current.objectType ≠ .materializedView ∧ D.DependsOn current next ∧
        next.objectType = .table) := by
  unfold nextAnchorKey at h
  cases hobject : D.objectByKey current with
  | none => simp [hobject] at h
  | some object =>
    have hmem : object ∈ D.objects := mem_of_find?_eq_some hobject
    obtain rfl : object.key = current := by simpa using find?_some hobject
    have hfound : ∀ {dep}, object.deps.find? (fun dep => dep.objectType = .table) = some dep →
        D.DependsOn object.key dep ∧ dep.objectType = .table := by
      intro dep hdep
      exact ⟨⟨object, hmem, rfl, mem_of_find?_eq_some hdep⟩, by simpa using find?_some hdep⟩
    rw [hobject] at h
    cases object with
    | materializedView view => exact .inl ⟨view, hmem, rfl, (Option.some.inj h).symm⟩
    | kafkaTable table | table table | view view =>
      dsimp only at h
      split_ifs at h
      exact .inr ⟨by simp [DesiredObject.key], hfound h⟩

/-- Where every step of the search goes down in rank, it ends at a key. -/
theorem nearestAnchor_eq_ok
    (hrank : ∀ current next, D.nextAnchorKey rootKey allowRootKey current = some next →
      rank next < rank current) {fuel : ℕ} {visited : List ObjectKey} (hnodup : visited.Nodup)
    (hknown : ∀ k ∈ visited, k ∈ D.keys) (habove : ∀ k ∈ visited, rank current < rank k)
    (hfuel : D.objects.length < fuel + visited.length) :
    ∃ key, D.nearestAnchor rootKey allowRootKey fuel visited current = .ok key := by
  have hlength : visited.length ≤ D.objects.length := by
    have hle := (subperm_of_subset hnodup hknown).length_le
    simpa [keys] using hle
  induction fuel generalizing visited current with
  | zero => omega
  | succ fuel ih =>
    have hnew : current ∉ visited := fun hmem => lt_irrefl _ (habove current hmem)
    unfold nearestAnchor
    rw [if_neg hnew]
    cases hnext : D.nextAnchorKey rootKey allowRootKey current with
    | none => exact ⟨current, rfl⟩
    | some next =>
      have hcurrent : current ∈ D.keys := by
        unfold nextAnchorKey at hnext
        cases hobject : D.objectByKey current with
        | none => simp [hobject] at hnext
        | some object =>
          refine mem_map.mpr ⟨object, mem_of_find?_eq_some hobject, ?_⟩
          simpa using find?_some hobject
      have hbelow := hrank current next hnext
      have hmem : ∀ k ∈ current :: visited, k ∈ D.keys := by
        intro k hk
        rcases mem_cons.mp hk with rfl | hk
        · exact hcurrent
        · exact hknown k hk
      refine ih (nodup_cons.mpr ⟨hnew, hnodup⟩) hmem ?_ ?_ ?_
      · intro k hk
        rcases mem_cons.mp hk with rfl | hk
        · exact hbelow
        · exact hbelow.trans (habove k hk)
      · rw [length_cons]
        omega
      · have hle := (subperm_of_subset (nodup_cons.mpr ⟨hnew, hnodup⟩) hmem).length_le
        simpa [keys] using hle

end DesiredState

namespace RealizedProject

variable {P : RealizedProject}

variable {k k' key root : ObjectKey} {m : RealizedTableModel} {v : RealizedViewModel}

/-- What an object of the desired state depends on, by what it is. -/
theorem dependsOn_cases (h : P.desiredState.DependsOn k k') :
    (∃ s ∈ P.sources, s.adopted = false ∧ k = ⟨.materializedView, materializedViewName s.name⟩ ∧
      (k' = ⟨.kafkaTable, kafkaTableName s.name⟩ ∨ k' = s.relationKey)) ∨
    (∃ m ∈ P.tableModels, k = m.tableKey ∧ P.relationKeyByName m.source = some k') ∨
    (∃ m ∈ P.tableModels, k = m.viewKey ∧ (k' ∈ P.refKeys m.parsedRefs ∨ k' = m.tableKey)) ∨
    ∃ v ∈ P.viewModels, k = v.viewKey ∧ k' ∈ P.refKeys v.parsedRefs := by
  obtain ⟨object, hobject, rfl, hdep⟩ := h
  rcases mem_objects.mp hobject with ⟨s, hs, hobject⟩ | ⟨m, hm, rfl | rfl⟩ | ⟨v, hv, rfl⟩
  · left
    refine ⟨s, hs, ?_⟩
    unfold RealizedSource.desiredObjects at hobject
    cases hsource : s.source with
    | kafkaLanding managed =>
      rw [hsource] at hobject
      simp only [mem_cons, not_mem_nil, or_false] at hobject
      rcases hobject with rfl | rfl | rfl
      · simp [DesiredObject.deps] at hdep
      · simp [DesiredObject.deps] at hdep
      · simpa [DesiredObject.deps, DesiredObject.key, RealizedSource.adopted, hsource,
          RealizedSource.relationKey, RealizedSource.relationName] using hdep
    | externalTable tableName => simp [hsource] at hobject
    | postgresRefresh relationSql => simp [hsource] at hobject
  · right
    left
    exact ⟨m, hm, rfl, by simpa [DesiredObject.deps, modelTable, eq_comm] using hdep⟩
  · right
    right
    left
    exact ⟨m, hm, rfl, by simpa [DesiredObject.deps, modelView] using hdep⟩
  · right
    right
    right
    exact ⟨v, hv, rfl, hdep⟩

theorem tableModel_dependsOn (hm : m ∈ P.tableModels)
    (h : P.relationKeyByName m.source = some k) : P.desiredState.DependsOn m.tableKey k :=
  ⟨.table (P.modelTable m), mem_objects.mpr (.inr (.inl ⟨m, hm, .inl rfl⟩)), rfl,
    by simp [DesiredObject.deps, modelTable, h]⟩

theorem viewOfModel_dependsOn (hm : m ∈ P.tableModels)
    (h : k ∈ P.refKeys m.parsedRefs ∨ k = m.tableKey) : P.desiredState.DependsOn m.viewKey k :=
  ⟨.materializedView (P.modelView m), mem_objects.mpr (.inr (.inl ⟨m, hm, .inr rfl⟩)), rfl,
    by simpa [DesiredObject.deps, modelView] using h⟩

theorem viewModel_dependsOn (hv : v ∈ P.viewModels)
    (h : k ∈ P.refKeys v.parsedRefs) : P.desiredState.DependsOn v.viewKey k :=
  ⟨.view (P.viewModelView v), mem_objects.mpr (.inr (.inr ⟨v, hv, rfl⟩)), rfl, h⟩

theorem viewOfModel_dependsOn_iff (hm : m ∈ P.tableModels) : P.desiredState.DependsOn m.viewKey k ↔
      k ∈ P.refKeys m.parsedRefs ∨ k = m.tableKey := by
  refine ⟨fun h => ?_, viewOfModel_dependsOn hm⟩
  rcases dependsOn_cases h with ⟨s, hs, -, hkey, -⟩ | ⟨m', -, hkey, -⟩ | ⟨m', hm', hkey, hdep⟩ |
    ⟨v, -, hkey, -⟩
  · have hname := materializedViewName_injective (congrArg ObjectKey.name hkey)
    exact absurd hname.symm (source_name_ne hs hm)
  · cases hkey
  · obtain rfl := viewKey_unique hm hm' hkey
    exact hdep
  · cases hkey

theorem viewModel_dependsOn_iff (hv : v ∈ P.viewModels) :
    P.desiredState.DependsOn v.viewKey k ↔ k ∈ P.refKeys v.parsedRefs := by
  refine ⟨fun h => ?_, viewModel_dependsOn hv⟩
  rcases dependsOn_cases h with ⟨s, -, -, hkey, -⟩ | ⟨m, -, hkey, -⟩ | ⟨m, -, hkey, -⟩ |
    ⟨v', hv', hkey, hdep⟩
  · cases hkey
  · cases hkey
  · cases hkey
  · have hnodup := (nodup_append.mp P.relationNames_nodup).2.1
    obtain rfl := inj_on_of_nodup_map hnodup hv hv' (congrArg ObjectKey.name hkey)
    exact hdep

theorem tableKey_mem_keys (hm : m ∈ P.tableModels) : m.tableKey ∈ P.desiredState.keys :=
  mem_map.mpr ⟨.table (P.modelTable m), mem_objects.mpr (.inr (.inl ⟨m, hm, .inl rfl⟩)), rfl⟩

theorem viewKey_mem_keys (hm : m ∈ P.tableModels) : m.viewKey ∈ P.desiredState.keys :=
  (viewOfModel_dependsOn hm (.inr rfl)).mem_keys

theorem dependsOn_objectType (h : P.desiredState.DependsOn k k') :
    k'.objectType = .table ∨ k'.objectType = .kafkaTable := by
  rcases dependsOn_cases h with ⟨s, -, -, -, rfl | rfl⟩ | ⟨m, -, -, hkey⟩ |
    ⟨m, -, -, hkey | rfl⟩ | ⟨v, -, -, hkey⟩
  · exact .inr rfl
  · exact .inl rfl
  · exact .inl (relationKeyByName_objectType hkey)
  · obtain ⟨r, -, hr⟩ := mem_refKeys.mp hkey
    exact .inl (relationKeyByName_objectType hr)
  · exact .inl rfl
  · obtain ⟨r, -, hr⟩ := mem_refKeys.mp hkey
    exact .inl (relationKeyByName_objectType hr)

/-- The tables of models by their place in the logical order, views above all tables. -/
def keyRank (P : RealizedProject) (key : ObjectKey) : ℕ :=
  match key.objectType with
  | .kafkaTable => 0
  | .table =>
    ((P.tableModels.find? fun m => m.relationName = key.name).map
      fun m => P.orderedNames.idxOf m.name + 1).getD 0
  | .materializedView => P.orderedNames.length + 2
  | .view => P.orderedNames.length + 2

theorem keyRank_tableKey (hm : m ∈ P.tableModels) :
    P.keyRank m.tableKey = P.orderedNames.idxOf m.name + 1 := by
  obtain ⟨m', hm'⟩ : ∃ m', P.tableModels.find? (fun m' => m'.relationName = m.relationName) =
      some m' :=
    Option.isSome_iff_exists.mp (find?_isSome.mpr ⟨m, hm, by simp⟩)
  have hname : m'.relationName = m.relationName := by simpa using find?_some hm'
  have hkey : m'.tableKey = m.tableKey := by simp [tableKey, hname]
  obtain rfl := tableKey_unique (mem_of_find?_eq_some hm') hm hkey
  unfold keyRank tableKey
  rw [hm']
  rfl

theorem keyRank_relationKey {s : RealizedSource} (hs : s ∈ P.sources) :
    P.keyRank s.relationKey = 0 := by
  have hnone : P.tableModels.find? (fun m => m.relationName = s.relationName) = none := by
    rw [find?_eq_none]
    intro m hm hname
    refine relationKey_ne_tableKey hs hm ?_
    simp only [decide_eq_true_eq] at hname
    simp [RealizedSource.relationKey, tableKey, hname]
  unfold keyRank RealizedSource.relationKey
  rw [hnone]
  rfl

theorem keyRank_le_of_table (h : key.objectType = .table ∨ key.objectType = .kafkaTable) :
    P.keyRank key ≤ P.orderedNames.length + 1 := by
  rcases h with h | h
  · unfold keyRank
    rw [h]
    cases P.tableModels.find? fun m => m.relationName = key.name with
    | none => simp
    | some m =>
      have hle : P.orderedNames.idxOf m.name ≤ P.orderedNames.length := idxOf_le_length
      simpa using hle
  · simp [keyRank, h]

theorem keyRank_relationKeyByName (hm : m ∈ P.tableModels) {r : String} (hr : r ∈ m.parsedRefs)
    (h : P.relationKeyByName r = some key) : P.keyRank key < P.keyRank m.tableKey := by
  rw [keyRank_tableKey hm]
  rcases relationKeyByName_cases h with ⟨s, hs, -, rfl⟩ | ⟨m', hm', rfl, rfl⟩
  · rw [keyRank_relationKey hs]
    omega
  · rw [keyRank_tableKey hm']
    have := P.upstream_first m hm m'.name hr
    omega

theorem keyRank_lt (h : P.desiredState.DependsOn k k') : P.keyRank k' < P.keyRank k := by
  have hle : P.keyRank k' ≤ P.orderedNames.length + 1 :=
    keyRank_le_of_table (dependsOn_objectType h)
  rcases dependsOn_cases h with ⟨s, -, -, rfl, -⟩ | ⟨m, hm, rfl, hkey⟩ |
    ⟨m, -, rfl, -⟩ | ⟨v, -, rfl, -⟩
  · exact Nat.lt_succ_of_le hle
  · exact keyRank_relationKeyByName hm (P.driving_parsed m hm) hkey
  · exact Nat.lt_succ_of_le hle
  · exact Nat.lt_succ_of_le hle

/-- `k` is the driving input of the model with table `k'`. -/
def Drives (P : RealizedProject) (k k' : ObjectKey) : Prop :=
  ∃ m ∈ P.tableModels, m.tableKey = k' ∧ P.relationKeyByName m.source = some k

/-- `k` is on the driving chain that leads to the table `k'`. -/
def DrivenFrom (P : RealizedProject) (k k' : ObjectKey) : Prop :=
  Relation.ReflTransGen P.Drives k k'

theorem Drives.dependsOn (h : P.Drives k k') : P.desiredState.DependsOn k' k := by
  obtain ⟨m, hm, rfl, hkey⟩ := h
  exact tableModel_dependsOn hm hkey

theorem drives_of_dependsOn (h : P.desiredState.DependsOn k' k)
    (htable : k'.objectType = .table) : P.Drives k k' := by
  rcases dependsOn_cases h with ⟨s, -, -, rfl, -⟩ | ⟨m, hm, rfl, hkey⟩ | ⟨m, -, rfl, -⟩ |
    ⟨v, -, rfl, -⟩
  · cases htable
  · exact ⟨m, hm, rfl, hkey⟩
  · cases htable
  · cases htable

theorem DrivenFrom.descends (h : P.DrivenFrom k k') : P.desiredState.Descends k k' :=
  Relation.ReflTransGen.mono (fun _ _ => Drives.dependsOn) _ _ h

/-- What descends from a key is the key, and what depends on a table of a driving chain from
it. -/
theorem descends_iff :
    P.desiredState.Descends root k ↔
      k = root ∨ ∃ d, P.DrivenFrom root d ∧ P.desiredState.DependsOn k d := by
  constructor
  · intro h
    induction h with
    | refl => exact .inl rfl
    | @tail b c _ hdep ih =>
      refine .inr ⟨b, ?_, hdep⟩
      rcases ih with rfl | ⟨d, hdriven, hbd⟩
      · exact .refl
      · rcases dependsOn_objectType hdep with htable | hkafka
        · exact hdriven.tail (drives_of_dependsOn hbd htable)
        · rcases dependsOn_cases hbd with ⟨s, -, -, rfl, -⟩ | ⟨m, -, rfl, -⟩ | ⟨m, -, rfl, -⟩ |
            ⟨v, -, rfl, -⟩
          · cases hkafka
          · cases hkafka
          · cases hkafka
          · cases hkafka
  · rintro (rfl | ⟨d, hdriven, hdep⟩)
    · exact .refl
    · exact hdriven.descends.tail hdep

theorem descends_table (htable : k.objectType = .table) :
    P.desiredState.Descends root k ↔ P.DrivenFrom root k := by
  constructor
  · intro h
    rcases descends_iff.mp h with heq | ⟨d, hdriven, hdep⟩
    · exact heq ▸ .refl
    · exact hdriven.tail (drives_of_dependsOn hdep htable)
  · exact fun h => h.descends

theorem exists_descendantKeys (root : ObjectKey) (hroot : root ∈ P.desiredState.keys) :
    ∃ keys, P.desiredState.collectDesiredDescendantKeys root = .ok keys ∧ keys.Nodup ∧
      (∀ k, k ∈ keys ↔ P.desiredState.Descends root k) ∧
      TopologicalOrder.DependenciesFirst P.desiredState.depsOf keys := by
  obtain ⟨keys, hok, hnodup, hmem, hfirst⟩ := DesiredState.orderDesiredKeys_eq_ok nodup_keys
    (fun k k' h => keyRank_lt h) (P.desiredState.descendantKeySet root)
  refine ⟨keys, hok, hnodup, ?_, hfirst⟩
  intro k
  rw [hmem, DesiredState.mem_descendantKeySet nodup_keys hroot, and_iff_right_iff_imp]
  intro h
  rcases descends_iff.mp h with rfl | ⟨d, -, hdep⟩
  · exact hroot
  · exact hdep.mem_keys

theorem exists_nearestAnchor (root : ObjectKey) (allowRootKey : Bool) :
    ∃ key, P.desiredState.findNearestReplayAnchorKey root allowRootKey = .ok key := by
  have hrank : ∀ current next,
      P.desiredState.nextAnchorKey root allowRootKey current = some next →
        P.keyRank next < P.keyRank current := by
    intro current next hnext
    rcases DesiredState.nextAnchorKey_cases hnext with ⟨view, -, rfl, rfl⟩ | ⟨-, hdep, -⟩
    · exact Nat.lt_succ_of_le (keyRank_le_of_table (.inl rfl))
    · exact keyRank_lt hdep
  exact DesiredState.nearestAnchor_eq_ok hrank nodup_nil (by simp) (by simp) (by simp)

/-- The query of the model with the first name refers to the second name. -/
def Refers (P : RealizedProject) (reader name : String) : Prop :=
  (∃ m ∈ P.tableModels, m.name = reader ∧ name ∈ m.parsedRefs) ∨
    ∃ v ∈ P.viewModels, v.name = reader ∧ name ∈ v.parsedRefs

/-- The model is the named one or reads it, directly or through others. -/
def Reads (P : RealizedProject) : String → String → Prop := Relation.ReflTransGen P.Refers

/-- The relations that realize the model with a name. -/
def relationKeys (P : RealizedProject) (name : String) : List ObjectKey :=
  (P.tableModels.filter (·.name = name)).flatMap (fun m => [m.tableKey, m.viewKey]) ++
    (P.viewModels.filter (·.name = name)).map (·.viewKey)

/-- The table of a model is on a driving chain from a key just if it is the key, or its driving
input is. -/
theorem drivenFrom_tableKey (hm : m ∈ P.tableModels) :
    P.DrivenFrom root m.tableKey ↔ root = m.tableKey ∨
      ∃ key, P.relationKeyByName m.source = some key ∧ P.DrivenFrom root key := by
  constructor
  · intro h
    rcases Relation.ReflTransGen.cases_tail h with heq | ⟨b, hdriven, m', hm', hkey, hsource⟩
    · exact .inl heq.symm
    · obtain rfl := tableKey_unique hm' hm hkey
      exact .inr ⟨b, hsource, hdriven⟩
  · rintro (rfl | ⟨key, hsource, hdriven⟩)
    · exact .refl
    · exact hdriven.tail ⟨m, hm, rfl, hsource⟩

theorem mem_relationKeys {name : String} :
    key ∈ P.relationKeys name ↔
      (∃ m ∈ P.tableModels, m.name = name ∧ (key = m.tableKey ∨ key = m.viewKey)) ∨
        ∃ v ∈ P.viewModels, v.name = name ∧ key = v.viewKey := by
  simp [relationKeys, and_assoc, eq_comm]

/-- The key is the table or the materialized view of a table model, or the view of a view
model. -/
def ModelRelation (P : RealizedProject) (key : ObjectKey) : Prop :=
  (∃ m ∈ P.tableModels, key = m.tableKey ∨ key = m.viewKey) ∨ ∃ v ∈ P.viewModels, key = v.viewKey

theorem ModelRelation.of_dependsOn (h : P.ModelRelation k')
    (hdep : P.desiredState.DependsOn k k') : P.ModelRelation k := by
  rcases dependsOn_cases hdep with ⟨s, hs, hmanaged, -, rfl | rfl⟩ | ⟨m, hm, rfl, -⟩ |
    ⟨m, hm, rfl, -⟩ | ⟨v, hv, rfl, -⟩
  · rcases h with ⟨m, -, h | h⟩ | ⟨v, -, h⟩
    · cases h
    · cases h
    · cases h
  · rcases h with ⟨m, hm, h | h⟩ | ⟨v, -, h⟩
    · exact absurd h (relationKey_ne_tableKey hs hm)
    · cases h
    · cases h
  · exact .inl ⟨m, hm, .inl rfl⟩
  · exact .inl ⟨m, hm, .inr rfl⟩
  · exact .inr ⟨v, hv, rfl⟩

theorem ModelRelation.of_descends (h : P.ModelRelation root)
    (hdescends : P.desiredState.Descends root k) : P.ModelRelation k := by
  induction hdescends with
  | refl => exact h
  | tail _ hdep ih => exact ih.of_dependsOn hdep

theorem viewModel_mem_keys (hv : v ∈ P.viewModels) : v.viewKey ∈ P.desiredState.keys :=
  mem_map.mpr ⟨.view (P.viewModelView v), mem_objects.mpr (.inr (.inr ⟨v, hv, rfl⟩)), rfl⟩

theorem ModelRelation.mem_keys (h : P.ModelRelation key) : key ∈ P.desiredState.keys := by
  rcases h with ⟨m, hm, rfl | rfl⟩ | ⟨v, hv, rfl⟩
  · exact tableKey_mem_keys hm
  · exact viewKey_mem_keys hm
  · exact viewModel_mem_keys hv

/-- A relation of a model from which another key than itself descends is a table. -/
theorem eq_or_tableKey_of_descends (hroot : P.ModelRelation root)
    (h : P.desiredState.Descends root k) : k = root ∨ ∃ m ∈ P.tableModels, root = m.tableKey := by
  rcases Relation.ReflTransGen.cases_head h with rfl | ⟨b, hdep, -⟩
  · exact .inl rfl
  · have htype := dependsOn_objectType hdep
    rcases hroot with ⟨m, hm, rfl | rfl⟩ | ⟨v, -, rfl⟩
    · exact .inr ⟨m, hm, rfl⟩
    · simp [viewKey] at htype
    · simp [RealizedViewModel.viewKey] at htype

end RealizedProject

end SqlTide.Compiler
