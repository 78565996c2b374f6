import SqlTide.Planner.BuildScope

/-!
# Teardown and creation of a scope

The relations of the models in a scope, dropped by kind from the views down and created by kind
from the tables up. In a scope that lists a model behind what it reads, no relation is dropped
before one that reads it, and none is created before what its definition reads.
-/

namespace SqlTide.Planner

open Compiler Foundations List Population RealizedProject

/-- The entries of some models, each behind the models that it reads. -/
structure OrderedEntries (P : RealizedProject) where
  entries : List DirectPlanEntry
  relations : ∀ entry ∈ entries, entry.relations = modelRelations P entry.modelKey.name
  names_nodup : (entries.map (·.modelKey.name)).Nodup
  ordered : entries.Pairwise fun a b => ¬ P.Reads a.modelKey.name b.modelKey.name

def DirectResourceKind.objectType : DirectResourceKind → DesiredObjectType
  | .table => .table
  | .materializedView => .materializedView
  | .view => .view

/-- The place of a kind in the creation. -/
def DirectResourceKind.rank : DirectResourceKind → ℕ
  | .table => 0
  | .materializedView => 1
  | .view => 2

namespace DirectRelationOperation

def objectKey (operation : DirectRelationOperation) : ObjectKey :=
  ⟨operation.resourceKind.objectType, operation.relationName⟩

def relation (operation : DirectRelationOperation) : String × DirectResourceKind :=
  (operation.relationName, operation.resourceKind)

/-- The model of the one operation reads that of the other, directly or through others. -/
def ModelReads (P : RealizedProject) (a b : DirectRelationOperation) : Prop :=
  P.Reads a.modelKey.name b.modelKey.name

/-- The relation of the one operation is defined over that of the other. -/
def DefinedOver (P : RealizedProject) (a b : DirectRelationOperation) : Prop :=
  P.desiredState.DependsOn a.objectKey b.objectKey

end DirectRelationOperation

open DirectRelationOperation

section

variable {entries : List DirectPlanEntry} {action : DirectRelationAction}
  {kind : DirectResourceKind} {operation : DirectRelationOperation}

theorem mem_relationOperations : operation ∈ relationOperations entries action kind ↔
    ∃ entry ∈ entries, operation.relation ∈ entry.relations ∧ operation.resourceKind = kind ∧
      operation.action = action ∧ operation.modelKey = entry.modelKey := by
  simp only [relationOperations, mem_flatMap, mem_map, mem_filter, decide_eq_true_eq]
  constructor
  · rintro ⟨entry, hentry, relation, ⟨hrelation, hkind⟩, rfl⟩
    exact ⟨entry, hentry, hrelation, hkind, rfl, rfl⟩
  · rintro ⟨entry, hentry, hrelation, hkind, haction, hmodel⟩
    refine ⟨entry, hentry, operation.relation, ⟨hrelation, hkind⟩, ?_⟩
    obtain ⟨relationName, operationAction, modelKey, resourceKind⟩ := operation
    obtain rfl : operationAction = action := haction
    obtain rfl : modelKey = entry.modelKey := hmodel
    rfl

theorem map_relationOperations (entries : List DirectPlanEntry) :
    (relationOperations entries action kind).map relation =
      (entries.flatMap (·.relations)).filter fun relation => relation.2 = kind := by
  induction entries with
  | nil => rfl
  | cons entry entries ih =>
    have hentry : ((entry.relations.filter fun relation => relation.2 = kind).map
        fun relation => DirectRelationOperation.relation
          { relationName := relation.1, action := action, modelKey := entry.modelKey,
            resourceKind := relation.2 }) =
        entry.relations.filter fun relation => relation.2 = kind := by
      simp [DirectRelationOperation.relation]
    simp only [relationOperations, flatMap_cons, map_append, map_map, filter_append] at ih ⊢
    rw [ih]
    exact congrArg (· ++ _) hentry

theorem perm_kinds (relations : List (String × DirectResourceKind)) :
    (relations.filter (fun relation => relation.2 = .table) ++
      (relations.filter (fun relation => relation.2 = .materializedView) ++
        relations.filter (fun relation => relation.2 = .view))).Perm relations := by
  induction relations with
  | nil => exact .refl _
  | cons relation relations ih =>
    obtain ⟨name, kind⟩ := relation
    cases kind with
    | table => simpa using ih.cons (name, .table)
    | materializedView => simpa using perm_middle.trans (ih.cons (name, .materializedView))
    | view =>
      have hlast := perm_middle.trans (ih.cons (name, DirectResourceKind.view))
      simpa using (List.Perm.append_left _ perm_middle).trans hlast

end

namespace ValidatedProject

variable {V : ValidatedProject}

theorem mem_modelRelations_name {P : RealizedProject} {name : String}
    {relation : String × DirectResourceKind} (h : relation ∈ modelRelations P name) :
    (∃ m ∈ P.tableModels, m.name = name ∧
      relation.1 ∈ [m.relationName, materializedViewName m.name]) ∨
    ∃ v ∈ P.viewModels, v.name = name ∧ relation.1 = v.relationName := by
  rcases mem_modelRelations.mp h with ⟨m, hm, hname, rfl | rfl⟩ | ⟨v, hv, hname, rfl⟩
  · exact .inl ⟨m, hm, hname, by simp⟩
  · exact .inl ⟨m, hm, hname, by simp⟩
  · exact .inr ⟨v, hv, hname, rfl⟩

theorem owner_unique {name name' : String} {relation relation' : String × DirectResourceKind}
    (h : relation ∈ modelRelations V.toRealizedProject name)
    (h' : relation' ∈ modelRelations V.toRealizedProject name')
    (hname : relation.1 = relation'.1) : name = name' := by
  have hclaimed := (nodup_append.mp (nodup_append.mp V.relationNames_claimed).1).2.1
  obtain ⟨htables, hviews, hapart⟩ := nodup_append.mp hclaimed
  rcases mem_modelRelations_name h with ⟨m, hm, rfl, hrel⟩ | ⟨v, hv, rfl, hrel⟩ <;>
    rcases mem_modelRelations_name h' with ⟨m', hm', rfl, hrel'⟩ | ⟨v', hv', rfl, hrel'⟩
  · by_contra hne
    have : Std.Symm (Function.onFun List.Disjoint fun m : RealizedTableModel =>
        [m.relationName, materializedViewName m.name]) := ⟨fun _ _ hdisjoint => hdisjoint.symm⟩
    exact (nodup_flatMap.mp htables).2.forall hm hm' (fun heq => hne (heq ▸ rfl)) hrel
      (hname ▸ hrel')
  · exact absurd (hname.trans hrel') (hapart _ (mem_flatMap.mpr ⟨m, hm, hrel⟩) _
      (mem_map_of_mem hv'))
  · exact absurd (hname.symm.trans hrel) (hapart _ (mem_flatMap.mpr ⟨m', hm', hrel'⟩) _
      (mem_map_of_mem hv))
  · have hsame : v.relationName = v'.relationName := hrel.symm.trans (hname.trans hrel')
    exact congrArg RealizedViewModel.name (inj_on_of_nodup_map hviews hv hv' hsame)

theorem nodup_modelRelations (V : ValidatedProject) (name : String) :
    ((modelRelations V.toRealizedProject name).map Prod.fst).Nodup := by
  unfold modelRelations
  cases htable : tableModelByName V.toRealizedProject name with
  | some m =>
    have hclaimed := (nodup_append.mp (nodup_append.mp V.relationNames_claimed).1).2.1
    exact (nodup_flatMap.mp (nodup_append.mp hclaimed).1).1 m (tableModelByName_eq_some.mp htable).1
  | none =>
    cases V.viewModels.find? fun v => v.name = name with
    | some v => simp
    | none => simp

end ValidatedProject

namespace OrderedEntries

variable {V : ValidatedProject} (S : OrderedEntries V.toRealizedProject)

/-- The relations of the scope. -/
def ownedRelations : List (String × DirectResourceKind) := S.entries.flatMap (·.relations)

theorem nodup_ownedRelations : (S.ownedRelations.map Prod.fst).Nodup := by
  rw [ownedRelations, map_flatMap]
  refine nodup_flatMap.mpr ⟨?_, ?_⟩
  · intro entry hentry
    rw [S.relations entry hentry]
    exact ValidatedProject.nodup_modelRelations V _
  · have hnames : S.entries.Pairwise fun a b => a.modelKey.name ≠ b.modelKey.name :=
      pairwise_map.mp S.names_nodup
    refine hnames.imp_of_mem fun {a b} ha hb hne name hname hname' => hne ?_
    obtain ⟨relation, hrelation, rfl⟩ := mem_map.mp hname
    obtain ⟨relation', hrelation', hsame⟩ := mem_map.mp hname'
    rw [S.relations a ha] at hrelation
    rw [S.relations b hb] at hrelation'
    exact ValidatedProject.owner_unique hrelation hrelation' hsame.symm

theorem perm_teardownOperations :
    ((teardownOperations S.entries).map relation).Perm S.ownedRelations := by
  have hsplit : (teardownOperations S.entries).map relation =
      (S.entries.reverse.flatMap (·.relations)).filter (fun relation => relation.2 = .view) ++
        ((S.entries.reverse.flatMap (·.relations)).filter
            (fun relation => relation.2 = .materializedView) ++
          (S.entries.reverse.flatMap (·.relations)).filter
            fun relation => relation.2 = .table) := by
    simp only [teardownOperations, flatMap_cons, flatMap_nil, append_nil,
      map_append, map_relationOperations]
  rw [hsplit]
  refine ((List.Perm.append_left _ perm_append_comm).trans perm_append_comm).trans ?_
  rw [append_assoc]
  exact (perm_kinds _).trans (List.Perm.flatMap_right _ (reverse_perm S.entries))

theorem perm_creationOperations :
    ((creationOperations S.entries).map relation).Perm S.ownedRelations := by
  have hsplit : (creationOperations S.entries).map relation =
      S.ownedRelations.filter (fun relation => relation.2 = .table) ++
        (S.ownedRelations.filter (fun relation => relation.2 = .materializedView) ++
          S.ownedRelations.filter fun relation => relation.2 = .view) := by
    simp only [creationOperations, flatMap_cons, flatMap_nil, append_nil,
      map_append, map_relationOperations, ownedRelations]
  rw [hsplit]
  exact perm_kinds _

/-- Dropped before: of a kind that goes first, or of the same kind and not read by the model of the
other. -/
def DropsFirst (P : RealizedProject) (a b : DirectRelationOperation) : Prop :=
  b.resourceKind.rank < a.resourceKind.rank ∨
    a.resourceKind = b.resourceKind ∧ ¬ ModelReads P b a

def CreatesFirst (P : RealizedProject) (a b : DirectRelationOperation) : Prop :=
  a.resourceKind.rank < b.resourceKind.rank ∨
    a.resourceKind = b.resourceKind ∧ ¬ ModelReads P a b

variable {P : RealizedProject} {T : String → String → Prop} {kinds : List DirectResourceKind}

theorem eq_of_same_kind {name : String} {a b : String × DirectResourceKind}
    (ha : a ∈ modelRelations P name) (hb : b ∈ modelRelations P name) (hkind : a.2 = b.2) :
    a = b := by
  unfold modelRelations at ha hb
  cases htable : tableModelByName P name with
  | some m =>
    simp only [htable] at ha hb
    rcases mem_pair.mp ha with rfl | rfl <;> rcases mem_pair.mp hb with rfl | rfl
    · rfl
    · cases hkind
    · cases hkind
    · rfl
  | none =>
    simp only [htable] at ha hb
    cases hview : P.viewModels.find? fun v => v.name = name with
    | some v =>
      simp only [hview] at ha hb
      exact (mem_singleton.mp ha).trans (mem_singleton.mp hb).symm
    | none =>
      simp only [hview] at ha
      cases ha

variable {entries : List DirectPlanEntry}

section

variable (hentries : ∀ entry ∈ entries, entry ∈ S.entries)
  (hordered : entries.Pairwise fun a b => T a.modelKey.name b.modelKey.name)
  (action : DirectRelationAction)

include hentries hordered action

theorem pairwise_relationOperations (kind : DirectResourceKind) :
    (relationOperations entries action kind).Pairwise fun a b =>
      T a.modelKey.name b.modelKey.name := by
  refine pairwise_flatMap.mpr ⟨?_, ?_⟩
  · intro entry hentry
    have hrelations := S.relations entry (hentries entry hentry)
    have hnodup : entry.relations.Nodup := by
      rw [hrelations]
      exact List.Nodup.of_map _ (ValidatedProject.nodup_modelRelations V _)
    refine pairwise_map.mpr ((hnodup.filter _).imp_of_mem fun {a b} ha hb hne => ?_)
    obtain ⟨ha, hakind⟩ := mem_filter.mp ha
    obtain ⟨hb, hbkind⟩ := mem_filter.mp hb
    rw [hrelations] at ha hb
    exact absurd (eq_of_same_kind ha hb ((of_decide_eq_true hakind).trans
      (of_decide_eq_true hbkind).symm)) hne
  · refine hordered.imp fun {a b} hab first hfirst second hsecond => ?_
    obtain ⟨-, -, rfl⟩ := mem_map.mp hfirst
    obtain ⟨-, -, rfl⟩ := mem_map.mp hsecond
    exact hab

/-- Operations kind by kind: the kinds are in their order, and each stands in the order of the
entries. -/
theorem pairwise_flatMap_relationOperations {K : DirectResourceKind → DirectResourceKind → Prop}
    (hkinds : kinds.Pairwise K) :
    (kinds.flatMap (relationOperations entries action)).Pairwise fun a b =>
      K a.resourceKind b.resourceKind ∨
        a.resourceKind = b.resourceKind ∧ T a.modelKey.name b.modelKey.name := by
  refine pairwise_flatMap.mpr ⟨fun kind _ => ?_, ?_⟩
  · refine (S.pairwise_relationOperations hentries hordered action kind).imp_of_mem ?_
    intro a b ha hb hab
    obtain ⟨-, -, -, hakind, -⟩ := mem_relationOperations.mp ha
    obtain ⟨-, -, -, hbkind, -⟩ := mem_relationOperations.mp hb
    exact .inr ⟨hakind.trans hbkind.symm, hab⟩
  · refine hkinds.imp fun {kind kind'} hkind a ha b hb => ?_
    obtain ⟨-, -, -, rfl, -⟩ := mem_relationOperations.mp ha
    obtain ⟨-, -, -, rfl, -⟩ := mem_relationOperations.mp hb
    exact .inl hkind

end

theorem pairwise_teardownOperations :
    (teardownOperations S.entries).Pairwise (DropsFirst V.toRealizedProject) := by
  have hordered : S.entries.reverse.Pairwise fun a b =>
      ¬ V.Reads b.modelKey.name a.modelKey.name := pairwise_reverse.mpr S.ordered
  have hkinds : [DirectResourceKind.view, .materializedView, .table].Pairwise
      fun a b => b.rank < a.rank := by decide
  exact S.pairwise_flatMap_relationOperations (T := fun a b => ¬ V.Reads b a)
    (fun entry hentry => mem_reverse.mp hentry) hordered .drop hkinds

theorem pairwise_creationOperations :
    (creationOperations S.entries).Pairwise (CreatesFirst V.toRealizedProject) := by
  have hkinds : [DirectResourceKind.table, .materializedView, .view].Pairwise
      fun a b => a.rank < b.rank := by decide
  exact S.pairwise_flatMap_relationOperations (T := fun a b => ¬ V.Reads a b)
    (fun entry hentry => hentry) S.ordered .create hkinds

/-- Only tables are read, and a table is defined over another one just through its driving input. -/
theorem definedOver_cases {a b : DirectRelationOperation}
    (ha : a.relation ∈ modelRelations P a.modelKey.name)
    (hb : b.relation ∈ modelRelations P b.modelKey.name) (h : DefinedOver P a b) :
    b.resourceKind = .table ∧ (a.resourceKind ≠ .table ∨ ModelReads P a b) := by
  have htable : b.resourceKind = .table := by
    have htype := dependsOn_objectType h
    unfold objectKey at htype
    cases hkind : b.resourceKind <;> rw [hkind] at htype <;>
      simp [DirectResourceKind.objectType] at htype ⊢
  refine ⟨htable, ?_⟩
  by_cases hkind : a.resourceKind = .table
  · right
    have hmodel : ∀ c : DirectRelationOperation, c.relation ∈ modelRelations P c.modelKey.name →
        c.resourceKind = .table →
        ∃ m ∈ P.tableModels, m.name = c.modelKey.name ∧ c.objectKey = m.tableKey := by
      intro c hc hctable
      have hkey : ∀ m : RealizedTableModel, c.relationName = m.relationName →
          c.objectKey = m.tableKey := by
        intro m hname
        rw [objectKey, hctable, hname]
        rfl
      rcases mem_modelRelations.mp hc with ⟨m, hm, hname, hrel | hrel⟩ | ⟨v, -, -, hrel⟩
      · exact ⟨m, hm, hname, hkey m (congrArg Prod.fst hrel)⟩
      · exact absurd (hctable.symm.trans (congrArg Prod.snd hrel)) (by simp)
      · exact absurd (hctable.symm.trans (congrArg Prod.snd hrel)) (by simp)
    obtain ⟨m, hm, hname, hkey⟩ := hmodel a ha hkind
    obtain ⟨parent, hparent, hparentName, hparentKey⟩ := hmodel b hb htable
    unfold DefinedOver at h
    rw [hkey, hparentKey] at h
    rcases dependsOn_cases h with ⟨s, -, -, hwrong, -⟩ | ⟨m', hm', hsame, hsource⟩ |
      ⟨m', -, hwrong, -⟩ | ⟨v, -, hwrong, -⟩
    · cases hwrong
    · obtain rfl := tableKey_unique hm hm' hsame
      rcases relationKeyByName_cases hsource with ⟨s, hs, -, hsourceKey⟩ |
        ⟨other, hother, hotherName, hotherKey⟩
      · exact absurd hsourceKey.symm (relationKey_ne_tableKey hs hparent)
      · obtain rfl := tableKey_unique hparent hother hotherKey
        refine .single (.inl ⟨m, hm, hname, ?_⟩)
        rw [← hparentName, hotherName]
        exact P.driving_parsed m hm
    · cases hwrong
    · cases hwrong
  · exact .inl hkind

theorem relation_mem_of_mem {operation : DirectRelationOperation} {action : DirectRelationAction}
    (hentries : ∀ entry ∈ entries, entry ∈ S.entries)
    (h : operation ∈ kinds.flatMap (relationOperations entries action)) :
    operation.action = action ∧
      operation.relation ∈ modelRelations V.toRealizedProject operation.modelKey.name := by
  obtain ⟨kind, -, h⟩ := mem_flatMap.mp h
  obtain ⟨entry, hentry, hrelation, -, haction, hmodel⟩ := mem_relationOperations.mp h
  rw [S.relations entry (hentries entry hentry), ← hmodel] at hrelation
  exact ⟨haction, hrelation⟩

/-- What the teardown of a scope drops, and in which order. -/
structure TearsDown (operations : List DirectRelationOperation) : Prop where
  relations : (operations.map relation).Perm S.ownedRelations
  names_nodup : (operations.map (·.relationName)).Nodup
  action : ∀ operation ∈ operations, operation.action = .drop
  ordered : operations.Pairwise (DropsFirst V.toRealizedProject)
  readers_first : operations.Pairwise fun a b => ¬ DefinedOver V.toRealizedProject b a

/-- What the creation of a scope creates, and in which order. -/
structure Creates (operations : List DirectRelationOperation) : Prop where
  relations : (operations.map relation).Perm S.ownedRelations
  names_nodup : (operations.map (·.relationName)).Nodup
  action : ∀ operation ∈ operations, operation.action = .create
  ordered : operations.Pairwise (CreatesFirst V.toRealizedProject)
  read_first : operations.Pairwise fun a b => ¬ DefinedOver V.toRealizedProject a b

theorem nodup_names_of_perm {operations : List DirectRelationOperation}
    (h : (operations.map relation).Perm S.ownedRelations) :
    (operations.map (·.relationName)).Nodup := by
  have hnames := (h.map Prod.fst).nodup_iff.mpr S.nodup_ownedRelations
  rwa [map_map] at hnames

theorem tearsDown : S.TearsDown (teardownOperations S.entries) := by
  have hmem : ∀ operation ∈ teardownOperations S.entries, operation.action = .drop ∧
      operation.relation ∈ modelRelations V.toRealizedProject operation.modelKey.name :=
    fun _ => S.relation_mem_of_mem fun _ => mem_reverse.mp
  refine ⟨S.perm_teardownOperations, S.nodup_names_of_perm S.perm_teardownOperations,
    fun operation h => (hmem operation h).1, S.pairwise_teardownOperations, ?_⟩
  refine S.pairwise_teardownOperations.imp_of_mem fun {a b} ha hb hfirst hdefined => ?_
  obtain ⟨hread, hreader⟩ := definedOver_cases (hmem b hb).2 (hmem a ha).2 hdefined
  rcases hfirst with hrank | ⟨hkind, hnot⟩
  · rw [hread] at hrank
    exact absurd hrank (Nat.not_lt_zero _)
  · rcases hreader with hreader | hreads
    · exact hreader (hkind.symm.trans hread)
    · exact hnot hreads

theorem creates : S.Creates (creationOperations S.entries) := by
  have hmem : ∀ operation ∈ creationOperations S.entries, operation.action = .create ∧
      operation.relation ∈ modelRelations V.toRealizedProject operation.modelKey.name :=
    fun _ => S.relation_mem_of_mem fun _ => id
  refine ⟨S.perm_creationOperations, S.nodup_names_of_perm S.perm_creationOperations,
    fun operation h => (hmem operation h).1, S.pairwise_creationOperations, ?_⟩
  refine S.pairwise_creationOperations.imp_of_mem fun {a b} ha hb hfirst hdefined => ?_
  obtain ⟨hread, hreader⟩ := definedOver_cases (hmem a ha).2 (hmem b hb).2 hdefined
  rcases hfirst with hrank | ⟨hkind, hnot⟩
  · rw [hread] at hrank
    exact absurd hrank (Nat.not_lt_zero _)
  · rcases hreader with hreader | hreads
    · exact hreader (hkind.trans hread)
    · exact hnot hreads

end OrderedEntries

/-- For every scope in order, the teardown drops readers first and the creation creates what is
read first, each relation of the scope once. -/
theorem tearsDown_and_creates (V : ValidatedProject) (S : OrderedEntries V.toRealizedProject) :
    S.TearsDown (teardownOperations S.entries) ∧ S.Creates (creationOperations S.entries) :=
  ⟨S.tearsDown, S.creates⟩

namespace DirectPlanRequest

variable {V : ValidatedProject} {R : DirectPlanRequest V.toRealizedProject}

theorem idxOf_lt_of_refers {reader name : String} (h : V.Refers reader name) :
    V.orderedNames.idxOf name < V.orderedNames.idxOf reader := by
  rcases h with ⟨m, hm, rfl, hr⟩ | ⟨v, hv, rfl, hr⟩
  · exact V.upstream_first m hm name hr
  · exact V.view_upstream_first v hv name hr

theorem idxOf_le_of_reads {reader name : String} (h : V.Reads reader name) :
    V.orderedNames.idxOf name ≤ V.orderedNames.idxOf reader := by
  induction h with
  | refl => exact le_rfl
  | tail _ hlast ih => exact (idxOf_lt_of_refers hlast).le.trans ih

theorem pairwise_executionScope :
    (R.executionScope.map (·.name)).Nodup ∧
      R.executionScope.Pairwise fun a b => ¬ V.Reads a.name b.name := by
  have hnodup : V.orderedNames.Nodup := V.names_ordered.nodup_iff.mpr V.names_nodup
  have hsub : (R.executionScope.map (·.name)).Sublist V.orderedNames := by
    have hnames : (V.lineageGraph.orderedKeys).map (·.name) = V.orderedNames := by
      rw [lineageGraph, map_map]
      exact map_id _
    rw [← hnames]
    exact (filter_sublist.trans filter_sublist).map _
  refine ⟨hsub.nodup hnodup, ?_⟩
  have hordered : V.orderedNames.Pairwise fun a b => ¬ V.Reads a b := by
    rw [pairwise_iff_getElem]
    intro i j hi hj hij hreads
    have hle := idxOf_le_of_reads hreads
    rw [hnodup.idxOf_getElem, hnodup.idxOf_getElem] at hle
    omega
  exact pairwise_map.mp (hordered.sublist hsub)

theorem buildEntry_spec {key : LogicalResourceKey} {entry : DirectPlanEntry}
    (h : R.buildEntry key = .ok entry) :
    entry.modelKey = key ∧ entry.relations = modelRelations V.toRealizedProject key.name := by
  unfold buildEntry at h
  split_ifs at h
  · obtain ⟨parent, -, rfl⟩ := map_eq_ok.mp h
    exact ⟨rfl, rfl⟩
  · cases h
    exact ⟨rfl, rfl⟩

theorem map_modelKey_of_mapM {keys : List LogicalResourceKey} {entries : List DirectPlanEntry}
    (h : keys.mapM R.buildEntry = .ok entries) : entries.map (·.modelKey) = keys := by
  have hall := forall₂_of_mapM_eq_ok h
  clear h
  induction hall with
  | nil => rfl
  | cons hentry _ ih => rw [map_cons, ih, (buildEntry_spec hentry).1]

/-- A plan that is returned tears down and creates the scope in order. -/
theorem operations_of_build {plan : DirectPlan} (h : R.build = .ok plan) :
    ∃ S : OrderedEntries V.toRealizedProject, S.entries = plan.entries ∧
      S.entries.map (·.modelKey) = plan.executionScope ∧
      S.TearsDown plan.teardownOperations ∧ S.Creates plan.creationOperations := by
  obtain ⟨-, -, h⟩ := bind_eq_ok.mp h
  obtain ⟨-, -, h⟩ := bind_eq_ok.mp h
  obtain ⟨-, -, h⟩ := bind_eq_ok.mp h
  obtain ⟨entries, hentries, h⟩ := bind_eq_ok.mp h
  obtain ⟨replayRoots, -, h⟩ := bind_eq_ok.mp h
  obtain ⟨-, -, h⟩ := bind_eq_ok.mp h
  obtain rfl : R.planOf entries replayRoots = plan := Except.ok.inj h
  have hkeys := map_modelKey_of_mapM hentries
  obtain ⟨hnodup, hordered⟩ := pairwise_executionScope (R := R)
  rw [← hkeys] at hnodup hordered
  have hrelations : ∀ entry ∈ entries,
      entry.relations = modelRelations V.toRealizedProject entry.modelKey.name := by
    intro entry hentry
    obtain ⟨key, -, hkey⟩ := (mem_of_mapM_eq_ok hentries entry).mp hentry
    obtain ⟨rfl, hrelations⟩ := buildEntry_spec hkey
    exact hrelations
  let S : OrderedEntries V.toRealizedProject :=
    { entries
      relations := hrelations
      names_nodup := by simpa [Function.comp_def] using hnodup
      ordered := pairwise_map.mp hordered }
  exact ⟨S, rfl, hkeys, S.tearsDown, S.creates⟩

def fanInValidated : ValidatedProject where
  toRealizedProject := fanInProject
  relationNames_claimed := by decide
  view_upstream_first := nofun

/-- The first model was built before. -/
def fanInSelection : DirectPlanRequest fanInValidated.toRealizedProject where
  catalog :=
    [⟨"orders_input", "MergeTree", ["_replay_partition", "_replay_offset"], []⟩,
      ⟨"tbl__alpha", "MergeTree", [], []⟩, ⟨"mv__alpha", "MaterializedView", [], ["orders_input"]⟩]
  selectedModelKeys := ∅
  selectionMode := .allModels
  includeMissingUpstream := false

theorem operations_of_build_fanIn :
    ∃ (plan : DirectPlan) (S : OrderedEntries fanInValidated.toRealizedProject),
      fanInSelection.build = .ok plan ∧ S.entries = plan.entries ∧
        S.entries.map (·.modelKey) = plan.executionScope ∧
        S.TearsDown plan.teardownOperations ∧ S.Creates plan.creationOperations := by
  have hok : fanInSelection.build.toOption.isSome = true := by decide
  cases hbuild : fanInSelection.build with
  | error _ =>
    rw [hbuild] at hok
    cases hok
  | ok plan =>
    obtain ⟨S, h⟩ := operations_of_build hbuild
    exact ⟨plan, S, rfl, h⟩

end DirectPlanRequest

end SqlTide.Planner
