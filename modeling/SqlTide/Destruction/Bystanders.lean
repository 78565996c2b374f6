import SqlTide.Destruction.Closure

/-!
# Bystanders of a destruction

A bystander is a current resource that belongs to no affected pipeline and is not
selected. The routes that read the manifests never touch the current relations of a
bystander. The route that reads the recorded deployments has no such guard: it takes
every relation that is recorded for, or published under, an affected logical name.
-/

namespace SqlTide.Destruction

open Compiler Foundations List

namespace Owned

variable {owned before after : Owned} {n l name : String}

/-- The relation `n` is collected under the logical name `l`. -/
def Collects (owned : Owned) (n l : String) : Prop := l ∈ owned.logicalNames n

/-- Every collected relation has a logical name. -/
def Tidy (owned : Owned) : Prop := ∀ n, n ∈ owned.names ↔ ∃ l, owned.Collects n l

theorem tidy_nil : Tidy [] := by
  intro n
  simp [names, Collects, logicalNames]

/-- The step adds these names and keeps the others. -/
structure Grows (before after : Owned) (added : String → String → Prop) : Prop where
  collects : ∀ n l, after.Collects n l ↔ before.Collects n l ∨ added n l
  tidy : before.Tidy → after.Tidy

theorem Grows.refl (owned : Owned) : Grows owned owned fun _ _ => False := by
  constructor
  · simp
  · exact id

variable {added added' : String → String → Prop} {α : Type}

theorem Grows.trans {middle : Owned} (h : Grows before middle added)
    (h' : Grows middle after added') : Grows before after fun n l => added n l ∨ added' n l := by
  constructor
  · intro n l
    rw [h'.collects, h.collects, or_assoc]
  · intro htidy
    exact h'.tidy (h.tidy htidy)

theorem Grows.congr (h : Grows before after added)
    (hsame : ∀ n l, added n l ↔ added' n l) : Grows before after added' := by
  constructor
  · intro n l
    rw [h.collects, hsame]
  · exact h.tidy

variable {kind : DestructionRelationKind} {pipelineName : Option String}
  {ownership : DestructionOwnership}

theorem logicalNames_addOwnedRelation :
    (addOwnedRelation owned name kind l pipelineName ownership).logicalNames n =
      if n = name then insert l (owned.logicalNames name) else owned.logicalNames n := by
  unfold addOwnedRelation
  by_cases hmem : name ∈ owned.names
  · have hfind : ∀ r : OwnedRelation, decide ((if r.name = name then
        r.merge kind l pipelineName ownership else r).name = n) = decide (r.name = n) := by
      intro r
      split_ifs <;> rfl
    simp only [if_pos hmem, logicalNames, find?_map, Function.comp_def, hfind]
    by_cases hn : n = name
    · subst hn
      obtain ⟨r, hr, hname⟩ := mem_map.mp hmem
      obtain ⟨r', hr'⟩ : ∃ r', owned.find? (fun r => r.name = n) = some r' := by
        rw [← Option.isSome_iff_exists, find?_isSome]
        exact ⟨r, hr, by simpa using hname⟩
      have hname' : r'.name = n := by simpa using find?_some hr'
      simp [hr', hname', OwnedRelation.merge]
    · rw [if_neg hn]
      cases hr' : owned.find? (fun r => r.name = n) with
      | none => rfl
      | some r' =>
        have hname' : r'.name = n := by simpa using find?_some hr'
        simp [hname', hn]
  · simp only [if_neg hmem, logicalNames, find?_append]
    by_cases hn : n = name
    · subst hn
      have hnone : owned.find? (fun r => r.name = n) = none := by
        rw [find?_eq_none]
        intro r hr hname
        exact hmem (mem_map.mpr ⟨r, hr, by simpa using hname⟩)
      simp [hnone]
    · have hsingle : find? (fun r : OwnedRelation => decide (r.name = n))
          [{ name := name, kind := kind, logicalNames := {l},
             pipelineNames := pipelineName.toFinset, ownership := {ownership} }] = none := by
        simp [Ne.symm hn]
      rw [hsingle, Option.or_none, if_neg hn]

theorem mem_names_addOwnedRelation :
    n ∈ (addOwnedRelation owned name kind l pipelineName ownership).names ↔
      n ∈ owned.names ∨ n = name := by
  unfold addOwnedRelation
  by_cases hmem : name ∈ owned.names
  · have hsame : ∀ r : OwnedRelation, (if r.name = name then
        r.merge kind l pipelineName ownership else r).name = r.name := by
      intro r
      split_ifs <;> rfl
    rw [if_pos hmem]
    simp only [names, map_map, Function.comp_def, hsame]
    constructor
    · intro h
      exact .inl h
    · rintro (h | rfl)
      · exact h
      · exact hmem
  · rw [if_neg hmem]
    simp [names, eq_comm]

theorem grows_addOwnedRelation :
    Grows owned (addOwnedRelation owned name kind l pipelineName ownership)
      fun n' l' => n' = name ∧ l' = l := by
  have hcollects : ∀ n' l',
      (addOwnedRelation owned name kind l pipelineName ownership).Collects n' l' ↔
        owned.Collects n' l' ∨ (n' = name ∧ l' = l) := by
    intro n' l'
    rw [Collects, logicalNames_addOwnedRelation]
    by_cases hn : n' = name
    · subst hn
      simp [Collects, or_comm]
    · simp [hn, Collects]
  refine ⟨hcollects, ?_⟩
  intro htidy n'
  rw [mem_names_addOwnedRelation, htidy n']
  simp only [hcollects]
  constructor
  · rintro (⟨l', h⟩ | rfl)
    · exact ⟨l', .inl h⟩
    · exact ⟨l, .inr ⟨rfl, rfl⟩⟩
  · rintro ⟨l', h | ⟨rfl, -⟩⟩
    · exact .inl ⟨l', h⟩
    · exact .inr rfl

theorem grows_foldl {step : Owned → α → Owned} (added : α → String → String → Prop)
    (hstep : ∀ owned a, Grows owned (step owned a) (added a)) (items : List α) (owned : Owned) :
    Grows owned (items.foldl step owned) fun n l => ∃ a ∈ items, added a n l := by
  induction items generalizing owned with
  | nil => exact (Grows.refl owned).congr (by simp)
  | cons a items ih =>
    apply ((hstep owned a).trans (ih (step owned a))).congr
    simp

theorem grows_foldlM {step : Owned → α → Except DestructionError Owned}
    {added : α → String → String → Prop}
    (hstep : ∀ owned a owned', step owned a = .ok owned' → Grows owned owned' (added a))
    {items : List α} {owned' : Owned} (h : items.foldlM step owned = .ok owned') :
    Grows owned owned' fun n l => ∃ a ∈ items, added a n l := by
  induction items generalizing owned with
  | nil =>
    simp only [foldlM_nil, pure, Except.pure, Except.ok.injEq] at h
    subst h
    exact (Grows.refl owned).congr (by simp)
  | cons a items ih =>
    rw [foldlM_cons, bind_eq_ok] at h
    obtain ⟨middle, hfirst, hrest⟩ := h
    apply ((hstep owned a middle hfirst).trans (ih hrest)).congr
    simp

theorem grows_addAssociatedRelation {pipelineNames : List String} :
    Grows owned (addAssociatedRelation owned name kind l pipelineNames ownership)
      fun n' l' => n' = name ∧ l' = l := by
  unfold addAssociatedRelation
  apply (grows_foldl (fun _ n' l' => n' = name ∧ l' = l)
    (fun owned _ => grows_addOwnedRelation) _ owned).congr
  intro n' l'
  constructor
  · rintro ⟨-, -, h⟩
    exact h
  · intro h
    by_cases hempty : pipelineNames = []
    · exact ⟨none, by simp [hempty], h⟩
    · obtain ⟨p, rest, rfl⟩ := exists_cons_of_ne_nil hempty
      exact ⟨some p, by simp, h⟩

end Owned

namespace DeploymentInventory

variable (inventory : DeploymentInventory)

def Records (m : PreparedObjectMapping) : Prop :=
  ∃ d ∈ inventory.deployments, m ∈ d.preparedObjectMappings

def Publishes (b : StableBinding) : Prop := ∃ e ∈ inventory.publishEvents, b ∈ e.bindings

variable {inventory}

theorem mem_orderedMappings {m : PreparedObjectMapping} :
    m ∈ orderedMappings inventory ↔ inventory.Records m := by
  simp [orderedMappings, Records]

theorem mem_orderedBindings {b : StableBinding} :
    b ∈ orderedBindings inventory ↔ inventory.Publishes b := by
  simp [orderedBindings, Publishes]

theorem Publishes.ne_physicalName {b b' : StableBinding} (h : inventory.Publishes b)
    (h' : inventory.Publishes b') : b.logicalName ≠ b'.physicalName := by
  obtain ⟨e, he, hb⟩ := h
  obtain ⟨e', he', hb'⟩ := h'
  exact inventory.stable_not_physical e he b hb e' he' b' hb'

end DeploymentInventory

variable (A : CompileAnalysis) (request : DestructionRequest) (connection : PlanningConnection)

/-- The manifests of the project in this target. -/
def manifestHistory : ManifestSnapshot :=
  connection.loadManifests request.metadataDatabase (manifestProjectIdentity A) request.target
    request.database

namespace RelationScope

variable (scope : RelationScope)

/-- A relation of a selected resource, with the logical name of the resource. -/
def Selected (n l : String) : Prop :=
  ∃ k ∈ scope.selectedKeys A request, k.name = l ∧
    ∃ r ∈ A.resourcesByLogicalKey k, r.name = n ∧ excludedMetadataRelation n = false

/-- A relation that an earlier manifest leaves to the affected pipelines. -/
def Historical (n l : String) : Prop :=
  scope.withHistory request = true ∧ (manifestHistory A request connection).status ≠ .absent ∧
    ∃ resources, eligibleHistoricalResources (manifestHistory A request connection)
        scope.affected scope.inactive request.database (currentManifestResourceNames A)
        scope.catalog = .ok resources ∧
      ∃ r ∈ resources, r.resourceName = n ∧ r.logicalName = l

/-- A relation that a deployment recorded under an affected logical name. -/
def Mapped (n l : String) : Prop :=
  ∃ m, scope.inventory.Records m ∧
    (scope.inventoryScope A request).covers m.logicalModelName = true ∧
    m.physicalName = n ∧ m.logicalModelName = l ∧ excludedMetadataRelation n = false

/-- A relation that the manifests or the mappings attribute to a logical name. -/
def Attributed (n l : String) : Prop :=
  scope.Selected A request n l ∨ scope.Historical A request connection n l ∨
    scope.Mapped A request n l

/-- The logical name of a stable name: the smallest one it is attributed to, or else
the one last recorded for it. -/
def StableNameOf (n l : String) : Prop :=
  IsLeast {l | scope.Attributed A request connection n l} l ∨
    (∀ l, ¬ scope.Attributed A request connection n l) ∧
      l = (logicalNameByPublishedName scope.inventory n).getD n

/-- A binding published in the target database for an affected logical name. -/
def Takes (b : StableBinding) : Prop :=
  scope.inventory.Publishes b ∧ b.database = request.database ∧
    excludedMetadataRelation b.logicalName = false ∧
    ∃ l, scope.StableNameOf A request connection b.logicalName l ∧
      (scope.inventoryScope A request).covers l = true

end RelationScope

variable {A request connection}

theorem grows_manifestOwnedRelations (keys : List LogicalResourceKey)
    (logicalPipelineNames : String → Option (List String)) :
    Owned.Grows [] (manifestOwnedRelations A keys logicalPipelineNames) fun n l =>
      ∃ k ∈ keys, k.name = l ∧
        ∃ r ∈ A.resourcesByLogicalKey k, r.name = n ∧ excludedMetadataRelation n = false := by
  unfold manifestOwnedRelations
  apply (Owned.grows_foldl (fun a n l => n = a.2.name ∧ l = a.1.name)
    (fun owned a => Owned.grows_addAssociatedRelation) _ []).congr
  intro n l
  simp only [mem_filter, mem_flatMap, mem_sortedBy, mem_dedup, mem_map, Bool.not_eq_true']
  constructor
  · rintro ⟨a, ⟨⟨k, hk, r, hr, rfl⟩, hexcluded⟩, rfl, rfl⟩
    exact ⟨k, hk, rfl, r, hr, rfl, hexcluded⟩
  · rintro ⟨k, hk, rfl, r, hr, rfl, hexcluded⟩
    exact ⟨(k, r), ⟨⟨k, hk, r, hr, rfl⟩, hexcluded⟩, rfl, rfl⟩

theorem grows_addHistoricalResource {owned owned' : Owned} {r : ManifestResource}
    (h : addHistoricalResource owned r = .ok owned') :
    Owned.Grows owned owned' fun n l => r.resourceName = n ∧ r.logicalName = l := by
  rw [addHistoricalResource] at h
  split at h
  · cases h
  · cases h
    apply Owned.grows_addOwnedRelation.congr
    intro n l
    rw [eq_comm (a := n), eq_comm (a := l)]

variable {snapshot : Option ManifestSnapshot} {current affected : List String}

theorem resolveSnapshot_ok {resolved : ManifestSnapshot}
    (hsnapshot : ∀ s, snapshot = some s → s = manifestHistory A request connection)
    (h : resolveSnapshot A request connection snapshot = .ok resolved) :
    resolved = manifestHistory A request connection := by
  cases snapshot with
  | some s =>
    cases h
    exact hsnapshot resolved rfl
  | none =>
    simp only [resolveSnapshot, loadManifestSnapshot] at h
    split_ifs at h
    obtain ⟨-, -, rfl⟩ := map_eq_ok.mp h
    rfl

namespace RelationScope

variable {scope : RelationScope} {owned : Owned}

theorem grows_manifestRelations
    (hsnapshot : ∀ s, scope.snapshot = some s → s = manifestHistory A request connection)
    (h : scope.manifestRelations A request connection = .ok owned) :
    Owned.Grows [] owned fun n l =>
      scope.Selected A request n l ∨ scope.Historical A request connection n l := by
  have hselected := grows_manifestOwnedRelations (A := A) (scope.selectedKeys A request)
    (scope.logicalPipelineNames A)
  simp only [manifestRelations] at h
  split_ifs at h with hhistory
  · unfold addHistoricalManifestRelations at h
    obtain ⟨resolved, hresolved, hrest⟩ := bind_eq_ok.mp h
    obtain rfl := resolveSnapshot_ok hsnapshot hresolved
    split_ifs at hrest with habsent
    · cases hrest
      apply hselected.congr
      intro n l
      simp [Selected, Historical, habsent]
    · obtain ⟨resources, hresources, hfold⟩ := bind_eq_ok.mp hrest
      apply (hselected.trans
        (Owned.grows_foldlM (fun _ _ _ h => grows_addHistoricalResource h) hfold)).congr
      intro n l
      simp [Selected, Historical, habsent, hhistory, hresources]
  · cases h
    apply hselected.congr
    intro n l
    simp [Selected, Historical, hhistory]

theorem grows_addMapping {inventoryScope : InventoryScope} {owned' : Owned}
    {m : PreparedObjectMapping} (h : addMapping inventoryScope owned m = .ok owned') :
    Owned.Grows owned owned' fun n l => inventoryScope.covers m.logicalModelName = true ∧
      m.physicalName = n ∧ m.logicalModelName = l ∧ excludedMetadataRelation n = false := by
  rw [addMapping] at h
  split_ifs at h with hcovers hdatabase hexcluded
  · cases h
    apply (Owned.Grows.refl owned).congr
    intro n l
    simp only [Bool.not_eq_true'] at hcovers
    simp [hcovers]
  · cases h
    apply (Owned.Grows.refl owned).congr
    rintro n l
    simp only [false_iff]
    rintro ⟨-, rfl, -, hnot⟩
    rw [hexcluded] at hnot
    cases hnot
  · cases h
    apply Owned.grows_addAssociatedRelation.congr
    simp only [Bool.not_eq_true', Bool.not_eq_false, Bool.not_eq_true] at hcovers hexcluded
    intro n l
    constructor
    · rintro ⟨rfl, rfl⟩
      exact ⟨hcovers, rfl, rfl, hexcluded⟩
    · rintro ⟨-, rfl, rfl, -⟩
      exact ⟨rfl, rfl⟩

/-- What the manifests and the mappings have collected before bindings are looked at. -/
theorem grows_mappings
    (hsnapshot : ∀ s, scope.snapshot = some s → s = manifestHistory A request connection)
    {manifest : Owned} (hmanifest : scope.manifestRelations A request connection = .ok manifest)
    (h : (orderedMappings scope.inventory).foldlM
      (addMapping (scope.inventoryScope A request)) manifest = .ok owned) :
    Owned.Grows [] owned (scope.Attributed A request connection) := by
  apply ((grows_manifestRelations hsnapshot hmanifest).trans
    (Owned.grows_foldlM (fun _ _ _ h => grows_addMapping h) h)).congr
  intro n l
  simp only [Attributed, Mapped, DeploymentInventory.mem_orderedMappings, or_assoc]

end RelationScope

section Bindings

variable {inventory : DeploymentInventory} {inventoryScope : InventoryScope}
  {owned start : Owned} {b b' : StableBinding}

theorem bindingLogicalName_eq_iff (htidy : owned.Tidy) {l : String} :
    bindingLogicalName inventory owned b = l ↔
      IsLeast {l | owned.Collects b.logicalName l} l ∨
        (∀ l, ¬ owned.Collects b.logicalName l) ∧
          l = (logicalNameByPublishedName inventory b.logicalName).getD b.logicalName := by
  unfold bindingLogicalName
  by_cases hmem : b.logicalName ∈ owned.names
  · obtain ⟨l', hl'⟩ := (htidy _).mp hmem
    have hleast := isLeast_headD_sortedNames ⟨l', hl'⟩ ""
    have hset : ((owned.logicalNames b.logicalName : Finset String) : Set String) =
        {l | owned.Collects b.logicalName l} := rfl
    rw [if_pos hmem, ← hset]
    constructor
    · rintro rfl
      exact .inl hleast
    · rintro (h | ⟨hnone, -⟩)
      · exact hleast.unique h
      · exact absurd hl' (hnone l')
  · rw [if_neg hmem]
    have hnone : ∀ l, ¬ owned.Collects b.logicalName l := by
      intro l' hl'
      exact hmem ((htidy _).mpr ⟨l', hl'⟩)
    constructor
    · rintro rfl
      exact .inr ⟨hnone, rfl⟩
    · rintro (h | ⟨-, rfl⟩)
      · exact absurd h.1 (hnone l)
      · rfl

/-- The binding is taken when it is attributed as in `owned`. -/
def TakenFrom (inventory : DeploymentInventory) (inventoryScope : InventoryScope) (owned : Owned)
    (b : StableBinding) : Prop :=
  b.database = inventoryScope.database ∧ excludedMetadataRelation b.logicalName = false ∧
    inventoryScope.covers (bindingLogicalName inventory owned b) = true

theorem grows_addBinding (inventory : DeploymentInventory) (inventoryScope : InventoryScope)
    (owned : Owned) (b : StableBinding) :
    Owned.Grows owned (addBinding inventory inventoryScope owned b) fun n l =>
      TakenFrom inventory inventoryScope owned b ∧
        (n = b.logicalName ∧ l = bindingLogicalName inventory owned b ∨
          n = b.physicalName ∧ excludedMetadataRelation n = false ∧
            l = (logicalNameByPublishedName inventory b.physicalName).getD
              (bindingLogicalName inventory owned b)) := by
  have hskip : ∀ {added : String → String → Prop}, (∀ n l, ¬ added n l) →
      Owned.Grows owned owned added := by
    intro added hnone
    apply (Owned.Grows.refl owned).congr
    intro n l
    simp [hnone]
  simp only [addBinding]
  split_ifs with hdatabase hstable hcovers hphysical
  · apply hskip
    rintro n l ⟨⟨hsame, -⟩, -⟩
    exact hdatabase hsame
  · apply hskip
    rintro n l ⟨⟨-, hnot, -⟩, -⟩
    rw [hstable] at hnot
    cases hnot
  · apply hskip
    rintro n l ⟨⟨-, -, hcovered⟩, -⟩
    rw [hcovered] at hcovers
    cases hcovers
  · have htaken : TakenFrom inventory inventoryScope owned b :=
      ⟨not_not.mp hdatabase, by simpa using hstable, by simpa using hcovers⟩
    apply Owned.grows_addAssociatedRelation.congr
    intro n l
    constructor
    · intro h
      exact ⟨htaken, .inl h⟩
    · rintro ⟨-, h | ⟨rfl, hnot, -⟩⟩
      · exact h
      · rw [hphysical] at hnot
        cases hnot
  · have htaken : TakenFrom inventory inventoryScope owned b :=
      ⟨not_not.mp hdatabase, by simpa using hstable, by simpa using hcovers⟩
    apply (Owned.grows_addAssociatedRelation.trans Owned.grows_addAssociatedRelation).congr
    intro n l
    constructor
    · rintro (h | ⟨rfl, rfl⟩)
      · exact ⟨htaken, .inl h⟩
      · exact ⟨htaken, .inr ⟨rfl, by simpa using hphysical, rfl⟩⟩
    · rintro ⟨-, h | ⟨rfl, -, rfl⟩⟩
      · exact .inl h
      · exact .inr ⟨rfl, rfl⟩

theorem bindingLogicalName_addBinding (htidy : owned.Tidy) (hne : b'.logicalName ≠ b.physicalName) :
    bindingLogicalName inventory (addBinding inventory inventoryScope owned b) b' =
      bindingLogicalName inventory owned b' := by
  have hgrows := grows_addBinding inventory inventoryScope owned b
  have hbefore := (bindingLogicalName_eq_iff htidy).mp
    (rfl : bindingLogicalName inventory owned b' = bindingLogicalName inventory owned b')
  rw [bindingLogicalName_eq_iff (hgrows.tidy htidy)]
  by_cases hadds : TakenFrom inventory inventoryScope owned b ∧ b'.logicalName = b.logicalName
  · obtain ⟨htaken, hname⟩ := hadds
    have hsame : bindingLogicalName inventory owned b = bindingLogicalName inventory owned b' := by
      simp only [bindingLogicalName, hname]
    have hset : ∀ l, (addBinding inventory inventoryScope owned b).Collects b'.logicalName l ↔
        owned.Collects b'.logicalName l ∨ l = bindingLogicalName inventory owned b' := by
      intro l
      simp [hgrows.collects, htaken, hne, ← hname, hsame]
    simp only [hset]
    left
    rcases hbefore with hleast | ⟨hnone, -⟩
    · constructor
      · exact .inl hleast.1
      · rintro l (hl | rfl)
        · exact hleast.2 hl
        · exact le_rfl
    · constructor
      · exact .inr rfl
      · rintro l (hl | rfl)
        · exact absurd hl (hnone l)
        · exact le_rfl
  · have hset : ∀ l, (addBinding inventory inventoryScope owned b).Collects b'.logicalName l ↔
        owned.Collects b'.logicalName l := by
      intro l
      rw [hgrows.collects]
      constructor
      · rintro (h | ⟨htaken, ⟨hname, -⟩ | ⟨hphysical, -⟩⟩)
        · exact h
        · exact absurd ⟨htaken, hname⟩ hadds
        · exact absurd hphysical hne
      · exact .inl
    simp only [hset]
    exact hbefore

/-- The names that a list of bindings adds; `start` is what was collected before them. -/
theorem mem_names_addBindings {bindings : List StableBinding}
    (hpublished : ∀ b ∈ bindings, inventory.Publishes b) (htidy : owned.Tidy)
    (hstart : ∀ b, inventory.Publishes b →
      bindingLogicalName inventory owned b = bindingLogicalName inventory start b) {n : String} :
    n ∈ (bindings.foldl (addBinding inventory inventoryScope) owned).names ↔
      n ∈ owned.names ∨ ∃ b ∈ bindings, TakenFrom inventory inventoryScope start b ∧
        (n = b.logicalName ∨ n = b.physicalName ∧ excludedMetadataRelation n = false) := by
  induction bindings generalizing owned with
  | nil => simp
  | cons b bindings ih =>
    have hb : inventory.Publishes b := hpublished b (by simp)
    have hgrows := grows_addBinding inventory inventoryScope owned b
    have hnext : ∀ b', inventory.Publishes b' →
        bindingLogicalName inventory (addBinding inventory inventoryScope owned b) b' =
          bindingLogicalName inventory start b' := by
      intro b' hb'
      rw [bindingLogicalName_addBinding htidy (hb'.ne_physicalName hb), hstart b' hb']
    have hnames : n ∈ (addBinding inventory inventoryScope owned b).names ↔
        n ∈ owned.names ∨ TakenFrom inventory inventoryScope start b ∧
          (n = b.logicalName ∨ n = b.physicalName ∧ excludedMetadataRelation n = false) := by
      rw [hgrows.tidy htidy, htidy]
      simp only [hgrows.collects, exists_or, TakenFrom, hstart b hb]
      simp only [exists_and_left, exists_eq, and_true, exists_or]
    rw [foldl_cons, ih (fun b' hb' => hpublished b' (mem_cons_of_mem _ hb'))
      (hgrows.tidy htidy) hnext, hnames]
    simp only [mem_cons, exists_eq_or_imp, or_assoc]

end Bindings

/-- The scope of a successful planning, from its inputs. -/
def inputScope (A : CompileAnalysis) (request : DestructionRequest)
    (connection : PlanningConnection) : RelationScope :=
  let current := (A.project.pipelines.map (·.name)).insertionSort (· ≤ ·)
  let snapshot :=
    if request.includeOrphans || request.namesHistory current then
      some (manifestHistory A request connection)
    else none
  let affected :=
    if request.operation = .resetTarget then availablePipelineNames current snapshot
    else sortedNames request.supplied
  relationScope request connection affected current snapshot

theorem historicalSnapshot_ok (h : historicalSnapshot A request connection current = .ok snapshot) :
    snapshot = if request.includeOrphans || request.namesHistory current then
      some (manifestHistory A request connection) else none := by
  simp only [historicalSnapshot] at h
  split_ifs at h ⊢
  · obtain ⟨resolved, hresolved, rfl⟩ := map_eq_ok.mp h
    have hload : resolveSnapshot A request connection none = .ok resolved := hresolved
    rw [resolveSnapshot_ok (by simp) hload]
  · cases h
    rfl

theorem currentPipelineNames_ok (h : currentPipelineNames A request = .ok current) :
    current = (A.project.pipelines.map (·.name)).insertionSort (· ≤ ·) := by
  simp only [currentPipelineNames] at h
  split at h
  · cases h
    rfl
  · split_ifs at h
    cases h
    rfl

theorem resolvePipelineSelection_affected {available requested included : List String}
    (h : resolvePipelineSelection A request available = .ok (requested, included, affected)) :
    affected = if request.operation = .resetTarget then available
      else sortedNames request.supplied := by
  simp only [resolvePipelineSelection] at h
  split_ifs at h ⊢
  · cases h
    rfl
  · cases h
    rfl

section Plan

variable {plan : DestructionPlan} {current requested included : List String}
  {scope : RelationScope} {owned : Owned}

section

variable (h : PlannedBy A request connection plan current requested included scope owned)

include h

theorem PlannedBy.scope_eq_input : scope = inputScope A request connection := by
  have hsnapshot := historicalSnapshot_ok h.loaded
  have haffected := resolvePipelineSelection_affected h.selected
  rw [currentPipelineNames_ok h.names] at hsnapshot haffected
  rw [h.scope_eq, haffected, hsnapshot, currentPipelineNames_ok h.names]
  rfl

theorem PlannedBy.snapshot_eq :
    ∀ s, scope.snapshot = some s → s = manifestHistory A request connection := by
  intro s hs
  rw [historicalSnapshot_ok h.loaded] at hs
  split_ifs at hs
  exact (Option.some.inj hs).symm

/-- The relations of the plan are those that its inputs attribute to the affected names. -/
theorem PlannedBy.mem_names {n : String} :
    n ∈ owned.names ↔ (∃ l, scope.Attributed A request connection n l) ∨
      ∃ b, scope.Takes A request connection b ∧
        (n = b.logicalName ∨ n = b.physicalName ∧ excludedMetadataRelation n = false) := by
  obtain ⟨manifest, hmanifest, hinventory⟩ := bind_eq_ok.mp h.collected
  obtain ⟨start, hstart, rfl⟩ := map_eq_ok.mp hinventory
  have hgrows := RelationScope.grows_mappings h.snapshot_eq hmanifest hstart
  have hcollects : ∀ n l, start.Collects n l ↔ scope.Attributed A request connection n l := by
    intro n l
    rw [hgrows.collects]
    simp [Owned.Collects, Owned.logicalNames]
  have htidy := hgrows.tidy Owned.tidy_nil
  have htakes : ∀ b, b ∈ orderedBindings scope.inventory ∧
      TakenFrom scope.inventory (scope.inventoryScope A request) start b ↔
        scope.Takes A request connection b := by
    intro b
    have hname : ∀ l, bindingLogicalName scope.inventory start b = l ↔
        scope.StableNameOf A request connection b.logicalName l := by
      intro l
      simp only [bindingLogicalName_eq_iff htidy, hcollects, RelationScope.StableNameOf]
    rw [DeploymentInventory.mem_orderedBindings]
    constructor
    · rintro ⟨hb, hdatabase, hexcluded, hcovers⟩
      exact ⟨hb, hdatabase, hexcluded, _, (hname _).mp rfl, hcovers⟩
    · rintro ⟨hb, hdatabase, hexcluded, l, hl, hcovers⟩
      exact ⟨hb, hdatabase, hexcluded, ((hname l).mpr hl).symm ▸ hcovers⟩
  rw [mem_names_addBindings (fun b hb => DeploymentInventory.mem_orderedBindings.mp hb) htidy
    (fun b _ => rfl), htidy]
  simp only [hcollects, ← htakes, and_assoc]

theorem PlannedBy.mem_relations {n : String} :
    (∃ r ∈ plan.relations, r.name = n) ↔ n ∈ owned.names := by
  simp [h.relations, buildEvidence, evidenceOf, Owned.names]

end

end Plan

/-- A current resource that is not attributed to an affected pipeline and not selected. -/
structure Bystander (A : CompileAnalysis) (request : DestructionRequest) (affected : List String)
    (k : LogicalResourceKey) : Prop where
  current : k ∈ A.project.keys
  unattributed : ∀ p ∈ (pipelineNamesByLogicalName A k.name).getD [], p ∉ affected
  unselected : k ∉ affectedSourceKeys A request.operation affected

/-- A deployment recorded the relation for the resource, in the target database. -/
def RecordedFor (request : DestructionRequest) (connection : PlanningConnection)
    (k : LogicalResourceKey) (n : String) : Prop :=
  ∃ m, (connection.loadDeploymentInventory request.metadataDatabase).Records m ∧
    m.logicalModelName = k.name ∧ m.physicalName = n ∧
    (m.logicalKey.database = none ∨ m.logicalKey.database = some request.database)

/-- The relation is a current relation of the resource, or recorded for it. -/
def Realises (A : CompileAnalysis) (request : DestructionRequest)
    (connection : PlanningConnection) (k : LogicalResourceKey) (n : String) : Prop :=
  (∃ r ∈ A.resourcesByLogicalKey k, r.name = n) ∨ RecordedFor request connection k n

/-- No relation of the plan realises a bystander. -/
def SparesBystanders (A : CompileAnalysis) (request : DestructionRequest)
    (connection : PlanningConnection) (plan : DestructionPlan) : Prop :=
  ∀ k, Bystander A request plan.affectedPipelineNames k →
    ∀ r ∈ plan.relations, ¬ Realises A request connection k r.name

/-- No relation is on record both for the destruction and for a bystander. -/
structure BystandersApart (A : CompileAnalysis) (request : DestructionRequest)
    (connection : PlanningConnection) : Prop where
  manifests : ∀ k, Bystander A request (inputScope A request connection).affected k → ∀ n l,
    (inputScope A request connection).Selected A request n l ∨
      (inputScope A request connection).Historical A request connection n l →
    ¬ RecordedFor request connection k n
  mappings : ∀ k, Bystander A request (inputScope A request connection).affected k → ∀ n l,
    (inputScope A request connection).Mapped A request n l → ¬ Realises A request connection k n
  bindings : ∀ k, Bystander A request (inputScope A request connection).affected k → ∀ b,
    (inputScope A request connection).Takes A request connection b →
    ¬ Realises A request connection k b.logicalName ∧
      (excludedMetadataRelation b.physicalName = false →
        ¬ Realises A request connection k b.physicalName)

variable {k : LogicalResourceKey} {scope : RelationScope} {n l : String}

theorem affectedSourceKeys_subset {operation : DestructionOperation}
    (h : k ∈ affectedSourceKeys A operation affected) : k ∈ A.project.keys := by
  have hmanaged : k ∈ (managedSources A).map (·.key) := by
    cases operation with
    | resetTarget => exact h
    | destroyPipelines => exact (mem_filter.mp h).1
  obtain ⟨s, hs, rfl⟩ := mem_map.mp hmanaged
  exact CompiledProject.source_mem_keys (mem_managedSources.mp hs).1

theorem pipelineName_mem_pipelineNamesByLogicalName {m : CompiledModel}
    (hm : m ∈ A.project.models) :
    m.pipelineName ∈ (pipelineNamesByLogicalName A m.key.name).getD [] := by
  have hself : m ∈ A.project.models.filter (fun m' => m'.key.name = m.key.name) := by
    simp [hm]
  have hsome : ¬ A.project.models.filter (fun m' => m'.key.name = m.key.name) = [] :=
    ne_nil_of_mem hself
  simp only [pipelineNamesByLogicalName, hsome, false_and, if_false, Option.getD_some,
    mem_sortedNames]
  apply Finset.mem_union_left
  apply Finset.mem_union_left
  exact mem_toFinset.mpr (mem_map_of_mem hself)

/-- Relations of the selected resources realise no bystander in the current project. -/
theorem Bystander.not_selected (hk : Bystander A request scope.affected k)
    (h : scope.Selected A request n l) : ¬ ∃ r ∈ A.resourcesByLogicalKey k, r.name = n := by
  rintro ⟨r, hr, rfl⟩
  obtain ⟨k', hk', -, r', hr', hname, -⟩ := h
  rcases mem_append.mp hk' with hmodel | hsource
  · obtain ⟨m, hm, rfl⟩ := mem_map.mp hmodel
    simp only [modelsOf, mem_filter, decide_eq_true_eq, mem_toFinset] at hm
    have hsame := A.relation_owner k hk.current m.key (CompiledProject.model_mem_keys hm.1) r hr
      r' hr' hname.symm
    subst hsame
    exact hk.unattributed _ (pipelineName_mem_pipelineNamesByLogicalName hm.1) hm.2
  · have hsame := A.relation_owner k hk.current k' (affectedSourceKeys_subset hsource) r hr
      r' hr' hname.symm
    subst hsame
    exact hk.unselected hsource

theorem RelationScope.Historical.not_current (h : scope.Historical A request connection n l) :
    n ∉ currentManifestResourceNames A ∧ excludedMetadataRelation n = false := by
  obtain ⟨-, -, resources, hresources, r, hr, rfl, -⟩ := h
  obtain ⟨-, -, rfl⟩ := map_eq_ok.mp hresources
  simp only [mem_dedup, mem_filter, mem_flatMap] at hr
  obtain ⟨⟨name, ⟨-, heligible⟩, hlatest⟩, -⟩ := hr
  have hname : r.resourceName = name := by
    simp only [latestResources] at hlatest
    split at hlatest
    · cases hlatest
    · simpa using (mem_filter.mp hlatest).2
  rw [hname]
  simp only [historicalNameEligible, Bool.and_eq_true, Bool.not_eq_true', Bool.or_eq_false_iff,
    decide_eq_false_iff_not] at heligible
  exact ⟨heligible.1.1.1, heligible.1.2⟩

theorem Bystander.not_historical (hk : Bystander A request scope.affected k)
    (h : scope.Historical A request connection n l) :
    ¬ ∃ r ∈ A.resourcesByLogicalKey k, r.name = n := by
  rintro ⟨r, hr, rfl⟩
  obtain ⟨hcurrent, hexcluded⟩ := h.not_current
  apply hcurrent
  simp only [currentManifestResourceNames, mem_filter, mem_map, mem_flatMap]
  exact ⟨⟨r, ⟨k, hk.current, hr⟩, rfl⟩, by simp [hexcluded]⟩

/-- A plan spares all bystanders exactly when no relation is on record on both sides. -/
theorem planDestruction_sparesBystanders {host : PlanningHost} {now : Option DateTime} {ttl : Int}
    {planId : Option String} {plan : DestructionPlan}
    (h : planDestruction A host request connection now ttl planId = .ok plan) :
    SparesBystanders A request connection plan ↔ BystandersApart A request connection := by
  obtain ⟨current, requested, included, scope, owned, hby⟩ := planDestruction_ok h
  obtain rfl := hby.scope_eq_input
  have hspares : SparesBystanders A request connection plan ↔
      ∀ k, Bystander A request (inputScope A request connection).affected k →
        ∀ n ∈ owned.names, ¬ Realises A request connection k n := by
    unfold SparesBystanders
    rw [hby.affected]
    constructor
    · intro hspare k hk n hn
      obtain ⟨r, hr, rfl⟩ := hby.mem_relations.mpr hn
      exact hspare k hk r hr
    · intro hspare k hk r hr
      exact hspare k hk r.name (hby.mem_relations.mp ⟨r, hr, rfl⟩)
  rw [hspares]
  simp only [hby.mem_names]
  constructor
  · intro hspare
    constructor
    · intro k hk n l hmanifest hrecorded
      refine hspare k hk n (.inl ⟨l, ?_⟩) (.inr hrecorded)
      exact hmanifest.imp_right .inl
    · intro k hk n l hmapped
      exact hspare k hk n (.inl ⟨l, .inr (.inr hmapped)⟩)
    · intro k hk b hb
      constructor
      · exact hspare k hk b.logicalName (.inr ⟨b, hb, .inl rfl⟩)
      · intro hexcluded
        exact hspare k hk b.physicalName (.inr ⟨b, hb, .inr ⟨rfl, hexcluded⟩⟩)
  · intro hapart k hk n hn
    rcases hn with ⟨l, hselected | hhistorical | hmapped⟩ | ⟨b, hb, rfl | ⟨rfl, hexcluded⟩⟩
    · rintro (hcurrent | hrecorded)
      · exact hk.not_selected hselected hcurrent
      · exact hapart.manifests k hk n l (.inl hselected) hrecorded
    · rintro (hcurrent | hrecorded)
      · exact hk.not_historical hhistorical hcurrent
      · exact hapart.manifests k hk n l (.inr hhistorical) hrecorded
    · exact hapart.mappings k hk n l hmapped
    · exact (hapart.bindings k hk b hb).1
    · exact (hapart.bindings k hk b hb).2 hexcluded

/-- `orders` was a source of `ingest`; it is a model of `marts` now. -/
def movedProject : CompiledProject where
  sources := []
  models := [⟨⟨.model, "stg_events"⟩, "ingest"⟩, ⟨⟨.model, "orders"⟩, "marts"⟩]
  pipelines := [⟨"ingest", none⟩, ⟨"marts", none⟩]
  source_key := by decide
  model_key := by decide
  names_nodup := by decide
  model_pipeline := by decide

def movedAnalysis : CompileAnalysis where
  project := movedProject
  graph :=
    { upstreamEdgesByKey := fun _ => []
      orderedKeys := movedProject.keys
      edge_downstream := by simp
      edge_upstream := by simp
      ordered := fun _ => Iff.rfl }
  resourcesByLogicalKey k :=
    if k = ⟨.model, "stg_events"⟩ then [⟨.table, "t_stg_events"⟩]
    else if k = ⟨.model, "orders"⟩ then [⟨.table, "t_orders"⟩]
    else []
  projectDirName := "shop"
  manifestPayload := .none
  relation_owner := by decide
  source_read := by
    intro p hp s hs
    simp only [movedProject, mem_cons, not_mem_nil, or_false] at hp
    rcases hp with rfl | rfl <;> cases hs

theorem no_publishEvents : ∀ e ∈ ([] : List PublishEventRecord), ∀ b ∈ e.bindings,
    ∀ e' ∈ ([] : List PublishEventRecord), ∀ b' ∈ e'.bindings, b.logicalName ≠ b'.physicalName := by
  simp

/-- The deployment of the model, and the manifest that still has the source. -/
def movedConnection : PlanningConnection where
  loadCatalog _ :=
    [⟨"t_stg_events", "MergeTree", [], none, none, none⟩,
      ⟨"t_orders__20240101T000000Z_0a1b2c", "MergeTree", [], none, none, none⟩]
  loadDeploymentInventory _ :=
    { deployments :=
        [⟨"20240101T000000Z_0a1b2c", [⟨⟨some "shop_dev", .table, "t_orders"⟩,
          "t_orders__20240101T000000Z_0a1b2c", "orders"⟩]⟩]
      publishEvents := []
      stable_not_physical := no_publishEvents }
  loadManifests _ _ _ _ :=
    ⟨.available, [⟨1, [⟨"ingest", "source", "orders", "raw", "shop_dev", "raw__orders",
      "table"⟩]⟩], none⟩
  loadExternalDependants _ _ := []
  loadRelationDropSizeLimit := none
  loadRelationDropSizeServerDefault := none
  query _ := []

def movedRequest (includeOrphans : Bool) : DestructionRequest where
  operation := .destroyPipelines
  target := "dev"
  database := "shop_dev"
  metadataDatabase := "shop_meta"
  pipelineNames := ["ingest"]
  includedDependentPipelineNames := []
  includeOrphans := includeOrphans
  orphans_destroy := fun _ => rfl
  disjoint := by simp

theorem planDestruction_sparesBystanders_moved :
    ∃ plan, planDestruction movedAnalysis ordersHost (movedRequest false) movedConnection none 1
        none = .ok plan ∧
      (SparesBystanders movedAnalysis (movedRequest false) movedConnection plan ↔
        BystandersApart movedAnalysis (movedRequest false) movedConnection) := by
  have hok : (planDestruction movedAnalysis ordersHost (movedRequest false) movedConnection none 1
      none).isOk := by decide +kernel
  cases hplan : planDestruction movedAnalysis ordersHost (movedRequest false) movedConnection
      none 1 none with
  | error e =>
    rw [hplan] at hok
    cases hok
  | ok plan => exact ⟨plan, rfl, planDestruction_sparesBystanders hplan⟩

theorem not_planDestruction_sparesBystanders :
    ¬ ∀ (A : CompileAnalysis) (host : PlanningHost) (request : DestructionRequest)
      (connection : PlanningConnection) (now : Option DateTime) (ttl : Int)
      (planId : Option String) (plan : DestructionPlan),
      planDestruction A host request connection now ttl planId = .ok plan →
        SparesBystanders A request connection plan := by
  intro h
  have hdropped : (planDestruction movedAnalysis ordersHost (movedRequest true) movedConnection
      none 1 none).toOption.any (fun plan =>
        decide (plan.affectedPipelineNames = ["ingest"]) &&
          plan.relations.any fun r => r.name = "t_orders__20240101T000000Z_0a1b2c") = true := by
    decide +kernel
  cases hplan : planDestruction movedAnalysis ordersHost (movedRequest true) movedConnection
      none 1 none with
  | error e =>
    rw [hplan] at hdropped
    cases hdropped
  | ok plan =>
    rw [hplan] at hdropped
    simp only [Except.toOption, Option.any_some, Bool.and_eq_true, decide_eq_true_eq,
      any_eq_true] at hdropped
    obtain ⟨haffected, r, hr, hname⟩ := hdropped
    have hbystander : Bystander movedAnalysis (movedRequest true) plan.affectedPipelineNames
        ⟨.model, "orders"⟩ := by
      rw [haffected]
      exact ⟨by decide, by decide +kernel, by decide +kernel⟩
    apply h _ _ _ _ _ _ _ plan hplan _ hbystander r hr
    right
    refine ⟨_, ⟨_, mem_singleton.mpr rfl, mem_singleton.mpr rfl⟩, rfl, hname.symm, ?_⟩
    exact .inr rfl

end SqlTide.Destruction
