import SqlTide.SqlAnalysis.CatalogRelations

/-!
# The collection of the physical relations ends and is complete

Every body that is gone into resolves one more name of the tree, so that the collection comes to its
end on every tree. It has all relations that SQL scoping reaches where each reference that it comes
to is read as SQL reads it: no CTE hides the one that is meant, and the names being resolved stand
for the CTEs that are gone into.
-/

namespace SqlTide.SqlAnalysis

open Foundations List

mutual

/-- The identifiers of a tree. -/
def identifiers : Json → List String
  | .obj entries => entryIdentifiers entries
  | .arr items => itemIdentifiers items
  | _ => []

def entryIdentifiers : Object → List String
  | [] => []
  | (_, value) :: entries =>
    (identifierName (some value)).toList ++ identifiers value ++ entryIdentifiers entries

def itemIdentifiers : List Json → List String
  | [] => []
  | item :: items => identifiers item ++ itemIdentifiers items

end

theorem entryIdentifiers_eq (entries : Object) :
    entryIdentifiers entries = entries.flatMap fun entry =>
      (identifierName (some entry.2)).toList ++ identifiers entry.2 := by
  induction entries with
  | nil => rfl
  | cons entry entries ih => rw [entryIdentifiers, ih, flatMap_cons]

theorem itemIdentifiers_eq (items : List Json) :
    itemIdentifiers items = items.flatMap identifiers := by
  induction items with
  | nil => rfl
  | cons item items ih => rw [itemIdentifiers, ih, flatMap_cons]

theorem identifiers_obj (object : Object) :
    identifiers (.obj object) = object.flatMap fun entry =>
      (identifierName (some entry.2)).toList ++ identifiers entry.2 := by
  rw [identifiers, entryIdentifiers_eq]

theorem identifiers_arr (items : List Json) :
    identifiers (.arr items) = items.flatMap identifiers := by
  rw [identifiers, itemIdentifiers_eq]

variable {names : List String} {object : Object} {key name : String} {value body : Json}
  {ctes : Ctes}

theorem identifiers_subset_of_mem (hentry : (key, value) ∈ object) :
    identifiers value ⊆ identifiers (.obj object) := by
  intro name hname
  rw [identifiers_obj]
  exact mem_flatMap.mpr ⟨(key, value), hentry, mem_append_right _ hname⟩

variable {items : List Json} {state : CatalogState} {expand : Expansion}

theorem identifiers_item_subset {item : Json} (hitem : item ∈ items) :
    identifiers item ⊆ identifiers (.arr items) := by
  intro name hname
  rw [identifiers_arr]
  exact mem_flatMap.mpr ⟨item, hitem, hname⟩

theorem mem_of_field_eq_some (hfield : field object key = some value) : (key, value) ∈ object := by
  obtain ⟨before, after, rfl, -⟩ := lookup_eq_some_iff.mp hfield
  simp

theorem identifiers_field_subset (hfield : field object key = some value) :
    identifiers value ⊆ identifiers (.obj object) :=
  identifiers_subset_of_mem (mem_of_field_eq_some hfield)

theorem mem_identifiers_of_field (hname : identifierName (field object key) = some name) :
    name ∈ identifiers (.obj object) := by
  cases hfield : field object key with
  | none => simp [hfield, identifierName, objectOf] at hname
  | some value =>
    rw [hfield] at hname
    rw [identifiers_obj]
    refine mem_flatMap.mpr ⟨_, mem_of_field_eq_some hfield, mem_append_left _ ?_⟩
    simp [hname]

theorem identifiers_filter_subset (keep : String × Json → Bool) :
    identifiers (.obj (object.filter keep)) ⊆ identifiers (.obj object) := by
  intro name hname
  rw [identifiers_obj] at hname ⊢
  obtain ⟨entry, hentry, hname⟩ := mem_flatMap.mp hname
  exact mem_flatMap.mpr ⟨entry, mem_of_mem_filter hentry, hname⟩

theorem eq_of_objectOf {value : Option Json} (hobject : objectOf value = some object) :
    value = some (.obj object) := by
  unfold objectOf at hobject
  split at hobject
  · exact (Option.some.inj hobject) ▸ rfl
  · exact absurd hobject (by simp)

theorem eq_of_arrayOf {value : Option Json}
    (harray : arrayOf value = some items) : value = some (.arr items) := by
  unfold arrayOf at harray
  split at harray
  · exact (Option.some.inj harray) ▸ rfl
  · exact absurd harray (by simp)

theorem identifiers_selectCtes_subset {cte : Json} (hcte : cte ∈ selectCtes object) :
    identifiers cte ⊆ identifiers (.obj object) := by
  unfold selectCtes at hcte
  cases hwith : objectOf (field object "with") with
  | none => simp [hwith] at hcte
  | some withPayload =>
    cases harray : arrayOf (field withPayload "ctes") with
    | none => simp [hwith, harray] at hcte
    | some items =>
      have hitem : cte ∈ items := by simpa [hwith, harray] using hcte
      calc identifiers cte
          ⊆ identifiers (.arr items) := identifiers_item_subset hitem
        _ ⊆ identifiers (.obj withPayload) := identifiers_field_subset (eq_of_arrayOf harray)
        _ ⊆ identifiers (.obj object) := identifiers_field_subset (eq_of_objectOf hwith)

/-- All names of the CTEs and in their bodies are among these. -/
def Within (names : List String) (ctes : Ctes) : Prop :=
  ∀ cte ∈ ctes, cte.1 ∈ names ∧ identifiers cte.2 ⊆ names

theorem within_cteBodies (hobject : identifiers (.obj object) ⊆ names) :
    Within names (cteBodies (selectCtes object)) := by
  rintro ⟨name, body⟩ hcte
  obtain ⟨cte, hmem, hbound⟩ := mem_filterMap.mp hcte
  obtain ⟨payload, hpayload, hbody⟩ := Option.bind_eq_some_iff.mp hbound
  obtain rfl : cte = .obj payload := Option.some.inj (eq_of_objectOf hpayload)
  have hsubset := List.Subset.trans (identifiers_selectCtes_subset (mem_reverse.mp hmem)) hobject
  split at hbody
  · rename_i name' body' hname hthis
    simp only [Option.some.injEq, Prod.mk.injEq] at hbody
    obtain ⟨rfl, rfl⟩ := hbody
    exact ⟨hsubset (mem_identifiers_of_field hname),
      List.Subset.trans (identifiers_field_subset (eq_of_objectOf hthis)) hsubset⟩
  · exact absurd hbody (by simp)

theorem Within.append {ctes' : Ctes} (h : Within names ctes) (h' : Within names ctes') :
    Within names (ctes ++ ctes') := by
  intro cte hcte
  rcases mem_append.mp hcte with hcte | hcte
  · exact h cte hcte
  · exact h' cte hcte

theorem within_catalogNodeEntry (hobject : identifiers (.obj object) ⊆ names)
    (hctes : Within names ctes) : Within names (catalogNodeEntry ctes object key).visibleCtes := by
  unfold catalogNodeEntry
  split
  · exact hctes
  · split
    · exact hctes
    · exact (within_cteBodies hobject).append hctes

theorem within_catalogSelectEntry (hobject : identifiers (.obj object) ⊆ names)
    (hctes : Within names ctes) :
    Within names (catalogSelectEntry ctes object key).visibleCtes := by
  have hscoped := (within_cteBodies hobject).append hctes
  unfold catalogSelectEntry
  dsimp only
  split_ifs
  · exact hscoped
  · exact hscoped
  · exact hscoped
  · exact within_catalogNodeEntry (List.Subset.trans (identifiers_filter_subset _) hobject) hscoped

theorem within_catalogWalk_entry
    (hobject : identifiers (.obj object) ⊆ names) (hctes : Within names state.visibleCtes) :
    Within names (catalogWalk.entry state object key value).visibleCtes := by
  obtain ⟨role, ctes⟩ := state
  cases role with
  | node => exact within_catalogNodeEntry hobject hctes
  | select => exact within_catalogSelectEntry hobject hctes
  | relation =>
    simp only [catalogWalk, catalogRelationEntry]
    split_ifs
    · exact hctes
    · exact within_catalogNodeEntry hobject hctes
  | join =>
    simp only [catalogWalk, catalogJoinEntry]
    split_ifs
    · exact hctes
    · exact within_catalogNodeEntry (List.Subset.trans (identifiers_filter_subset _) hobject) hctes
  | source => exact hctes
  | relations => exact hctes
  | joins => exact hctes
  | untouched => exact hctes

theorem within_catalogWalk_item {before : List Json} {item : Json}
    (hctes : Within names state.visibleCtes) :
    Within names (catalogWalk.item state before item).visibleCtes := by
  obtain ⟨role, ctes⟩ := state
  cases role <;> exact hctes

theorem keeps_within_catalogWalk : catalogWalk.Keeps fun state tree =>
    identifiers tree ⊆ names ∧ Within names state.visibleCtes where
  entry _ _ _ _ hentry h :=
    ⟨List.Subset.trans (identifiers_subset_of_mem hentry) h.1, within_catalogWalk_entry h.1 h.2⟩
  item _ _ _ _ hitem h :=
    ⟨List.Subset.trans (identifiers_item_subset (hitem.subset (by simp))) h.1,
      within_catalogWalk_item h.2⟩

theorem within_slotTables {node : Json} (hnode : identifiers node ⊆ names)
    (hctes : Within names ctes) : ∀ slot ∈ slotTables ctes node, Within names slot.1 := by
  intro slot hslot
  obtain ⟨place, hplace, hslot⟩ := mem_filterMap.mp hslot
  obtain ⟨table, -, rfl⟩ := Option.map_eq_some_iff.mp hslot
  exact (Walk.forall_places keeps_within_catalogWalk node ⟨hnode, hctes⟩ place hplace).2

/-- How many of the names are not being resolved. -/
def unresolved (names resolving : List String) : ℕ := (names.toFinset \ resolving.toFinset).card

theorem unresolved_cons_lt {resolving : List String} (hname : name ∈ names)
    (hfresh : name ∉ resolving) :
    unresolved names (name :: resolving) < unresolved names resolving := by
  apply Finset.card_lt_card
  refine ⟨?_, ?_⟩
  · intro name' hname'
    simp_all
  · intro hsubset
    have hmem : name ∈ names.toFinset \ resolving.toFinset := by simp [hname, hfresh]
    simpa using hsubset hmem

section
variable {expand expand' : Expansion} {resolving : List String} {slot : Ctes × Object}

theorem slotRelations_congr (hexpand : ∀ name body, (name, body) ∈ slot.1 → name ∉ resolving →
      expand slot.1 (name :: resolving) body = expand' slot.1 (name :: resolving) body) :
    slotRelations expand resolving slot.1 slot.2 =
      slotRelations expand' resolving slot.1 slot.2 := by
  unfold slotRelations
  congr 1
  funext identity
  split
  · rename_i body _ hbody
    split_ifs with hresolving
    · rfl
    · exact hexpand _ _ (mem_of_field_eq_some hbody) hresolving
  · rfl

theorem slotRelations_ne_outOfFuel
    (hexpand : ∀ name body, (name, body) ∈ slot.1 → name ∉ resolving →
      expand slot.1 (name :: resolving) body ≠ .error .outOfFuel) :
    slotRelations expand resolving slot.1 slot.2 ≠ .error .outOfFuel := by
  intro hfuel
  rcases bind_eq_error.mp hfuel with hidentity | ⟨identity, -, hfuel⟩
  · unfold tableIdentity at hidentity
    split at hidentity
    · simp at hidentity
    · simp at hidentity
  · split at hfuel
    · rename_i body _ hbody
      split_ifs at hfuel with hresolving
      exact hexpand _ _ (mem_of_field_eq_some hbody) hresolving hfuel
    · simp at hfuel

end

theorem catalogRelations_congr {fuel fuel' : ℕ} {resolving : List String} {node : Json}
    (hslot : ∀ slot ∈ slotTables ctes node,
      slotRelations (catalogRelations fuel) resolving slot.1 slot.2 =
        slotRelations (catalogRelations fuel') resolving slot.1 slot.2) :
    catalogRelations (fuel + 1) ctes resolving node =
      catalogRelations (fuel' + 1) ctes resolving node := by
  rw [catalogRelations, catalogRelations, mapM_congr hslot]

theorem catalogRelations_ne_outOfFuel_of_slots {fuel : ℕ} {resolving : List String} {node : Json}
    (hslot : ∀ slot ∈ slotTables ctes node,
      slotRelations (catalogRelations fuel) resolving slot.1 slot.2 ≠ .error .outOfFuel) :
    catalogRelations (fuel + 1) ctes resolving node ≠ .error .outOfFuel := by
  intro hfuel
  rw [catalogRelations] at hfuel
  rcases bind_eq_error.mp hfuel with hfuel | ⟨_, -, hfuel⟩
  · obtain ⟨slot, hmem, hfuel⟩ := mapM_error hfuel
    exact hslot slot hmem hfuel
  · simp at hfuel

/-- More fuel than there are names left to resolve is enough, and all such fuel gives one result. -/
theorem catalogRelations_enough (fuel : ℕ) : ∀ (fuel' : ℕ) {ctes : Ctes} {resolving : List String}
    {node : Json}, identifiers node ⊆ names → Within names ctes →
    unresolved names resolving < fuel → unresolved names resolving < fuel' →
      catalogRelations fuel ctes resolving node ≠ .error .outOfFuel ∧
        catalogRelations fuel ctes resolving node = catalogRelations fuel' ctes resolving node := by
  induction fuel with
  | zero => exact fun _ _ _ _ _ _ hfuel => absurd hfuel (Nat.not_lt_zero _)
  | succ fuel ih =>
    intro fuel' ctes resolving node hnode hctes hfuel hfuel'
    obtain ⟨fuel', rfl⟩ := Nat.exists_eq_succ_of_ne_zero (Nat.ne_zero_of_lt hfuel')
    -- the bodies that a slot goes into resolve one more of the names
    have hinside : ∀ slot ∈ slotTables ctes node, ∀ name body, (name, body) ∈ slot.1 →
        name ∉ resolving →
        catalogRelations fuel slot.1 (name :: resolving) body ≠ .error .outOfFuel ∧
          catalogRelations fuel slot.1 (name :: resolving) body =
            catalogRelations fuel' slot.1 (name :: resolving) body := by
      intro slot hslot name body hbody hfresh
      have hwithin := within_slotTables hnode hctes slot hslot
      have hless : unresolved names (name :: resolving) < unresolved names resolving :=
        unresolved_cons_lt (hwithin _ hbody).1 hfresh
      exact ih fuel' (hwithin _ hbody).2 hwithin (by omega) (by omega)
    constructor
    · apply catalogRelations_ne_outOfFuel_of_slots
      intro slot hslot
      apply slotRelations_ne_outOfFuel
      exact fun name body hbody hfresh => (hinside slot hslot name body hbody hfresh).1
    · apply catalogRelations_congr
      intro slot hslot
      apply slotRelations_congr
      exact fun name body hbody hfresh => (hinside slot hslot name body hbody hfresh).2

theorem catalogRelations_terminates (tree : Json) : ∃ fuel result, result ≠ .error .outOfFuel ∧
    ∀ more, catalogRelations (fuel + more) [] [] tree = result := by
  have hless : unresolved (identifiers tree) [] < unresolved (identifiers tree) [] + 1 := by omega
  have henough (more : ℕ) := catalogRelations_enough (unresolved (identifiers tree) [] + 1)
    (unresolved (identifiers tree) [] + 1 + more) (List.Subset.refl _)
    (fun _ hcte => absurd hcte not_mem_nil) hless (by omega)
  exact ⟨_, _, (henough 0).1, fun more => (henough more).2.symm⟩

/-- A table node outside the WITH clauses, as the collection and SQL scoping come to it. -/
structure Reference where
  state : CatalogState
  frames : Frames
  table : Object

/-- Where the collection and SQL scoping are: in a node, inside of the bodies of these CTEs. -/
structure Visit where
  visibleCtes : Ctes
  entered : List (String × Json × Frames)
  node : Json
  frames : Frames

def Visit.resolving (visit : Visit) : List String := visit.entered.map Prod.fst

def Visit.references (visit : Visit) : List Reference :=
  ((catalogWalk.prod frameWalk).places (fun _ _ => false)
    (⟨.node, visit.visibleCtes⟩, some visit.frames) visit.node).filterMap fun place => do
      let frames ← place.1.2
      let table ← tableNode place.2
      some ⟨place.1.1, frames, table⟩

/-- Inside of the body of a CTE. -/
def Visit.enter (visit : Visit) (reference : Reference) (name : String) (body : Json)
    (inside : Frames) : Visit :=
  ⟨reference.state.visibleCtes, (name, body, inside) :: visit.entered, body, inside⟩

/-- The visits of a tree. -/
inductive Visited (tree : Json) : Visit → Prop
  | root : Visited tree ⟨[], [], tree, []⟩
  | enter {visit : Visit} {reference : Reference} {name : String} {body : Json} {inside : Frames}
      (visited : Visited tree visit) (mem : reference ∈ visit.references)
      (named : tableIdentity reference.table = .ok ⟨none, name⟩)
      (found : lookupCte name reference.frames = some (body, inside))
      (fresh : name ∉ visit.resolving) : Visited tree (visit.enter reference name body inside)

/-- A reference is a relation slot. Its name stands for what SQL scoping takes it for, and where it
is being resolved, then as the CTE that is gone into. -/
structure Visit.Resolves (visit : Visit) (reference : Reference) : Prop where
  slot : reference.state.role = .relation
  visible : ∀ name, tableIdentity reference.table = .ok ⟨none, name⟩ →
    reference.state.visibleCtes.lookup name = (lookupCte name reference.frames).map Prod.fst
  entered : ∀ name body inside, tableIdentity reference.table = .ok ⟨none, name⟩ →
    lookupCte name reference.frames = some (body, inside) → name ∈ visit.resolving →
      (name, body, inside) ∈ visit.entered

def ReferencesResolved (tree : Json) : Prop :=
  ∀ visit, Visited tree visit → ∀ reference ∈ visit.references, visit.Resolves reference

variable {visit : Visit} {frames : Frames} {table : Object}

theorem exists_reference (hmem : (frames, table) ∈ queryTables visit.frames visit.node) :
    ∃ state, (⟨state, frames, table⟩ : Reference) ∈ visit.references := by
  obtain ⟨place, hplace, htable⟩ := mem_filterMap.mp hmem
  have hview := Walk.projects_snd catalogWalk frameWalk
  rw [← @Walk.map_places _ _ _ _ _ (fun _ _ => false) hview visit.node
    (⟨.node, visit.visibleCtes⟩, some visit.frames)] at hplace
  obtain ⟨joint, hjoint, rfl⟩ := mem_map.mp hplace
  refine ⟨joint.1.1, mem_filterMap.mpr ⟨joint, hjoint, ?_⟩⟩
  obtain ⟨frames', hframes, htable⟩ := Option.bind_eq_some_iff.mp htable
  obtain ⟨table', htable', hsame⟩ := Option.bind_eq_some_iff.mp htable
  obtain ⟨rfl, rfl⟩ := Prod.mk.inj (Option.some.inj hsame)
  exact Option.bind_eq_some_iff.mpr ⟨_, hframes, Option.bind_eq_some_iff.mpr ⟨_, htable', rfl⟩⟩

theorem mem_slotTables {reference : Reference} (hmem : reference ∈ visit.references)
    (hslot : reference.state.role = .relation) :
    (reference.state.visibleCtes, reference.table) ∈ slotTables visit.visibleCtes visit.node := by
  obtain ⟨joint, hjoint, hreference⟩ := mem_filterMap.mp hmem
  obtain ⟨frames', -, htable⟩ := Option.bind_eq_some_iff.mp hreference
  obtain ⟨table', htable', hsame⟩ := Option.bind_eq_some_iff.mp htable
  cases hsame
  have hplace : (joint.1.1, joint.2) ∈
      catalogWalk.places (fun _ _ => false) ⟨.node, visit.visibleCtes⟩ visit.node := by
    have hview := Walk.projects_fst catalogWalk frameWalk
    rw [← @Walk.map_places _ _ _ _ _ (fun _ _ => false) hview visit.node
      (⟨.node, visit.visibleCtes⟩, some visit.frames)]
    exact mem_map.mpr ⟨joint, hjoint, rfl⟩
  refine mem_filterMap.mpr ⟨_, hplace, ?_⟩
  have hobject : objectOf (field joint.2 "table") = some table' :=
    (Option.filter_eq_some_iff.mp htable').1
  have hrole : joint.1.1.role = .relation := hslot
  rw [slotTable, if_pos hrole, hobject, Option.map_some]

variable {fuel : ℕ} {relations : List SqlRelationIdentity} {reference : Reference}

theorem exists_slotRelations
    (hresult : catalogRelations (fuel + 1) visit.visibleCtes visit.resolving visit.node =
      .ok relations)
    (hmem : reference ∈ visit.references) (hslot : reference.state.role = .relation) :
    ∃ found, slotRelations (catalogRelations fuel) visit.resolving reference.state.visibleCtes
      reference.table = .ok found ∧ found ⊆ relations := by
  rw [catalogRelations] at hresult
  obtain ⟨lists, hlists, hflat⟩ := bind_eq_ok.mp hresult
  cases hflat
  obtain ⟨found, hmem, hfound⟩ := exists_of_mapM_eq_ok hlists (mem_slotTables hmem hslot)
  refine ⟨found, hfound, fun identity hidentity => ?_⟩
  exact mem_dedup.mpr (mem_flatten.mpr ⟨found, hmem, hidentity⟩)

theorem slotRelations_physical {resolving : List String}
    {identity : SqlRelationIdentity} (hnamed : tableIdentity table = .ok identity)
    (hphysical : identity.database ≠ none ∨ ctes.lookup identity.name = none) :
    slotRelations expand resolving ctes table = .ok [identity] := by
  refine bind_eq_ok.mpr ⟨identity, hnamed, ?_⟩
  split
  · rename_i body hdatabase hbody
    simp [hdatabase, hbody] at hphysical
  · rfl

theorem slotRelations_cte {resolving : List String}
    (hnamed : tableIdentity table = .ok ⟨none, name⟩) (hbody : ctes.lookup name = some body) :
    slotRelations expand resolving ctes table =
      if name ∈ resolving then .ok [] else expand ctes (name :: resolving) body := by
  unfold slotRelations
  rw [hnamed]
  dsimp only [bind, Except.bind]
  rw [hbody]

/-- A CTE that is gone into reaches the relation through fewer bodies. -/
def ReachedInside (visit : Visit) (count : ℕ) (identity : SqlRelationIdentity) : Prop :=
  ∃ cte ∈ visit.entered, ∃ less < count, Reaches less cte.2.2 cte.2.1 identity

variable {tree : Json} {identity : SqlRelationIdentity}

/-- A visit collects what it reaches, unless it is in a body that reaches it on a shorter way. -/
theorem mem_or_reachedInside (hresolved : ReferencesResolved tree) (count : ℕ) :
    ∀ {visit : Visit} {fuel : ℕ} {relations : List SqlRelationIdentity}, Visited tree visit →
      catalogRelations fuel visit.visibleCtes visit.resolving visit.node = .ok relations →
      Reaches count visit.frames visit.node identity →
        identity ∈ relations ∨ ReachedInside visit count identity := by
  induction count using Nat.strong_induction_on with
  | _ count ih =>
    intro visit fuel relations hvisited hresult hreaches
    cases fuel with
    | zero => simp [catalogRelations] at hresult
    | succ fuel =>
      cases hreaches with
      | physical hmem hnamed hphysical =>
        obtain ⟨state, hreference⟩ := exists_reference hmem
        have hresolves := hresolved visit hvisited _ hreference
        obtain ⟨found, hfound, hsubset⟩ := exists_slotRelations hresult hreference hresolves.slot
        have hnone : identity.database ≠ none ∨ state.visibleCtes.lookup identity.name = none := by
          obtain ⟨database, name⟩ := identity
          cases database with
          | some database => exact Or.inl (by simp)
          | none =>
            have hunbound := hphysical.resolve_left (by simp)
            rw [hresolves.visible name hnamed, hunbound]
            exact Or.inr rfl
        rw [slotRelations_physical hnamed hnone] at hfound
        cases hfound
        exact Or.inl (hsubset (mem_singleton_self _))
      | @cte count _ frames' inside _ body table name _ hmem hnamed hbody hreached =>
        obtain ⟨state, hreference⟩ := exists_reference hmem
        have hresolves := hresolved visit hvisited _ hreference
        obtain ⟨found, hfound, hsubset⟩ := exists_slotRelations hresult hreference hresolves.slot
        have hlookup : state.visibleCtes.lookup name = some body := by
          rw [hresolves.visible _ hnamed, hbody]
          rfl
        rw [slotRelations_cte hnamed hlookup] at hfound
        by_cases hfresh : name ∈ visit.resolving
        · -- the body is being gone into, and it reaches the relation in one step less
          exact Or.inr ⟨_, hresolves.entered name body inside hnamed hbody hfresh, count,
            Nat.lt_succ_self _, hreached⟩
        · rw [if_neg hfresh] at hfound
          have hentered : Visited tree (visit.enter ⟨state, frames', table⟩ name body inside) :=
            .enter hvisited hreference hnamed hbody hfresh
          -- on a shortest way the body does not come back to itself
          have hshortest : ∃ count, Reaches count inside body identity := ⟨count, hreached⟩
          classical
          have hle : Nat.find hshortest ≤ count := Nat.find_min' hshortest hreached
          rcases ih (Nat.find hshortest) (Nat.lt_succ_of_le hle) hentered hfound
            (Nat.find_spec hshortest) with hcollected | ⟨cte, hcte, less, hless, hinside⟩
          · exact Or.inl (hsubset hcollected)
          · rcases mem_cons.mp hcte with rfl | hcte
            · exact absurd hinside (Nat.find_min hshortest hless)
            · exact Or.inr ⟨cte, hcte, less, by omega, hinside⟩

/-- Where every reference is read as SQL scoping reads it, the collection is complete. -/
theorem catalogComplete_of_referencesResolved (hresolved : ReferencesResolved tree) :
    CatalogComplete tree := by
  obtain ⟨fuel, result, hend, hstable⟩ := catalogRelations_terminates tree
  refine ⟨fuel, result, hend, hstable, fun relations hresult count identity hreaches => ?_⟩
  have hrelations : catalogRelations fuel [] [] tree = .ok relations := hresult ▸ hstable 0
  rcases mem_or_reachedInside hresolved count .root hrelations hreaches with
    hmem | ⟨cte, hcte, -⟩
  · exact hmem
  · exact absurd hcte not_mem_nil

/-- `SELECT … FROM relation`. -/
def fromTree (relation : String) : Json := selectTree [] [tableTree .null relation] []

/-- `WITH orders AS (SELECT … FROM events) SELECT … FROM orders`. -/
def ordersTree : Json :=
  selectTree [cteTree "orders" (fromTree "events")] [tableTree .null "orders"] []

/-- `WITH orders AS (SELECT … FROM events), daily AS (SELECT … FROM orders) SELECT … FROM
(WITH orders AS (SELECT … FROM archive) SELECT … FROM daily)`. -/
def shadowedTree : Json :=
  selectTree [cteTree "orders" (fromTree "events"), cteTree "daily" (fromTree "orders")]
    [.obj [("subquery", .obj [("this",
      selectTree [cteTree "orders" (fromTree "archive")] [tableTree .null "daily"] [])])]] []

/-- The orders of the subquery are taken for those that daily reads. -/
theorem not_catalogComplete : ¬ CatalogComplete shadowedTree := by
  rintro ⟨fuel, result, -, hstable, hcomplete⟩
  have hresult : catalogRelations (fuel + 4) [] [] shadowedTree = .ok [⟨none, "archive"⟩] := rfl
  rw [hstable] at hresult
  have hbody : Reaches 0 [⟨[], false⟩] (fromTree "events") ⟨none, "events"⟩ :=
    .physical (mem_singleton_self _) rfl (Or.inr rfl)
  have hdaily : Reaches 1 [⟨[("orders", fromTree "events")], false⟩] (fromTree "orders")
      ⟨none, "events"⟩ :=
    .cte (mem_singleton_self _) rfl rfl hbody
  have hreaches : Reaches 2 [] shadowedTree ⟨none, "events"⟩ :=
    .cte (mem_singleton_self _) rfl rfl hdaily
  exact absurd (hcomplete _ hresult 2 _ hreaches) (by decide)

theorem lookupCte_events : lookupCte "events" [⟨[], false⟩] = none := rfl

theorem visited_ordersTree {visit : Visit} (hvisited : Visited ordersTree visit) :
    visit = ⟨[], [], ordersTree, []⟩ ∨
      visit = ⟨[("orders", fromTree "events")], [("orders", fromTree "events", [⟨[], false⟩])],
        fromTree "events", [⟨[], false⟩]⟩ := by
  induction hvisited with
  | root => exact Or.inl rfl
  | enter _ hmem hnamed hfound _ ih =>
    rcases ih with rfl | rfl
    · obtain rfl := mem_singleton.mp hmem
      obtain rfl := (SqlRelationIdentity.mk.inj (Except.ok.inj hnamed)).2
      obtain ⟨rfl, rfl⟩ := Prod.mk.inj (Option.some.inj hfound)
      exact Or.inr rfl
    · obtain rfl := mem_singleton.mp hmem
      obtain rfl := (SqlRelationIdentity.mk.inj (Except.ok.inj hnamed)).2
      exact absurd (lookupCte_events.symm.trans hfound) (by simp)

/-- The relations of a query with one CTE are those of its body. -/
theorem catalogComplete_ordersTree : CatalogComplete ordersTree := by
  refine catalogComplete_of_referencesResolved fun visit hvisited reference hmem => ?_
  rcases visited_ordersTree hvisited with rfl | rfl
  · obtain rfl := mem_singleton.mp hmem
    refine ⟨rfl, fun name hnamed => ?_, fun name _ _ _ _ hresolving => ?_⟩
    · obtain rfl := (SqlRelationIdentity.mk.inj (Except.ok.inj hnamed)).2
      rfl
    · exact absurd hresolving not_mem_nil
  · obtain rfl := mem_singleton.mp hmem
    refine ⟨rfl, fun name hnamed => ?_, fun name _ _ hnamed hfound _ => ?_⟩
    · obtain rfl := (SqlRelationIdentity.mk.inj (Except.ok.inj hnamed)).2
      rfl
    · obtain rfl := (SqlRelationIdentity.mk.inj (Except.ok.inj hnamed)).2
      exact absurd (lookupCte_events.symm.trans hfound) (by simp)

end SqlTide.SqlAnalysis
