import SqlTide.Foundations.Failures
import SqlTide.Foundations.Json

/-!
# Walks over JSON trees

A walk goes down a tree with a state: it says which state an entry of an object and an item of an
array get. Trees are read and rewritten along walks, and two rewritings along two walks are
compared place by place.
-/

namespace SqlTide.Foundations

open List

abbrev Object := List (String × Json)

/-- The state of an entry is given by that of its object, and the state of an item by that of its
array and by the items before it. -/
structure Walk (σ : Type*) where
  entry : σ → Object → String → Json → σ
  item : σ → List Json → Json → σ

namespace Walk

variable {σ τ : Type*} {ε : Type}

/-- Both walks at once. -/
def prod (walk : Walk σ) (walk' : Walk τ) : Walk (σ × τ) where
  entry state object key value :=
    (walk.entry state.1 object key value, walk'.entry state.2 object key value)
  item state before item := (walk.item state.1 before item, walk'.item state.2 before item)

variable (walk : Walk σ) (replace : σ → Object → Except ε (Option Json))
  (stop : σ → Object → Bool)

mutual

/-- Objects are replaced where there is a replacement, and otherwise rewritten inside. -/
def rewrite (state : σ) : Json → Except ε Json
  | .obj object => do
    match ← replace state object with
    | some replacement => .ok replacement
    | none => (rewriteEntries state object object).map .obj
  | .arr items => (rewriteItems state [] items).map .arr
  | scalar => .ok scalar

def rewriteEntries (state : σ) (object : Object) : Object → Except ε Object
  | [] => .ok []
  | (key, value) :: entries => do
    let value' ← rewrite (walk.entry state object key value) value
    let entries' ← rewriteEntries state object entries
    .ok ((key, value') :: entries')

def rewriteItems (state : σ) (before : List Json) : List Json → Except ε (List Json)
  | [] => .ok []
  | item :: items => do
    let item' ← rewrite (walk.item state before item) item
    let items' ← rewriteItems state (before ++ [item]) items
    .ok (item' :: items')

end

mutual

/-- The objects of a tree with their states, not going into those where the walk stops. -/
def places (state : σ) : Json → List (σ × Object)
  | .obj object =>
    (state, object) :: if stop state object then [] else entryPlaces state object object
  | .arr items => itemPlaces state [] items
  | _ => []

def entryPlaces (state : σ) (object : Object) : Object → List (σ × Object)
  | [] => []
  | (key, value) :: entries =>
    places (walk.entry state object key value) value ++ entryPlaces state object entries

def itemPlaces (state : σ) (before : List Json) : List Json → List (σ × Object)
  | [] => []
  | item :: items =>
    places (walk.item state before item) item ++ itemPlaces state (before ++ [item]) items

end

variable {walk stop} {walk' : Walk τ} {invariant : σ → Json → Prop}

/-- The steps of a walk keep an invariant of a state and the tree below it. -/
structure Keeps (walk : Walk σ) (invariant : σ → Json → Prop) : Prop where
  entry : ∀ state object key value, (key, value) ∈ object → invariant state (.obj object) →
    invariant (walk.entry state object key value) value
  item : ∀ state items before item, before ++ [item] <+: items → invariant state (.arr items) →
    invariant (walk.item state before item) item

mutual

/-- An invariant that the steps keep holds at every place. -/
theorem forall_places (hkeeps : walk.Keeps invariant) :
    ∀ (tree : Json) {state : σ}, invariant state tree →
      ∀ place ∈ walk.places stop state tree, invariant place.1 (.obj place.2)
  | .obj object, state, hstate, place, hplace => by
    rw [places] at hplace
    rcases mem_cons.mp hplace with rfl | hinside
    · exact hstate
    · split_ifs at hinside with hstop
      · exact absurd hinside not_mem_nil
      · exact forall_entryPlaces hkeeps object hstate (List.Subset.refl _) place hinside
  | .arr items, state, hstate, place, hplace => by
    rw [places] at hplace
    exact forall_itemPlaces hkeeps items hstate (by simp) place hplace
  | .null, _, _, _, hplace | .bool _, _, _, _, hplace | .int _, _, _, _, hplace
  | .str _, _, _, _, hplace => by
    simp [places] at hplace

theorem forall_entryPlaces (hkeeps : walk.Keeps invariant) :
    ∀ (entries : Object) {state : σ} {object : Object}, invariant state (.obj object) →
      entries ⊆ object →
      ∀ place ∈ walk.entryPlaces stop state object entries, invariant place.1 (.obj place.2)
  | [], _, _, _, _, _, hplace => by
    simp [entryPlaces] at hplace
  | (key, value) :: entries, state, object, hstate, hsubset, place, hplace => by
    obtain ⟨hmem, hsubset⟩ := cons_subset.mp hsubset
    rw [entryPlaces] at hplace
    rcases mem_append.mp hplace with hvalue | hrest
    · exact forall_places hkeeps value (hkeeps.entry _ _ _ _ hmem hstate) place hvalue
    · exact forall_entryPlaces hkeeps entries hstate hsubset place hrest

theorem forall_itemPlaces (hkeeps : walk.Keeps invariant) :
    ∀ (items : List Json) {state : σ} {before all : List Json}, invariant state (.arr all) →
      before ++ items = all →
      ∀ place ∈ walk.itemPlaces stop state before items, invariant place.1 (.obj place.2)
  | [], _, _, _, _, _, _, hplace => by
    simp [itemPlaces] at hplace
  | item :: items, state, before, all, hstate, hall, place, hplace => by
    have hall' : before ++ [item] ++ items = all := by rw [← hall, append_assoc]; rfl
    rw [itemPlaces] at hplace
    rcases mem_append.mp hplace with hitem' | hrest
    · exact forall_places hkeeps item (hkeeps.item _ _ _ _ ⟨items, hall'⟩ hstate) place hitem'
    · exact forall_itemPlaces hkeeps items hstate hall' place hrest

end

/-- One walk shows what another one sees of its states. -/
structure Projects (walk : Walk σ) (walk' : Walk τ) (view : σ → τ) : Prop where
  entry : ∀ state object key value,
    view (walk.entry state object key value) = walk'.entry (view state) object key value
  item : ∀ state before item, view (walk.item state before item) = walk'.item
    (view state) before item

theorem projects_fst (walk : Walk σ) (walk' : Walk τ) : Projects (walk.prod walk') walk Prod.fst :=
  ⟨fun _ _ _ _ => rfl, fun _ _ _ => rfl⟩

theorem projects_snd (walk : Walk σ) (walk' : Walk τ) : Projects (walk.prod walk') walk' Prod.snd :=
  ⟨fun _ _ _ _ => rfl, fun _ _ _ => rfl⟩

variable {view : σ → τ} {stop' : τ → Object → Bool}

mutual

theorem map_places (hview : Projects walk walk' view) : ∀ (tree : Json) (state : σ),
    (walk.places (fun state object => stop' (view state) object) state tree).map
        (fun place => (view place.1, place.2)) =
      walk'.places stop' (view state) tree
  | .obj object, state => by
    rw [places, places, map_cons]
    congr 1
    split_ifs with hstop
    · rfl
    · exact map_entryPlaces hview object state object
  | .arr items, state => by
    rw [places, places]
    exact map_itemPlaces hview items state []
  | .null, _ | .bool _, _ | .int _, _ | .str _, _ => by
    simp [places]

theorem map_entryPlaces (hview : Projects walk walk' view) :
    ∀ (entries : Object) (state : σ) (object : Object),
    (walk.entryPlaces (fun state object => stop' (view state) object) state object entries).map
        (fun place => (view place.1, place.2)) =
      walk'.entryPlaces stop' (view state) object entries
  | [], _, _ => by
    simp [entryPlaces]
  | (key, value) :: entries, state, object => by
    rw [entryPlaces, entryPlaces, map_append, map_entryPlaces hview entries,
      map_places hview value, hview.entry]

theorem map_itemPlaces (hview : Projects walk walk' view) :
    ∀ (items : List Json) (state : σ) (before : List Json),
    (walk.itemPlaces (fun state object => stop' (view state) object) state before items).map
        (fun place => (view place.1, place.2)) =
      walk'.itemPlaces stop' (view state) before items
  | [], _, _ => by
    simp [itemPlaces]
  | item :: items, state, before => by
    rw [itemPlaces, itemPlaces, map_append, map_itemPlaces hview items,
      map_places hview item, hview.item]

end

mutual

/-- A walk that stops wherever another one does comes to no more places. -/
theorem places_subset {stop stop' : σ → Object → Bool} : ∀ (tree : Json) (state : σ),
    (∀ place ∈ walk.places stop' state tree, stop' place.1 place.2 = true →
      stop place.1 place.2 = true) →
    walk.places stop state tree ⊆ walk.places stop' state tree
  | .obj object, state, hstop => by
    rw [places, forall_mem_cons] at hstop
    rw [places, places]
    refine cons_subset_cons _ ?_
    by_cases hstopped : stop state object = true
    · rw [if_pos hstopped]
      exact nil_subset _
    · have hopen : ¬ stop' state object = true := fun h => hstopped (hstop.1 h)
      rw [if_neg hopen] at hstop
      rw [if_neg hstopped, if_neg hopen]
      exact entryPlaces_subset object state object hstop.2
  | .arr items, state, hstop => by
    rw [places] at hstop
    rw [places, places]
    exact itemPlaces_subset items state [] hstop
  | .null, _, _ | .bool _, _, _ | .int _, _, _ | .str _, _, _ => by
    simp [places]

theorem entryPlaces_subset {stop stop' : σ → Object → Bool} : ∀ (entries : Object) (state : σ)
    (object : Object),
    (∀ place ∈ walk.entryPlaces stop' state object entries, stop' place.1 place.2 = true →
      stop place.1 place.2 = true) →
    walk.entryPlaces stop state object entries ⊆ walk.entryPlaces stop' state object entries
  | [], _, _, _ => by
    simp [entryPlaces]
  | (key, value) :: entries, state, object, hstop => by
    rw [entryPlaces, forall_mem_append] at hstop
    rw [entryPlaces, entryPlaces]
    exact append_subset.mpr
      ⟨subset_append_of_subset_left _ (places_subset value _ hstop.1),
        subset_append_of_subset_right _ (entryPlaces_subset entries state object hstop.2)⟩

theorem itemPlaces_subset {stop stop' : σ → Object → Bool} : ∀ (items : List Json) (state : σ)
    (before : List Json),
    (∀ place ∈ walk.itemPlaces stop' state before items, stop' place.1 place.2 = true →
      stop place.1 place.2 = true) →
    walk.itemPlaces stop state before items ⊆ walk.itemPlaces stop' state before items
  | [], _, _, _ => by
    simp [itemPlaces]
  | item :: items, state, before, hstop => by
    rw [itemPlaces, forall_mem_append] at hstop
    rw [itemPlaces, itemPlaces]
    exact append_subset.mpr
      ⟨subset_append_of_subset_left _ (places_subset item _ hstop.1),
        subset_append_of_subset_right _ (itemPlaces_subset items state _ hstop.2)⟩

end

variable {replace : σ → Object → Except ε (Option Json)}
  {replace' : τ → Object → Except ε (Option Json)} {state : σ} {states : σ × τ} {object : Object}

/-- One of the rewritings replaces the object, or fails on it. -/
def Stopped (replace : σ → Object → Except ε (Option Json))
    (replace' : τ → Object → Except ε (Option Json)) (states : σ × τ) (object : Object) : Bool :=
  match replace states.1 object, replace' states.2 object with
  | .ok none, .ok none => false
  | _, _ => true

/-- What one of the rewritings replaces, or fails on, is rewritten to the same by both. -/
def AgreeAt (walk : Walk σ) (walk' : Walk τ) (replace : σ → Object → Except ε (Option Json))
    (replace' : τ → Object → Except ε (Option Json)) (place : (σ × τ) × Object) : Prop :=
  Stopped replace replace' place.1 place.2 = true →
    walk'.rewrite replace' place.1.2 (.obj place.2) = walk.rewrite replace place.1.1 (.obj place.2)

theorem replace_eq_none (h : Stopped replace replace' states object = false) :
    replace states.1 object = .ok none ∧ replace' states.2 object = .ok none := by
  unfold Stopped at h
  split at h
  · exact ⟨‹_›, ‹_›⟩
  · exact absurd h (by simp)

theorem rewrite_of_none (h : replace state object = .ok none) :
    walk.rewrite replace state (.obj object) =
      (walk.rewriteEntries replace state object object).map .obj := by
  rw [rewrite, h]
  rfl

theorem length_rewriteEntries {entries entries' : Object}
    (h : walk.rewriteEntries replace state object entries = .ok entries') :
    entries'.length = entries.length := by
  induction entries generalizing entries' with
  | nil =>
    cases h
    rfl
  | cons entry entries ih =>
    obtain ⟨value', -, h⟩ := bind_eq_ok.mp h
    obtain ⟨rest, hrest, h⟩ := bind_eq_ok.mp h
    cases h
    rw [length_cons, length_cons, ih hrest]

theorem lookup_rewriteEntries {entries entries' : Object} {key : String} {value : Json}
    (h : walk.rewriteEntries replace state object entries = .ok entries')
    (hkey : entries.lookup key = some value) :
    ∃ value', walk.rewrite replace (walk.entry state object key value) value = .ok value' ∧
      entries'.lookup key = some value' := by
  induction entries generalizing entries' with
  | nil => simp at hkey
  | cons entry entries ih =>
    obtain ⟨key', value'⟩ := entry
    obtain ⟨first, hfirst, h⟩ := bind_eq_ok.mp h
    obtain ⟨rest, hrest, h⟩ := bind_eq_ok.mp h
    cases h
    rw [lookup_cons] at hkey ⊢
    cases hsame : key == key' with
    | true =>
      rw [hsame] at hkey
      obtain rfl := eq_of_beq hsame
      cases hkey
      exact ⟨first, hfirst, rfl⟩
    | false =>
      rw [hsame] at hkey
      exact ih hrest hkey

mutual

theorem exists_rewrite
    (htotal : ∀ state object, ∃ replacement, replace state object = .ok replacement) :
    ∀ (tree : Json) (state : σ), ∃ tree', walk.rewrite replace state tree = .ok tree'
  | .obj object, state => by
    obtain ⟨replacement, hreplacement⟩ := htotal state object
    cases replacement with
    | some replacement => exact ⟨replacement, by rw [rewrite, hreplacement]; rfl⟩
    | none =>
      obtain ⟨entries, hentries⟩ := exists_rewriteEntries htotal object state object
      exact ⟨.obj entries, by rw [rewrite_of_none hreplacement, hentries]; rfl⟩
  | .arr items, state => by
    obtain ⟨items', hitems⟩ := exists_rewriteItems htotal items state []
    exact ⟨.arr items', by rw [rewrite, hitems]; rfl⟩
  | .null, _ | .bool _, _ | .int _, _ | .str _, _ => by
    simp [rewrite]

theorem exists_rewriteEntries
    (htotal : ∀ state object, ∃ replacement, replace state object = .ok replacement) :
    ∀ (entries : Object) (state : σ) (object : Object),
      ∃ entries', walk.rewriteEntries replace state object entries = .ok entries'
  | [], _, _ => ⟨[], rfl⟩
  | (key, value) :: entries, state, object => by
    obtain ⟨value', hvalue⟩ := exists_rewrite htotal value (walk.entry state object key value)
    obtain ⟨entries', hentries⟩ := exists_rewriteEntries htotal entries state object
    exact ⟨(key, value') :: entries', by rw [rewriteEntries, hvalue, hentries]; rfl⟩

theorem exists_rewriteItems
    (htotal : ∀ state object, ∃ replacement, replace state object = .ok replacement) :
    ∀ (items : List Json) (state : σ) (before : List Json),
      ∃ items', walk.rewriteItems replace state before items = .ok items'
  | [], _, _ => ⟨[], rfl⟩
  | item :: items, state, before => by
    obtain ⟨item', hitem⟩ := exists_rewrite htotal item (walk.item state before item)
    obtain ⟨items', hitems⟩ := exists_rewriteItems htotal items state (before ++ [item])
    exact ⟨item' :: items', by rw [rewriteItems, hitem, hitems]; rfl⟩

end

mutual

/-- Where one rewriting succeeds, the other one has the same result just when the two agree on
every object that one of them replaces. -/
theorem rewrite_eq_ok_iff : ∀ (tree : Json) (state : σ) (state' : τ) {result : Json},
    walk.rewrite replace state tree = .ok result →
      (walk'.rewrite replace' state' tree = .ok result ↔
        ∀ place ∈ (walk.prod walk').places (Stopped replace replace') (state, state') tree,
          AgreeAt walk walk' replace replace' place)
  | .obj object, state, state', result, hresult => by
    rw [places, forall_mem_cons]
    cases hstopped : Stopped replace replace' (state, state') object with
    | true =>
      rw [if_pos rfl, AgreeAt, hresult]
      constructor
      · exact fun h => ⟨fun _ => h, fun _ hplace => absurd hplace not_mem_nil⟩
      · exact fun h => h.1 hstopped
    | false =>
      obtain ⟨hnone, hnone'⟩ := replace_eq_none hstopped
      dsimp only at hnone hnone'
      rw [rewrite_of_none hnone, map_eq_ok] at hresult
      obtain ⟨entries, hentries, rfl⟩ := hresult
      rw [if_neg Bool.false_ne_true, rewrite_of_none hnone', map_eq_ok,
        ← rewriteEntries_eq_ok_iff object _ _ hentries]
      constructor
      · rintro ⟨entries', hentries', hsame⟩
        rw [Json.obj.injEq] at hsame
        exact ⟨fun h => absurd h (ne_true_of_eq_false hstopped), hsame ▸ hentries'⟩
      · rintro ⟨-, hentries'⟩
        exact ⟨entries, hentries', rfl⟩
  | .arr items, state, state', result, hresult => by
    rw [rewrite, map_eq_ok] at hresult
    obtain ⟨items', hitems, rfl⟩ := hresult
    rw [places, rewrite, map_eq_ok, ← rewriteItems_eq_ok_iff items _ _ hitems]
    constructor
    · rintro ⟨items'', hitems'', hsame⟩
      rw [Json.arr.injEq] at hsame
      exact hsame ▸ hitems''
    · exact fun hitems'' => ⟨items', hitems'', rfl⟩
  | .null, _, _, _, hresult | .bool _, _, _, _, hresult | .int _, _, _, _, hresult
  | .str _, _, _, _, hresult => by
    simp only [rewrite, Except.ok.injEq] at hresult
    simp [places, rewrite, hresult]

theorem rewriteEntries_eq_ok_iff : ∀ (entries : Object) (state : σ) (state' : τ)
    {object result : Object}, walk.rewriteEntries replace state object entries = .ok result →
      (walk'.rewriteEntries replace' state' object entries = .ok result ↔
        ∀ place ∈ (walk.prod walk').entryPlaces (Stopped replace replace') (state, state') object
            entries, AgreeAt walk walk' replace replace' place)
  | [], _, _, _, _, hresult => by
    simp only [rewriteEntries, Except.ok.injEq] at hresult
    simp [entryPlaces, rewriteEntries, hresult]
  | (key, value) :: entries, state, state', object, result, hresult => by
    simp only [rewriteEntries, bind_eq_ok, Except.ok.injEq] at hresult
    obtain ⟨value', hvalue, entries', hentries, rfl⟩ := hresult
    simp only [entryPlaces, forall_mem_append, rewriteEntries, bind_eq_ok, Except.ok.injEq]
    rw [← rewriteEntries_eq_ok_iff entries _ _ hentries]
    have hplaces := rewrite_eq_ok_iff value _ (walk'.entry state' object key value) hvalue
    rw [show (walk.prod walk').entry (state, state') object key value =
      (walk.entry state object key value, walk'.entry state' object key value) from rfl, ← hplaces]
    constructor
    · rintro ⟨value'', hvalue'', entries'', hentries'', hsame⟩
      obtain ⟨hhead, rfl⟩ := List.cons.inj hsame
      obtain ⟨-, rfl⟩ := Prod.mk.inj hhead
      exact ⟨hvalue'', hentries''⟩
    · rintro ⟨hvalue', hentries'⟩
      exact ⟨value', hvalue', entries', hentries', rfl⟩

theorem rewriteItems_eq_ok_iff : ∀ (items : List Json) (state : σ) (state' : τ)
    {before result : List Json}, walk.rewriteItems replace state before items = .ok result →
      (walk'.rewriteItems replace' state' before items = .ok result ↔
        ∀ place ∈ (walk.prod walk').itemPlaces (Stopped replace replace') (state, state') before
            items, AgreeAt walk walk' replace replace' place)
  | [], _, _, _, _, hresult => by
    simp only [rewriteItems, Except.ok.injEq] at hresult
    simp [itemPlaces, rewriteItems, hresult]
  | item :: items, state, state', before, result, hresult => by
    simp only [rewriteItems, bind_eq_ok, Except.ok.injEq] at hresult
    obtain ⟨item', hitem, items', hitems, rfl⟩ := hresult
    simp only [itemPlaces, forall_mem_append, rewriteItems, bind_eq_ok, Except.ok.injEq]
    rw [← rewriteItems_eq_ok_iff items _ _ hitems]
    have hplaces := rewrite_eq_ok_iff item _ (walk'.item state' before item) hitem
    rw [show (walk.prod walk').item (state, state') before item =
      (walk.item state before item, walk'.item state' before item) from rfl, ← hplaces]
    constructor
    · rintro ⟨item'', hitem'', items'', hitems'', hsame⟩
      obtain ⟨rfl, rfl⟩ := List.cons.inj hsame
      exact ⟨hitem'', hitems''⟩
    · rintro ⟨hitem', hitems'⟩
      exact ⟨item', hitem', items', hitems', rfl⟩

end

end Walk

end SqlTide.Foundations
