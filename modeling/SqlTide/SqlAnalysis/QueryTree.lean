import SqlTide.Foundations.TreeWalk

/-!
# Query trees and the scope of their CTEs

A parsed query is a JSON tree whose objects are tagged: a statement is the payload of an entry such
as `select` or `union`, and its WITH clause is an entry of that payload. The names that SQL lets a
place of the tree use are the state of a walk.
-/

namespace SqlTide.SqlAnalysis

open Foundations List

/-- `object.get(key)`. -/
def field (object : Object) (key : String) : Option Json := object.lookup key

/-- The object of an entry that has one. -/
def objectOf : Option Json → Option Object
  | some (.obj object) => some object
  | _ => none

def arrayOf : Option Json → Option (List Json)
  | some (.arr items) => some items
  | _ => none

theorem objectOf_eq_some {value : Option Json} {object : Object} :
    objectOf value = some object ↔ value = some (.obj object) := by
  unfold objectOf
  split <;> simp_all

theorem arrayOf_eq_some {value : Option Json} {items : List Json} :
    arrayOf value = some items ↔ value = some (.arr items) := by
  unfold arrayOf
  split <;> simp_all

/-- `_identifier_name`, `identifier_name`. -/
def identifierName (payload : Option Json) : Option String :=
  match (objectOf payload).bind (field · "name") with
  | some (.str name) => some name
  | _ => none

def selectCtes (selectPayload : Object) : List Json :=
  (((objectOf (field selectPayload "with")).bind fun withPayload =>
    arrayOf (field withPayload "ctes"))).getD []

def cteName (cte : Json) : Option String :=
  (objectOf (some cte)).bind fun cte => identifierName (field cte "alias")

def cteNames (ctes : List Json) : List String := ctes.filterMap cteName

def hasRecursiveCtes (selectPayload : Object) : Bool :=
  match (objectOf (field selectPayload "with")).bind (field · "recursive") with
  | some (.bool recursive) => recursive
  | _ => false

/-- A table node has a payload with a schema, which may be null. The table of a column has none. -/
def tableNode (node : Object) : Option Object :=
  (objectOf (field node "table")).filter fun table => (field table "schema").isSome

/-- `object[key] = value`. -/
def insertField (object : Object) (key : String) (value : Json) : Object :=
  if (field object key).isSome then
    object.map fun entry => if entry.1 = key then (key, value) else entry
  else object ++ [(key, value)]

theorem field_insertField (object : Object) (key : String) (value : Json) :
    field (insertField object key value) key = some value := by
  have hmap : ∀ object : Object, (field object key).isSome = true →
      field (object.map fun entry => if entry.1 = key then (key, value) else entry) key =
        some value := by
    intro object hkey
    induction object with
    | nil => simp [field] at hkey
    | cons entry object ih =>
      obtain ⟨key', value'⟩ := entry
      by_cases hsame : key' = key
      · simp [field, hsame]
      · have hother : (key == key') = false := by simpa using Ne.symm hsame
        have hrest : (field object key).isSome = true := by
          simpa [field, lookup_cons, hother] using hkey
        simpa [field, lookup_cons, hsame, hother] using ih hrest
  have happend : ∀ object : Object, field object key = none →
      field (object ++ [(key, value)]) key = some value := by
    intro object hkey
    induction object with
    | nil => simp [field]
    | cons entry object ih =>
      obtain ⟨key', value'⟩ := entry
      cases hsame : key == key' with
      | true => simp [field, lookup_cons, hsame] at hkey
      | false =>
        have hrest : field object key = none := by
          simpa [field, lookup_cons, hsame] using hkey
        simpa [field, lookup_cons, hsame] using ih hrest
  unfold insertField
  split_ifs with hkey
  · exact hmap object hkey
  · exact happend object (by simpa using hkey)

section
variable {object : Object} {key key' : String} {value : Json}

theorem mem_of_field (h : field object key = some value) : (key, value) ∈ object := by
  obtain ⟨before, after, rfl, -⟩ := lookup_eq_some_iff.mp h
  simp

theorem field_of_mem (hkeys : (object.map Prod.fst).Nodup) (h : (key, value) ∈ object) :
    field object key = some value := by
  obtain ⟨before, after, rfl⟩ := append_of_mem h
  refine lookup_eq_some_iff.mpr ⟨before, after, rfl, fun entry hentry => ?_⟩
  simp only [map_append, map_cons, nodup_append] at hkeys
  have hne := hkeys.2.2 entry.1 (mem_map_of_mem hentry) key (by simp)
  simpa using hne.symm

theorem insertField_eq (hkeys : (object.map Prod.fst).Nodup) (h : field object key = some value) :
    ∃ before after, object = before ++ (key, value) :: after ∧
      ∀ value', insertField object key value' = before ++ (key, value') :: after := by
  obtain ⟨before, after, rfl⟩ := append_of_mem (mem_of_field h)
  refine ⟨before, after, rfl, fun value' => ?_⟩
  simp only [map_append, map_cons, nodup_append, nodup_cons] at hkeys
  obtain ⟨-, ⟨hafter, -⟩, hbefore⟩ := hkeys
  have hkeep : ∀ entries : Object, (∀ entry ∈ entries, entry.1 ≠ key) →
      (entries.map fun entry => if entry.1 = key then (key, value') else entry) = entries := by
    intro entries hne
    rw [map_congr_left fun entry hentry => if_neg (hne entry hentry), map_id']
  rw [insertField, if_pos (by simp [h]), map_append, map_cons, if_pos rfl,
    hkeep before, hkeep after]
  · intro entry hentry hkey
    exact hafter (hkey ▸ mem_map_of_mem hentry)
  · intro entry hentry hkey
    exact hbefore entry.1 (mem_map_of_mem hentry) key (by simp) hkey

theorem insertField_self (hkeys : (object.map Prod.fst).Nodup) (h : field object key = some value) :
    insertField object key value = object := by
  obtain ⟨before, after, hobject, hinsert⟩ := insertField_eq hkeys h
  rw [hinsert, ← hobject]

theorem field_insertField_of_ne (hne : key' ≠ key) (object : Object) (value : Json) :
    field (insertField object key value) key' = field object key' := by
  have hother : (key' == key) = false := by simpa using hne
  have hmap : ∀ object : Object, field
      (object.map fun entry => if entry.1 = key then (key, value) else entry) key' =
        field object key' := by
    intro object
    induction object with
    | nil => rfl
    | cons entry object ih =>
      obtain ⟨key'', value''⟩ := entry
      by_cases hkey : key'' = key
      · simpa only [field, map_cons, hkey, reduceIte, lookup_cons, hother] using ih
      · simp only [field, map_cons, if_neg hkey, lookup_cons] at ih ⊢
        rw [ih]
  have happend : ∀ object : Object, field (object ++ [(key, value)]) key' = field object key' := by
    intro object
    induction object with
    | nil => simp [field, lookup_cons, hother]
    | cons entry object ih =>
      obtain ⟨key'', value''⟩ := entry
      simp only [field, cons_append, lookup_cons] at ih ⊢
      rw [ih]
  unfold insertField
  split_ifs
  · exact hmap object
  · exact happend object

end

mutual

/-- The objects of a tree. -/
def objects : Json → List Object
  | .obj entries => entries :: entryObjects entries
  | .arr items => itemObjects items
  | _ => []

def entryObjects : Object → List Object
  | [] => []
  | (_, value) :: entries => objects value ++ entryObjects entries

def itemObjects : List Json → List Object
  | [] => []
  | item :: items => objects item ++ itemObjects items

end

/-- Objects are maps. -/
def DistinctKeys (tree : Json) : Prop := ∀ node ∈ objects tree, (node.map Prod.fst).Nodup

theorem entryObjects_eq (entries : Object) :
    entryObjects entries = entries.flatMap fun entry => objects entry.2 := by
  induction entries with
  | nil => rfl
  | cons entry entries ih => rw [entryObjects, ih, flatMap_cons]

theorem itemObjects_eq (items : List Json) : itemObjects items = items.flatMap objects := by
  induction items with
  | nil => rfl
  | cons item items ih => rw [itemObjects, ih, flatMap_cons]

theorem distinctKeys_obj {entries : Object} :
    DistinctKeys (.obj entries) ↔
      (entries.map Prod.fst).Nodup ∧ ∀ entry ∈ entries, DistinctKeys entry.2 := by
  simp only [DistinctKeys, objects, entryObjects_eq, forall_mem_cons, forall_mem_flatMap]

theorem distinctKeys_arr {items : List Json} :
    DistinctKeys (.arr items) ↔ ∀ item ∈ items, DistinctKeys item := by
  simp only [DistinctKeys, objects, itemObjects_eq, forall_mem_flatMap]

/-- Where a place stands: in a node of this scope whose own WITH clause declares these names, or in
such a clause, or in the list of its CTEs. -/
inductive Scope
  | node (scope names : List String)
  | clause (scope names : List String) (recursive : Bool)
  | ctes (scope names : List String) (recursive : Bool)
  deriving DecidableEq, Repr

/-- The CTEs that a relation at this place can name. -/
def Scope.visible : Scope → List String
  | .node scope names => scope ++ names
  | .clause scope _ _ => scope
  | .ctes scope _ _ => scope

/-- The names that the WITH clause of a statement declares. -/
def declaredNames : Json → List String
  | .obj payload => cteNames (selectCtes payload)
  | _ => []

/-- A statement sees the CTEs of its WITH clause. The body of a CTE sees those before it; where the
clause is recursive, it sees all of them. -/
def scopeWalk : Walk Scope where
  entry
    | .node scope names, object, key, value =>
      if key = "with" ∧ names ≠ [] then .clause scope names (hasRecursiveCtes object)
      else .node (scope ++ names) (declaredNames value)
    | .clause scope names recursive, _, key, value =>
      if key = "ctes" then .ctes scope names recursive else .node scope (declaredNames value)
    | .ctes scope _ _, _, _, value => .node scope (declaredNames value)
  item
    | .node scope names, _, _ => .node (scope ++ names) []
    | .clause scope _ _, _, _ => .node scope []
    | .ctes scope names recursive, before, _ =>
      .node (scope ++ if recursive then names else names.take (cteNames before).length) []

/-- A whole tree, in no scope. -/
def Scope.outermost : Scope := .node [] []

def identifierTree (name : String) : Json := .obj [("name", .str name)]

def tableTree (schema : Json) (name : String) : Json :=
  .obj [("table", .obj [("name", identifierTree name), ("schema", schema)])]

def cteTree (name : String) (body : Json) : Json :=
  .obj [("alias", identifierTree name), ("this", body)]

/-- A SELECT with these CTEs from these relations, and with these further clauses. -/
def selectTree (ctes relations : List Json) (clauses : Object) : Json :=
  .obj [("select", .obj ([("with", .obj [("ctes", .arr ctes), ("recursive", .bool false)]),
    ("from", .obj [("expressions", .arr relations)])] ++ clauses))]

end SqlTide.SqlAnalysis
