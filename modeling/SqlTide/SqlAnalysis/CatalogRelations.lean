import SqlTide.SqlAnalysis.QueryTree

/-!
# The physical relations of a catalog query

The relations of a query are collected from its relation slots. The bodies of CTEs are kept by name
and gone into where a slot names them, with the CTEs that are visible at that slot; a set of names
stops a body from being gone into inside itself.
-/

namespace SqlTide.SqlAnalysis

open Foundations

structure SqlRelationIdentity where
  database : Option String
  name : String
  deriving DecidableEq, Repr

/-- Running out of fuel is no error of the code. -/
inductive CatalogError
  | outOfFuel
  | analysis (message : String)
  deriving DecidableEq, Repr

/-- The bodies of CTEs by name: the first one counts. -/
abbrev Ctes := List (String × Json)

/-- `_cte_bodies`: of two bodies with one name the later one counts. -/
def cteBodies (ctes : List Json) : Ctes :=
  ctes.reverse.filterMap fun cte =>
    (objectOf (some cte)).bind fun cte =>
      match identifierName (field cte "alias"), objectOf (field cte "this") with
      | some name, some body => some (name, .obj body)
      | _, _ => none

def tableIdentity (tablePayload : Object) : Except CatalogError SqlRelationIdentity :=
  match identifierName (field tablePayload "name") with
  | none => .error (.analysis "Catalog relation lacks a table name")
  | some name => .ok ⟨identifierName (field tablePayload "schema"), name⟩

inductive CatalogRole
  | node
  | select
  | source
  | relations
  | relation
  | joins
  | join
  | untouched
  deriving DecidableEq, Repr

structure CatalogState where
  role : CatalogRole
  visibleCtes : Ctes

/-- `_catalog_relations`: of a node with a SELECT only that is gone into. -/
def catalogNodeEntry (visibleCtes : Ctes) (node : Object) (key : String) : CatalogState :=
  if (objectOf (field node "select")).isSome then
    ⟨if key = "select" then .select else .untouched, visibleCtes⟩
  else if key = "with" then ⟨.untouched, visibleCtes⟩
  else ⟨.node, cteBodies (selectCtes node) ++ visibleCtes⟩

/-- `_select_relations`: what is no relation slot is gone into as a node of its own. -/
def catalogSelectEntry (visibleCtes : Ctes) (selectPayload : Object) (key : String) :
    CatalogState :=
  let scopedCtes := cteBodies (selectCtes selectPayload) ++ visibleCtes
  if key = "from" then ⟨.source, scopedCtes⟩
  else if key = "joins" then ⟨.joins, scopedCtes⟩
  else if key = "with" then ⟨.untouched, scopedCtes⟩
  else catalogNodeEntry scopedCtes
    (selectPayload.filter fun entry => entry.1 ∉ ["with", "from", "joins"]) key

def catalogJoinEntry (visibleCtes : Ctes) (join : Object) (key : String) : CatalogState :=
  if key = "this" then ⟨.relation, visibleCtes⟩
  else catalogNodeEntry visibleCtes (join.filter fun entry => entry.1 ≠ "this") key

/-- `_relation_slot_relations`: anything but a table is a node. -/
def catalogRelationEntry (visibleCtes : Ctes) (relation : Object) (key : String) : CatalogState :=
  if (objectOf (field relation "table")).isSome then ⟨.untouched, visibleCtes⟩
  else catalogNodeEntry visibleCtes relation key

def catalogWalk : Walk CatalogState where
  entry state object key _ :=
    match state.role with
    | .node => catalogNodeEntry state.visibleCtes object key
    | .select => catalogSelectEntry state.visibleCtes object key
    | .source => ⟨if key = "expressions" then .relations else .untouched, state.visibleCtes⟩
    | .relation => catalogRelationEntry state.visibleCtes object key
    | .join => catalogJoinEntry state.visibleCtes object key
    | .relations | .joins | .untouched => ⟨.untouched, state.visibleCtes⟩
  item state _ _ :=
    match state.role with
    | .node => ⟨.node, state.visibleCtes⟩
    | .relations => ⟨.relation, state.visibleCtes⟩
    | .joins => ⟨.join, state.visibleCtes⟩
    | .select | .source | .relation | .join | .untouched => ⟨.untouched, state.visibleCtes⟩

/-- The table of a relation slot. -/
def slotTable (place : CatalogState × Object) : Option Object :=
  if place.1.role = .relation then objectOf (field place.2 "table") else none

/-- The tables of the relation slots of a node, with the CTEs that are visible there. -/
def slotTables (visibleCtes : Ctes) (node : Json) : List (Ctes × Object) :=
  (catalogWalk.places (fun _ _ => false) ⟨.node, visibleCtes⟩ node).filterMap fun place =>
    (slotTable place).map (place.1.visibleCtes, ·)

/-- Goes into a body with these CTEs visible, while these names are resolved. -/
abbrev Expansion := Ctes → List String → Json → Except CatalogError (List SqlRelationIdentity)

/-- `_relation_slot_relations`, for one table. -/
def slotRelations (expand : Expansion) (resolvingCtes : List String) (visibleCtes : Ctes)
    (tablePayload : Object) : Except CatalogError (List SqlRelationIdentity) := do
  let identity ← tableIdentity tablePayload
  match identity.database, visibleCtes.lookup identity.name with
  | none, some body =>
    if identity.name ∈ resolvingCtes then .ok []
    else expand visibleCtes (identity.name :: resolvingCtes) body
  | _, _ => .ok [identity]

/-- `_catalog_relations`, as the set of its elements. The fuel counts the bodies within bodies. -/
def catalogRelations : ℕ → Expansion
  | 0, _, _, _ => .error .outOfFuel
  | fuel + 1, visibleCtes, resolvingCtes, node => do
    let relations ← (slotTables visibleCtes node).mapM fun slot =>
      slotRelations (catalogRelations fuel) resolvingCtes slot.1 slot.2
    .ok relations.flatten.dedup

/-- The CTEs of a WITH clause that are in scope, the last one first. -/
structure Frame where
  ctes : Ctes
  recursive : Bool

/-- The WITH clauses in scope, the innermost one first. -/
abbrev Frames := List Frame

/-- The body of a name and those before it. -/
def Frame.find (name : String) : Ctes → Option (Json × Ctes)
  | [] => none
  | (name', body) :: ctes => if name' = name then some (body, ctes) else Frame.find name ctes

/-- The body of a CTE in scope, and what is in scope in the body: the CTEs before it, or all CTEs of
a recursive clause. -/
def lookupCte (name : String) : Frames → Option (Json × Frames)
  | [] => none
  | frame :: outer =>
    match Frame.find name frame.ctes with
    | some (body, before) =>
      some (body, (if frame.recursive then frame else ⟨before, false⟩) :: outer)
    | none => lookupCte name outer

/-- The scope inside a statement. -/
def enterStatement (frames : Frames) : Json → Frames
  | .obj payload =>
    if cteBodies (selectCtes payload) = [] then frames
    else ⟨cteBodies (selectCtes payload), hasRecursiveCtes payload⟩ :: frames
  | _ => frames

/-- The parts of a query but its WITH clauses, with their scopes. -/
def frameWalk : Walk (Option Frames) where
  entry state object key value :=
    if key = "with" ∧ selectCtes object ≠ [] then none else state.map (enterStatement · value)
  item state _ _ := state

/-- The table nodes of a query outside its WITH clauses. -/
def queryTables (frames : Frames) (node : Json) : List (Frames × Object) :=
  (frameWalk.places (fun _ _ => false) (some frames) node).filterMap fun place => do
    let frames ← place.1
    let table ← tableNode place.2
    some (frames, table)

/-- A table node outside the WITH clauses is a physical relation, or else it leads into the body of
a CTE in scope; the number counts the bodies. -/
inductive Reaches : ℕ → Frames → Json → SqlRelationIdentity → Prop
  | physical {frames frames' : Frames} {node : Json} {table : Object}
      {identity : SqlRelationIdentity} (mem : (frames', table) ∈ queryTables frames node)
      (named : tableIdentity table = .ok identity)
      (physical : identity.database ≠ none ∨ lookupCte identity.name frames' = none) :
      Reaches 0 frames node identity
  | cte {count : ℕ} {frames frames' inside : Frames} {node body : Json} {table : Object}
      {name : String} {identity : SqlRelationIdentity}
      (mem : (frames', table) ∈ queryTables frames node)
      (named : tableIdentity table = .ok ⟨none, name⟩)
      (found : lookupCte name frames' = some (body, inside))
      (reached : Reaches count inside body identity) :
      Reaches (count + 1) frames node identity

/-- The collection comes to its end, with the same result for all fuel that is enough, and it has
every physical relation that SQL scoping reaches. -/
def CatalogComplete (tree : Json) : Prop :=
  ∃ fuel result, result ≠ .error .outOfFuel ∧
    (∀ more, catalogRelations (fuel + more) [] [] tree = result) ∧
    ∀ relations, result = .ok relations → ∀ count identity, Reaches count [] tree identity →
      identity ∈ relations

end SqlTide.SqlAnalysis
