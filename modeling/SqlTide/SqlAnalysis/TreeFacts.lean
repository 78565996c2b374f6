import SqlTide.SqlAnalysis.QueryTree

/-!
# Tree facts and qualified relations

One traversal of a model's tree collects the facts that the compiler checks, among them the first
physical relation that is no CTE. References are function nodes of the tree and no table nodes; a
table takes their place only in the text. Another traversal gives relations their database. Both
carry the names declared by the WITH clauses above a node.
-/

namespace SqlTide.SqlAnalysis

open Foundations

inductive Step
  | key (key : String)
  | index (index : ℕ)
  deriving DecidableEq, Repr

abbrev Path := List Step

structure TreeFacts where
  functionNames : List String
  hasGroupBy : Bool
  referenceSlots : List Path
  rawRelation : Option String
  deriving DecidableEq, Repr

/-- `TreeFacts::default`. -/
def TreeFacts.default : TreeFacts := ⟨[], false, [], none⟩

/-- `with_ctes`: the visible names and those that the payload declares. -/
def withCtes (visible : List String) (payload : Object) : Option (List String) :=
  let declared := cteNames (selectCtes payload)
  if declared = [] then none else some (visible ++ declared)

/-- The names passed on to the payload of an entry. -/
def childCtes (visible : List String) (payload : Json) : List String :=
  ((objectOf (some payload)).bind (withCtes visible)).getD visible

/-- The relation of a table node, unless a CTE has its name or another one came first. -/
def recordRawRelation (visible : List String) (facts : TreeFacts) (table : Object) : TreeFacts :=
  match identifierName (field table "name") with
  | some name =>
    if name ∉ visible ∧ facts.rawRelation = none then { facts with rawRelation := some name }
    else facts
  | none => facts

def recordGroupBy (facts : TreeFacts) (entries : Object) : TreeFacts :=
  match field entries "group_by" with
  | none | some .null => facts
  | some _ => { facts with hasGroupBy := true }

def recordReferenceSlots (node : Object) (path : Path) (facts : TreeFacts) : TreeFacts :=
  let expressions := ((objectOf (field node "from")).bind fun fromPayload =>
    arrayOf (field fromPayload "expressions")).getD []
  let joins := (arrayOf (field node "joins")).getD []
  { facts with
    referenceSlots := facts.referenceSlots ++
      (expressions.zipIdx.map fun indexed =>
        path ++ [.key "from", .key "expressions", .index indexed.2]) ++
      joins.zipIdx.filterMap fun indexed => (objectOf (some indexed.1)).map fun _ =>
        path ++ [.key "joins", .index indexed.2, .key "this"] }

section
-- `aggregate_key_name` looks a function up in the tables of aggregate functions.
variable (aggregateKeyName : String → Json → Option String)

def recordFunctionName (facts : TreeFacts) (key : String) (payload : Json) : TreeFacts :=
  match aggregateKeyName key payload with
  | some name =>
    if name = "" then facts else { facts with functionNames := facts.functionNames ++ [name] }
  | none => facts

mutual

/-- `scan`. It does not go into a table node. -/
def scan (path : Path) (visible : List String) (facts : TreeFacts) : Json → TreeFacts
  | .arr items => scanItems path visible facts 0 items
  | .obj entries =>
    match tableNode entries with
    | some table => recordRawRelation visible facts table
    | none => recordReferenceSlots entries path
        (scanEntries path visible (recordGroupBy facts entries) entries)
  | _ => facts

def scanItems (path : Path) (visible : List String) (facts : TreeFacts) (index : ℕ) :
    List Json → TreeFacts
  | [] => facts
  | item :: items =>
    scanItems path visible (scan (path ++ [.index index]) visible facts item) (index + 1) items

def scanEntries (path : Path) (visible : List String) (facts : TreeFacts) : Object → TreeFacts
  | [] => facts
  | (key, payload) :: entries =>
    scanEntries path visible (scan (path ++ [.key key]) (childCtes visible payload)
      (recordFunctionName aggregateKeyName facts key payload) payload) entries

end

def collectTreeFacts (tree : Json) : TreeFacts :=
  scan aggregateKeyName [] [] .default tree

end

def databaseIdentifier (database : String) : Json :=
  .obj [("name", .str database), ("quoted", .bool false), ("trailing_comments", .arr [])]

/-- Whether the relation has no database and no name of a visible CTE. -/
def Unqualified (visible : List String) (table : Object) : Prop :=
  (∃ name ∈ identifierName (field table "name"), name ∉ visible) ∧
    field table "schema" = some .null

instance (visible : List String) (table : Object) : Decidable (Unqualified visible table) :=
  instDecidableAnd

/-- The table node with its database. -/
def qualifiedTable (database : String) (visible : List String) (node table : Object) : Object :=
  if Unqualified visible table then
    insertField node "table" (.obj (insertField table "schema" (databaseIdentifier database)))
  else node

mutual

def qualifyRelations (database : String) (visible : List String) : Json → Json
  | .arr items => .arr (qualifyItems database visible items)
  | .obj entries =>
    match tableNode entries with
    | some table => .obj (qualifiedTable database visible entries table)
    | none => .obj (qualifyEntries database visible entries)
  | scalar => scalar

def qualifyItems (database : String) (visible : List String) : List Json → List Json
  | [] => []
  | item :: items =>
    qualifyRelations database visible item :: qualifyItems database visible items

def qualifyEntries (database : String) (visible : List String) : Object → Object
  | [] => []
  | (key, value) :: entries =>
    (key, qualifyRelations database (childCtes visible value) value) ::
      qualifyEntries database visible entries

end

end SqlTide.SqlAnalysis
