import SqlTide.SqlAnalysis.QueryTree

/-!
# Rewriting the relations of a query

The relations in the FROM clauses and joins of a query are replaced by those they are mapped to,
unless they name a visible CTE. The functions of the traversal are the roles of a walk: a role says
which of them treats a node, and with which visible CTEs.
-/

namespace SqlTide.SqlAnalysis

open Foundations List Walk

/-- One relation identity and the SQL of the relation that replaces it. -/
structure SqlRelationRewrite where
  sourceName : String
  targetRelation : String
  sourceDatabases : Option (List (Option String))
  preserveSourceDatabase : Bool
  deriving DecidableEq, Repr

def relationAliasFields : List String :=
  ["alias", "alias_explicit_as", "alias_keyword", "column_aliases", "trailing_comments"]

def matchingRewrite (rewrites : List SqlRelationRewrite) (tableName : String)
    (database : Option String) : Option SqlRelationRewrite :=
  rewrites.find? fun rewrite => rewrite.sourceName = tableName ∧
    ∀ databases ∈ rewrite.sourceDatabases, database ∈ databases

/-- `_transfer_relation_alias`, into the first payload of the replacement. -/
def transferRelationAlias (source replacement : Object) : Except String Object :=
  match replacement with
  | (key, .obj payload) :: entries =>
    .ok ((key, .obj (relationAliasFields.foldl (fun payload aliasField =>
      match field source aliasField with
      | some value => insertField payload aliasField value
      | none => payload) payload)) :: entries)
  | _ => .error "Replacement relation has an invalid shape"

def transferRelationDatabase (source replacement : Object) : Except String Object :=
  match objectOf (field replacement "table") with
  | some table => .ok (insertField replacement "table"
      (.obj (insertField table "schema" ((field source "schema").getD .null))))
  | none => .error "Database preservation requires a table replacement"

section
-- `parse_relation_tree` parses the SQL of one relation.
variable (parseRelationTree : String → Except String Object) (rewrites : List SqlRelationRewrite)

/-- `_rewritten_relation`, for the payload of a table: its replacement, if it has one. -/
def rewrittenTable (visibleCtes : List String) (tablePayload : Object) :
    Except String (Option Json) :=
  match identifierName (field tablePayload "name") with
  | none => .ok none
  | some tableName =>
    let database := identifierName (field tablePayload "schema")
    if database = none ∧ tableName ∈ visibleCtes then .ok none
    else
      match matchingRewrite rewrites tableName database with
      | none => .ok none
      | some rewrite => do
        let replacement ← parseRelationTree rewrite.targetRelation
        let replacement ←
          if rewrite.preserveSourceDatabase then transferRelationDatabase tablePayload replacement
          else .ok replacement
        let replacement ← transferRelationAlias tablePayload replacement
        .ok (some (.obj replacement))

/-- What is made of a node: the parts of a SELECT each have a role of their own. -/
inductive RewriteRole
  | node
  | select
  | clause
  | ctes
  | cte
  | source
  | relations
  | relation
  | joins
  | join
  | untouched
  deriving DecidableEq, Repr

structure RewriteState where
  role : RewriteRole
  visibleCtes : List String
  deriving DecidableEq, Repr

/-- `_rewrite_node`: of a node with a SELECT only that is rewritten, else all values are. -/
def nodeEntryRole (node : Object) (key : String) : RewriteRole :=
  if (objectOf (field node "select")).isSome then if key = "select" then .select else .untouched
  else .node

/-- `_rewritten_relation`: a table is left alone, anything else is a node. -/
def relationEntryRole (relation : Object) (key : String) : RewriteRole :=
  if (objectOf (field relation "table")).isSome then .untouched else nodeEntryRole relation key

/-- `_rewrite_select`: the CTEs of a recursive clause see all its names, others what is visible. -/
def selectEntryState (visibleCtes : List String) (selectPayload : Object) (key : String) :
    RewriteState :=
  let allVisibleCtes := visibleCtes ++ cteNames (selectCtes selectPayload)
  if key = "with" then
    ⟨.clause, if hasRecursiveCtes selectPayload then allVisibleCtes else visibleCtes⟩
  else if key = "from" then ⟨.source, allVisibleCtes⟩
  else if key = "joins" then ⟨.joins, allVisibleCtes⟩
  else ⟨.node, allVisibleCtes⟩

/-- `_rewrite_select`, `_rewrite_node`, `_rewrite_relation_slots` and `_rewritten_relations`. -/
def rewriteWalk : Walk RewriteState where
  entry state object key _ :=
    match state.role with
    | .node => ⟨nodeEntryRole object key, state.visibleCtes⟩
    | .relation => ⟨relationEntryRole object key, state.visibleCtes⟩
    | .select => selectEntryState state.visibleCtes object key
    | .clause => ⟨if key = "ctes" then .ctes else .untouched, state.visibleCtes⟩
    | .cte => ⟨if key = "this" then .node else .untouched, state.visibleCtes⟩
    | .source => ⟨if key = "expressions" then .relations else .untouched, state.visibleCtes⟩
    | .join => ⟨if key = "this" then .relation else .untouched, state.visibleCtes⟩
    | .ctes | .relations | .joins | .untouched => ⟨.untouched, state.visibleCtes⟩
  item state before _ :=
    match state.role with
    | .node => ⟨.node, state.visibleCtes⟩
    | .ctes => ⟨.cte, state.visibleCtes ++ cteNames before⟩
    | .relations => ⟨.relation, state.visibleCtes⟩
    | .joins => ⟨.join, state.visibleCtes⟩
    | .relation | .select | .clause | .cte | .source | .join | .untouched =>
      ⟨.untouched, state.visibleCtes⟩

/-- A table in a relation slot may be replaced; a join gets its `this` back, which is null where
there was none. -/
def rewrittenObject (state : RewriteState) (object : Object) : Except String (Option Json) :=
  match state.role with
  | .relation =>
    match objectOf (field object "table") with
    | some tablePayload => rewrittenTable parseRelationTree rewrites state.visibleCtes tablePayload
    | none => .ok none
  | .join =>
    .ok (if (field object "this").isNone then some (.obj (object ++ [("this", .null)])) else none)
  | _ => .ok none

/-- `rewrite_query_tree`. Of several errors in a tree the first one in its own order is raised. -/
def rewriteQueryTree (tree : Json) : Except String Json :=
  match (objectOf (some tree)).bind fun object => objectOf (field object "select") with
  | some _ =>
    rewriteWalk.rewrite (rewrittenObject parseRelationTree rewrites) ⟨.node, []⟩ tree
  | none => .error "Query rewrite expects a SELECT query"

/-- A mapped table node that names no CTE in scope is replaced wherever it is. -/
def scopedReplacement (scope : Scope) (object : Object) : Except String (Option Json) :=
  match tableNode object with
  | some tablePayload => rewrittenTable parseRelationTree rewrites scope.visible tablePayload
  | none => .ok none

/-- The rewritten query has all mapped relations replaced and nothing else changed. -/
def RewritesEveryRelation (tree : Json) : Prop :=
  ∀ tree', rewriteQueryTree parseRelationTree rewrites tree = .ok tree' →
    scopeWalk.rewrite (scopedReplacement parseRelationTree rewrites) .outermost tree = .ok tree'

end

section
variable (rewrites : List SqlRelationRewrite)

/-- The table has a name that is mapped. -/
def Mapped (table : Object) : Prop :=
  ∃ name ∈ identifierName (field table "name"),
    (matchingRewrite rewrites name (identifierName (field table "schema"))).isSome = true

/-- The table has no database and the name of one of these CTEs. -/
def NamesCte (ctes : List String) (table : Object) : Prop :=
  identifierName (field table "schema") = none ∧
    ∃ name ∈ identifierName (field table "name"), name ∈ ctes

instance (table : Object) : Decidable (Mapped rewrites table) := by
  unfold Mapped
  infer_instance

instance (ctes : List String) (table : Object) : Decidable (NamesCte ctes table) :=
  inferInstanceAs (Decidable (_ ∧ _))

/-- The entries of the parts of a SELECT that are parts of their own. -/
def partSlot : RewriteRole → String → Option RewriteRole
  | .select, "with" => some .clause
  | .clause, "ctes" => some .ctes
  | .cte, "this" => some .node
  | .select, "from" => some .source
  | .source, "expressions" => some .relations
  | .select, "joins" => some .joins
  | .join, "this" => some .relation
  | _, _ => none

/-- The other entries of a SELECT are nodes, and so are those of a node or of a relation that is no
table. Beside a SELECT, inside of a table and in what is left of the parts there are no slots. -/
def entrySlot (slot : RewriteRole) (object : Object) (key : String) : RewriteRole :=
  match partSlot slot key with
  | some slot => slot
  | none =>
    if slot = .select then .node
    else if slot = .node ∨ (slot = .relation ∧ objectOf (field object "table") = none) then
      if objectOf (field object "select") = none then .node
      else if key = "select" then .select else .untouched
    else .untouched

def itemSlot : RewriteRole → RewriteRole
  | .node => .node
  | .ctes => .cte
  | .relations => .relation
  | .joins => .join
  | _ => .untouched

/-- The slots of a tree, and the scope of the WITH clauses that belong to its SELECTs: those of
other statements, as of a union, are left out. -/
def selectWalk : Walk (RewriteRole × Scope) where
  entry state object key value :=
    let slot := entrySlot state.1 object key
    (slot, match scopeWalk.entry state.2 object key value with
      | .node scope names => .node scope (if slot = .select then names else [])
      | scope => scope)
  item state before item := (itemSlot state.1, scopeWalk.item state.2 before item)

/-- A part of a query: its slot, its scope in the SELECTs alone, its scope, and the object. -/
abbrev QueryPlace := ((RewriteRole × Scope) × Scope) × Object

/-- A relation slot with a mapped table node that names no CTE in scope. -/
def ReplacedInSlot (states : (RewriteRole × Scope) × Scope) (object : Object) : Bool :=
  states.1.1 = .relation ∧ ∃ table ∈ tableNode object,
    Mapped rewrites table ∧ ¬ NamesCte states.2.visible table

/-- The objects of a tree. What is inside of a relation that is to be replaced does not count. -/
def queryPlaces (tree : Json) : List QueryPlace :=
  (selectWalk.prod scopeWalk).places (ReplacedInSlot rewrites)
    ((.node, .outermost), .outermost) tree

/-- An object of a query in which no mapped table is missed and none is replaced that should not be:
its slot and the WITH clauses above it say so. -/
structure ReachedInScope (place : QueryPlace) : Prop where
  /-- A mapped table node that names no CTE in scope stands in a relation slot. -/
  slot : ∀ table ∈ tableNode place.2, Mapped rewrites table →
    ¬ NamesCte place.1.2.visible table → place.1.1.1 = .relation
  /-- In a relation slot, it names a CTE just when it names one of a SELECT. -/
  cte : place.1.1.1 = .relation → ∀ table ∈ tableNode place.2, Mapped rewrites table →
    (NamesCte place.1.2.visible table ↔ NamesCte place.1.1.2.visible table)
  /-- What a relation slot has under `table` is a table node, if it is mapped. -/
  node : place.1.1.1 = .relation → ∀ table ∈ objectOf (field place.2 "table"),
    Mapped rewrites table → ¬ NamesCte place.1.1.2.visible table →
      (field table "schema").isSome = true
  /-- A join has a relation. -/
  join : place.1.1.1 = .join → (field place.2 "this").isSome = true

theorem reachedInScope_iff_fields {place : QueryPlace} : ReachedInScope rewrites place ↔
    (∀ table ∈ tableNode place.2, Mapped rewrites table →
      ¬ NamesCte place.1.2.visible table → place.1.1.1 = .relation) ∧
    (place.1.1.1 = .relation → ∀ table ∈ tableNode place.2, Mapped rewrites table →
      (NamesCte place.1.2.visible table ↔ NamesCte place.1.1.2.visible table)) ∧
    (place.1.1.1 = .relation → ∀ table ∈ objectOf (field place.2 "table"),
      Mapped rewrites table → ¬ NamesCte place.1.1.2.visible table →
        (field table "schema").isSome = true) ∧
    (place.1.1.1 = .join → (field place.2 "this").isSome = true) :=
  ⟨fun h => ⟨h.slot, h.cte, h.node, h.join⟩,
    fun ⟨slot, cte, node, join⟩ => ⟨slot, cte, node, join⟩⟩

instance : DecidablePred (ReachedInScope rewrites) :=
  fun _ => decidable_of_iff _ (reachedInScope_iff_fields rewrites).symm

end

variable {parseRelationTree : String → Except String Object} {rewrites : List SqlRelationRewrite}
  {tree tree' : Json}

/-- The relations of a mapping are those of bare names. -/
def parseBareRelation (target : String) : Except String Object :=
  .ok [("table", .obj [("name", identifierTree target), ("schema", .null)])]

theorem rewriteQueryTree_eq_ok :
    rewriteQueryTree parseRelationTree rewrites tree = .ok tree' ↔
      ((objectOf (some tree)).bind fun object => objectOf (field object "select")).isSome ∧
        rewriteWalk.rewrite (rewrittenObject parseRelationTree rewrites) ⟨.node, []⟩ tree =
          .ok tree' := by
  unfold rewriteQueryTree
  cases (objectOf (some tree)).bind fun object => objectOf (field object "select") with
  | some payload => simp
  | none => simp

section
variable {table object : Object} {visible : List String}

theorem rewrittenTable_of_not_mapped (h : ¬ (Mapped rewrites table ∧ ¬ NamesCte visible table)) :
    rewrittenTable parseRelationTree rewrites visible table = .ok none := by
  unfold rewrittenTable
  cases hname : identifierName (field table "name") with
  | none => rfl
  | some name =>
    dsimp only
    split_ifs with hcte
    · rfl
    · have hnone :
          matchingRewrite rewrites name (identifierName (field table "schema")) = none := by
        by_contra hsome
        refine h ⟨⟨name, hname, Option.isSome_iff_ne_none.mpr hsome⟩, ?_⟩
        rintro ⟨hschema, name', hname', hvisible⟩
        obtain rfl := Option.some.inj (hname.symm.trans hname')
        exact hcte ⟨hschema, hvisible⟩
      rw [hnone]

/-- What a mapped table is replaced by does not depend on the names that it is compared with. -/
theorem rewrittenTable_of_mapped (hcte : ¬ NamesCte visible table) :
    rewrittenTable parseRelationTree rewrites visible table =
      rewrittenTable parseRelationTree rewrites [] table := by
  unfold rewrittenTable
  cases hname : identifierName (field table "name") with
  | none => rfl
  | some name =>
    dsimp only
    rw [if_neg fun h => hcte ⟨h.1, name, hname, h.2⟩, if_neg (by simp)]

theorem rewrittenTable_ne_none (hmapped : Mapped rewrites table) :
    rewrittenTable parseRelationTree rewrites [] table ≠ .ok none := by
  obtain ⟨name, hname, hrewrite⟩ := hmapped
  obtain ⟨rewrite, hrewrite⟩ := Option.isSome_iff_exists.mp hrewrite
  intro h
  cases hpreserve : rewrite.preserveSourceDatabase <;>
    simp [rewrittenTable, Option.mem_def.mp hname, hrewrite, hpreserve, bind_eq_ok] at h

theorem field_foldl_insertField {payload : Object} {key : String} (value : String → Option Json)
    {keys : List String} (hkeys : key ∉ keys) :
    field (keys.foldl (fun payload aliasField =>
      match value aliasField with
      | some value => insertField payload aliasField value
      | none => payload) payload) key = field payload key := by
  induction keys generalizing payload with
  | nil => rfl
  | cons aliasField keys ih =>
    obtain ⟨hne, hkeys⟩ := not_or.mp (mem_cons.not.mp hkeys)
    rw [foldl_cons, ih hkeys]
    cases value aliasField with
    | none => rfl
    | some value => exact field_insertField_of_ne hne payload value

/-- Where all relations are mapped to one name, that is the name of what a table is replaced by. -/
theorem rewrittenTable_bare (fresh : String) (hmapped : Mapped rewrites table) :
    ∃ payload, rewrittenTable (fun _ => parseBareRelation fresh) rewrites [] table =
        .ok (some (.obj [("table", .obj payload)])) ∧
      identifierName (field payload "name") = some fresh := by
  obtain ⟨name, hname, hrewrite⟩ := hmapped
  obtain ⟨rewrite, hrewrite⟩ := Option.isSome_iff_exists.mp hrewrite
  have hpayload : ∀ schema : Json, ∃ payload,
      transferRelationAlias table
          [("table", .obj [("name", identifierTree fresh), ("schema", schema)])] =
        .ok [("table", .obj payload)] ∧ identifierName (field payload "name") = some fresh := by
    intro schema
    refine ⟨_, rfl, ?_⟩
    rw [field_foldl_insertField (field table) (by decide)]
    rfl
  obtain ⟨payload, htransfer, hfresh⟩ := hpayload
    (if rewrite.preserveSourceDatabase then (field table "schema").getD .null else .null)
  refine ⟨payload, ?_, hfresh⟩
  unfold rewrittenTable
  rw [Option.mem_def.mp hname]
  dsimp only
  rw [if_neg (by simp), hrewrite]
  cases hpreserve : rewrite.preserveSourceDatabase with
  | true =>
    rw [hpreserve, if_pos rfl] at htransfer
    simp only [parseBareRelation, hpreserve, if_true]
    exact bind_eq_ok.mpr ⟨_, rfl, bind_eq_ok.mpr ⟨_, rfl, bind_eq_ok.mpr ⟨_, htransfer, rfl⟩⟩⟩
  | false =>
    rw [hpreserve, if_neg Bool.false_ne_true] at htransfer
    simp only [parseBareRelation, hpreserve, Bool.false_eq_true, if_false]
    exact bind_eq_ok.mpr ⟨_, rfl, bind_eq_ok.mpr ⟨_, rfl, bind_eq_ok.mpr ⟨_, htransfer, rfl⟩⟩⟩

end

/-- The names that the WITH clause in this slot declares. -/
def slotNames : RewriteRole → Json → List String
  | .select, tree => declaredNames tree
  | .clause, tree =>
    cteNames (((objectOf (some tree)).bind fun withPayload =>
      arrayOf (field withPayload "ctes")).getD [])
  | .ctes, tree => cteNames ((arrayOf (some tree)).getD [])
  | _, _ => []

/-- The traversal is where the slots say, and has the names of the SELECTs above. -/
inductive Agrees : RewriteState → RewriteRole × Scope → Json → Prop
  | untouched {visible : List String} {scope : Scope} {tree : Json} :
      Agrees ⟨.untouched, visible⟩ (.untouched, scope) tree
  | node {role : RewriteRole} {visible scope names : List String} {tree : Json} :
      (∀ name, name ∈ visible ↔ name ∈ scope) → slotNames role tree = names →
      (role = .select ∨ names = []) → Agrees ⟨role, visible⟩ (role, .node scope names) tree
  | clause {visible scope names : List String} {recursive : Bool} {tree : Json} :
      (∀ name, name ∈ visible ↔ name ∈ scope ∨ (recursive = true ∧ name ∈ names)) →
      slotNames .clause tree = names →
      Agrees ⟨.clause, visible⟩ (.clause, .clause scope names recursive) tree
  | ctes {visible scope names : List String} {recursive : Bool} {tree : Json} :
      (∀ name, name ∈ visible ↔ name ∈ scope ∨ (recursive = true ∧ name ∈ names)) →
      slotNames .ctes tree = names →
      Agrees ⟨.ctes, visible⟩ (.ctes, .ctes scope names recursive) tree

theorem entrySlot_eq (role : RewriteRole) (visible : List String) (object : Object) (key : String)
    (value : Json) :
    entrySlot role object key = (rewriteWalk.entry ⟨role, visible⟩ object key value).role := by
  cases role with
  | node | relation =>
    cases hselect : objectOf (field object "select") <;>
      cases htable : objectOf (field object "table") <;>
      simp [entrySlot, partSlot, rewriteWalk, nodeEntryRole, relationEntryRole, hselect, htable]
  | select =>
    simp only [rewriteWalk, selectEntryState]
    split_ifs <;> simp [entrySlot, partSlot, *]
  | clause | cte | source | join =>
    simp only [rewriteWalk]
    split_ifs <;> simp [entrySlot, partSlot, *]
  | ctes | relations | joins | untouched => rfl

section
variable {state : RewriteState} {above : RewriteRole × Scope} {object : Object} {key : String}
  {value : Json} {visible scope names : List String}

/-- In a slot with no WITH clause of a SELECT, nothing is added to the names. -/
theorem agrees_of_role {role : RewriteRole} (hvisible : ∀ name, name ∈ visible ↔ name ∈ scope)
    (hnames : role = .clause ∨ role = .ctes → slotNames role value = []) :
    Agrees ⟨role, visible⟩
      (role, .node scope (if role = .select then declaredNames value else [])) value := by
  by_cases hselect : role = .select
  · subst hselect
    exact .node hvisible rfl (Or.inl rfl)
  · rw [if_neg hselect]
    refine .node hvisible ?_ (Or.inr rfl)
    cases role with
    | select => exact absurd rfl hselect
    | clause => exact hnames (Or.inl rfl)
    | ctes => exact hnames (Or.inr rfl)
    | node | cte | source | relations | relation | joins | join | untouched => rfl

theorem agrees_untouched (h : state.role = .untouched) (h' : above.1 = .untouched) :
    Agrees state above value := by
  obtain ⟨role, visible⟩ := state
  obtain ⟨slot, scope⟩ := above
  obtain rfl : role = .untouched := h
  obtain rfl : slot = .untouched := h'
  exact .untouched

section
variable (hvisible : ∀ name, name ∈ visible ↔ name ∈ scope)

include hvisible

section
variable (hnames : cteNames (selectCtes object) = names)

include hnames

theorem agrees_with (hfield : field object "with" = some value) :
    Agrees (rewriteWalk.entry ⟨.select, visible⟩ object "with" value)
      (selectWalk.entry (.select, .node scope names) object "with" value) value := by
  have hclause : slotNames .clause value = names := by
    rw [← hnames, selectCtes, hfield]
    rfl
  by_cases hnone : names = []
  · subst hnone
    have hsame : (if hasRecursiveCtes object then visible ++ cteNames (selectCtes object)
        else visible) = visible := by
      rw [hnames, append_nil, ite_self]
    have hagrees := @agrees_of_role value visible (scope ++ []) .clause
      (by simpa using hvisible) (fun _ => hclause)
    simpa [rewriteWalk, selectEntryState, selectWalk, entrySlot, partSlot, scopeWalk, hsame,
      hnames] using hagrees
  · have hstate : rewriteWalk.entry ⟨.select, visible⟩ object "with" value =
        ⟨.clause, if hasRecursiveCtes object then visible ++ cteNames (selectCtes object)
          else visible⟩ := by
      simp [rewriteWalk, selectEntryState]
    have habove : selectWalk.entry (.select, .node scope names) object "with" value =
        (.clause, .clause scope names (hasRecursiveCtes object)) := by
      simp [selectWalk, entrySlot, partSlot, scopeWalk, hnone]
    rw [hstate, habove]
    refine .clause (fun name => ?_) hclause
    cases hasRecursiveCtes object <;> simp [hvisible, hnames]

theorem agrees_part (hwith : key ≠ "with") :
    Agrees (rewriteWalk.entry ⟨.select, visible⟩ object key value)
      (selectWalk.entry (.select, .node scope names) object key value) value := by
  have hstate : rewriteWalk.entry ⟨.select, visible⟩ object key value =
      ⟨entrySlot .select object key, visible ++ cteNames (selectCtes object)⟩ := by
    rw [entrySlot_eq .select visible object key value]
    simp only [rewriteWalk, selectEntryState, if_neg hwith]
    split_ifs <;> rfl
  have habove : selectWalk.entry (.select, .node scope names) object key value =
      (entrySlot .select object key, .node (scope ++ names)
        (if entrySlot .select object key = .select then declaredNames value else [])) := by
    simp [selectWalk, scopeWalk, hwith]
  rw [hstate, habove]
  refine agrees_of_role (by simp [hvisible, hnames]) fun hslot => ?_
  rw [entrySlot_eq .select visible object key value] at hslot
  simp only [rewriteWalk, selectEntryState, if_neg hwith] at hslot
  split_ifs at hslot <;> simp at hslot

end

/-- Outside of the SELECTs, the slot of an entry is all that changes. -/
theorem agrees_outside {role : RewriteRole} (hrole : role ≠ .select)
    (hfield : field object key = some value) (hnames : slotNames role (.obj object) = []) :
    Agrees (rewriteWalk.entry ⟨role, visible⟩ object key value)
      (selectWalk.entry (role, .node scope []) object key value) value := by
  have hstate : rewriteWalk.entry ⟨role, visible⟩ object key value =
      ⟨entrySlot role object key, visible⟩ := by
    rw [entrySlot_eq role visible object key value]
    cases role <;> first | rfl | exact absurd rfl hrole
  have habove : selectWalk.entry (role, .node scope []) object key value =
      (entrySlot role object key, .node (scope ++ [])
        (if entrySlot role object key = .select then declaredNames value else [])) := by
    simp [selectWalk, scopeWalk]
  rw [hstate, habove]
  refine agrees_of_role (by simpa using hvisible) fun hslot => ?_
  rw [entrySlot_eq role visible object key value] at hslot ⊢
  cases role with
  | clause =>
    simp only [rewriteWalk] at hslot ⊢
    split_ifs at hslot ⊢ with hctes
    · subst hctes
      simpa [slotNames, objectOf, hfield] using hnames
    · rfl
  | select => exact absurd rfl hrole
  | node | relation =>
    simp only [rewriteWalk, relationEntryRole, nodeEntryRole] at hslot
    split_ifs at hslot <;> simp at hslot
  | cte | source | join =>
    simp only [rewriteWalk] at hslot
    split_ifs at hslot <;> simp at hslot
  | ctes | relations | joins | untouched => simp [rewriteWalk] at hslot

end

theorem agrees_entry (hfield : field object key = some value)
    (h : Agrees state above (.obj object)) :
    Agrees (rewriteWalk.entry state object key value) (selectWalk.entry above object key value)
      value := by
  cases h with
  | untouched => exact .untouched
  | @node role visible scope names _ hvisible hnames hselect =>
    by_cases hrole : role = .select
    · subst hrole
      by_cases hwith : key = "with"
      · subst hwith
        exact agrees_with hvisible hnames hfield
      · exact agrees_part hvisible hnames hwith
    · obtain rfl := hselect.resolve_left hrole
      exact agrees_outside hvisible hrole hfield hnames
  | clause hvisible hnames =>
    by_cases hctes : key = "ctes"
    · subst hctes
      exact .ctes hvisible (by simpa [slotNames, objectOf, hfield] using hnames)
    · have hrole := @entrySlot_eq .clause [] object key value
      simp only [rewriteWalk, if_neg hctes] at hrole
      exact agrees_untouched (by simp [rewriteWalk, hctes]) hrole
  | ctes => exact .untouched

theorem agrees_item {items before : List Json} {item : Json} (hitems : before ++ [item] <+: items)
    (h : Agrees state above (.arr items)) :
    Agrees (rewriteWalk.item state before item) (selectWalk.item above before item) item := by
  have hbefore : cteNames before <+: cteNames items :=
    ((prefix_append before [item]).trans hitems).filterMap cteName
  cases h with
  | untouched => exact .untouched
  | @node role visible scope names _ hvisible hnames hselect =>
    cases role with
    | select | clause | cte | source | relation | join | untouched => exact .untouched
    | ctes =>
      obtain rfl := hselect.resolve_left (by simp)
      have hnone : cteNames before = [] := prefix_nil.mp (hnames ▸ hbefore)
      exact .node (by simpa [hnone] using hvisible) rfl (Or.inr rfl)
    | node | relations | joins =>
      obtain rfl := hselect.resolve_left (by simp)
      exact .node (by simpa using hvisible) rfl (Or.inr rfl)
  | @clause visible scope names recursive _ hvisible hnames => exact .untouched
  | @ctes visible scope names recursive _ hvisible hnames =>
    obtain rfl : cteNames items = names := hnames
    have htake : (cteNames items).take (cteNames before).length = cteNames before :=
      (prefix_iff_eq_take.mp hbefore).symm
    refine .node (fun name => ?_) rfl (Or.inr rfl)
    cases recursive with
    | true =>
      have hsubset : name ∈ cteNames before → name ∈ cteNames items := fun h => hbefore.subset h
      simp only [mem_append, hvisible, true_and, if_true]
      tauto
    | false => simp [hvisible, htake]

end

section
variable {state : RewriteState} {scope : Scope} {object table : Object} {place : QueryPlace}

variable (rewrites) in
/-- The traversal replaces a mapped table in a relation slot, unless it takes it for a CTE. -/
def TraversalReplaces (state : RewriteState) (object : Object) : Prop :=
  state.role = .relation ∧ ∃ table, objectOf (field object "table") = some table ∧
    Mapped rewrites table ∧ ¬ NamesCte state.visibleCtes table

variable (rewrites) in
/-- SQL scoping asks for the replacement of every mapped table node that names no CTE. -/
def ScopeReplaces (scope : Scope) (object : Object) : Prop :=
  ∃ table, tableNode object = some table ∧ Mapped rewrites table ∧ ¬ NamesCte scope.visible table

theorem rewrittenObject_of_replaces (h : TraversalReplaces rewrites state object) :
    ∃ table, objectOf (field object "table") = some table ∧ Mapped rewrites table ∧
      rewrittenObject parseRelationTree rewrites state object =
        rewrittenTable parseRelationTree rewrites [] table := by
  obtain ⟨hrole, table, htable, hmapped, hcte⟩ := h
  refine ⟨table, htable, hmapped, ?_⟩
  unfold rewrittenObject
  rw [hrole]
  dsimp only
  rw [htable]
  exact rewrittenTable_of_mapped hcte

theorem rewrittenObject_of_not_replaces (h : ¬ TraversalReplaces rewrites state object)
    (hjoin : state.role = .join → (field object "this").isSome = true) :
    rewrittenObject parseRelationTree rewrites state object = .ok none := by
  unfold rewrittenObject
  cases hrole : state.role with
  | relation =>
    cases htable : objectOf (field object "table") with
    | none => rfl
    | some table =>
      exact rewrittenTable_of_not_mapped fun hmapped => h ⟨hrole, table, htable, hmapped⟩
  | join => simp [Option.isSome_iff_ne_none.mp (hjoin hrole)]
  | node | select | clause | ctes | cte | source | relations | joins | untouched => rfl

theorem tableNode_eq_some_iff : tableNode object = some table ↔
    objectOf (field object "table") = some table ∧ (field table "schema").isSome = true :=
  Option.filter_eq_some_iff

theorem scopedReplacement_of_replaces (h : ScopeReplaces rewrites scope object) :
    ∃ table, objectOf (field object "table") = some table ∧ Mapped rewrites table ∧
      scopedReplacement parseRelationTree rewrites scope object =
        rewrittenTable parseRelationTree rewrites [] table := by
  obtain ⟨table, htable, hmapped, hcte⟩ := h
  refine ⟨table, (tableNode_eq_some_iff.mp htable).1, hmapped, ?_⟩
  unfold scopedReplacement
  rw [htable]
  exact rewrittenTable_of_mapped hcte

theorem scopedReplacement_of_not_replaces (h : ¬ ScopeReplaces rewrites scope object) :
    scopedReplacement parseRelationTree rewrites scope object = .ok none := by
  unfold scopedReplacement
  cases htable : tableNode object with
  | none => rfl
  | some table => exact rewrittenTable_of_not_mapped fun hmapped => h ⟨table, htable, hmapped⟩

variable {above : RewriteRole × Scope}

theorem Agrees.role (h : Agrees state above tree) : state.role = above.1 := by
  cases h <;> rfl

theorem Agrees.namesCte (h : Agrees state above tree) (hrole : state.role = .relation) :
    NamesCte state.visibleCtes table ↔ NamesCte above.2.visible table := by
  cases h with
  | untouched | clause | ctes => cases hrole
  | node hvisible _ hselect =>
    obtain rfl : _ = RewriteRole.relation := hrole
    obtain rfl := hselect.resolve_left (by simp)
    simp [NamesCte, Scope.visible, hvisible]

/-- Where the slots and the scopes are right, the traversal replaces what SQL scoping asks for. -/
theorem reachedInScope_iff (h : Agrees state place.1.1 (.obj place.2)) :
    ReachedInScope rewrites place ↔
      (TraversalReplaces rewrites state place.2 ↔ ScopeReplaces rewrites place.1.2 place.2) ∧
        (state.role = .join → (field place.2 "this").isSome = true) := by
  constructor
  · intro hreached
    refine ⟨⟨?_, ?_⟩, fun hjoin => hreached.join (h.role ▸ hjoin)⟩
    · rintro ⟨hrole, table, htable, hmapped, hcte⟩
      have hslot : place.1.1.1 = .relation := h.role ▸ hrole
      rw [h.namesCte hrole] at hcte
      have hnode : tableNode place.2 = some table :=
        tableNode_eq_some_iff.mpr ⟨htable, hreached.node hslot table htable hmapped hcte⟩
      exact ⟨table, hnode, hmapped, (hreached.cte hslot table hnode hmapped).not.mpr hcte⟩
    · rintro ⟨table, hnode, hmapped, hcte⟩
      have hslot := hreached.slot table hnode hmapped hcte
      have hrole : state.role = .relation := h.role.trans hslot
      refine ⟨hrole, table, (tableNode_eq_some_iff.mp hnode).1, hmapped, ?_⟩
      rw [h.namesCte hrole]
      exact (hreached.cte hslot table hnode hmapped).not.mp hcte
  · rintro ⟨hreplaces, hjoin⟩
    have hsame : ∀ table table', objectOf (field place.2 "table") = some table →
        objectOf (field place.2 "table") = some table' → table = table' := by
      intro table table' htable htable'
      exact Option.some.inj (htable.symm.trans htable')
    refine ⟨?_, ?_, ?_, fun hslot => hjoin (h.role.trans hslot)⟩
    · intro table hnode hmapped hcte
      exact h.role ▸ (hreplaces.mpr ⟨table, hnode, hmapped, hcte⟩).1
    · intro hslot table hnode hmapped
      have hrole : state.role = .relation := h.role.trans hslot
      have htable := (tableNode_eq_some_iff.mp hnode).1
      rw [← h.namesCte hrole, ← not_iff_not]
      constructor
      · intro hcte
        obtain ⟨-, table', htable', -, hcte'⟩ := hreplaces.mpr ⟨table, hnode, hmapped, hcte⟩
        exact hsame _ _ htable htable' ▸ hcte'
      · intro hcte
        obtain ⟨table', hnode', -, hcte'⟩ := hreplaces.mp ⟨hrole, table, htable, hmapped, hcte⟩
        exact hsame _ _ htable (tableNode_eq_some_iff.mp hnode').1 ▸ hcte'
    · intro hslot table htable hmapped hcte
      have hrole : state.role = .relation := h.role.trans hslot
      obtain ⟨table', hnode', -, -⟩ :=
        hreplaces.mp ⟨hrole, table, htable, hmapped, (h.namesCte hrole).not.mpr hcte⟩
      obtain ⟨htable', hschema⟩ := tableNode_eq_some_iff.mp hnode'
      exact hsame _ _ htable htable' ▸ hschema

end

section
variable {σ : Type} {walk : Walk σ} {replace : σ → Object → Except String (Option Json)} {state : σ}
  {object table : Object} {name : String}

/-- What objects are replaced by has their entry of this key, or has no such entry. -/
def KeepsNames (replace : σ → Object → Except String (Option Json)) : Prop :=
  ∀ state object replacement, replace state object = .ok (some replacement) →
    ∃ entries, replacement = .obj entries ∧
      (field entries "name" = none ∨ field entries "name" = field object "name")

/-- The name of the table that a node has. -/
def tableName (tree : Json) : Option String :=
  ((objectOf (some tree)).bind fun object => objectOf (field object "table")).bind fun table =>
    identifierName (field table "name")

theorem rewrite_obj_cases {tree : Json} (hkeeps : KeepsNames replace)
    (h : walk.rewrite replace state (.obj object) = .ok tree) :
    ∃ entries, tree = .obj entries ∧ (field entries "name" = none ∨
      field entries "name" = field object "name" ∨ walk.rewriteEntries replace state object object =
        .ok entries) := by
  obtain ⟨replacement, hreplacement, h⟩ := bind_eq_ok.mp (by rwa [Walk.rewrite] at h)
  cases replacement with
  | none =>
    obtain ⟨entries, hentries, rfl⟩ := map_eq_ok.mp h
    exact ⟨entries, rfl, Or.inr (Or.inr hentries)⟩
  | some replacement =>
    obtain rfl := Except.ok.inj h
    obtain ⟨entries, rfl, hnone | hsame⟩ := hkeeps state object replacement hreplacement
    · exact ⟨entries, rfl, Or.inl hnone⟩
    · exact ⟨entries, rfl, Or.inr (Or.inl hsame)⟩

theorem identifierName_rewrite {identifier tree : Json} (hkeeps : KeepsNames replace)
    (hname : identifierName (some identifier) = some name)
    (h : walk.rewrite replace state identifier = .ok tree) :
    ∀ name' ∈ identifierName (some tree), name' = name := by
  cases identifier with
  | obj object =>
    have hstr : field object "name" = some (.str name) := by
      simp only [identifierName, objectOf, Option.bind_some] at hname
      split at hname
      · obtain rfl := Option.some.inj hname
        assumption
      · cases hname
    obtain ⟨entries, rfl, hentries⟩ := rewrite_obj_cases hkeeps h
    have hfield : field entries "name" = none ∨ field entries "name" = some (.str name) := by
      rcases hentries with hnone | hsame | hentries
      · exact Or.inl hnone
      · exact Or.inr (hsame.trans hstr)
      · obtain ⟨value', hvalue, hlookup⟩ := lookup_rewriteEntries hentries hstr
        simp only [Walk.rewrite, Except.ok.injEq] at hvalue
        exact Or.inr (hvalue ▸ hlookup)
    intro name' hname'
    rcases hfield with hfield | hfield
    · simp [identifierName, objectOf, hfield] at hname'
    · simpa [identifierName, objectOf, hfield, eq_comm] using hname'
  | null | bool | int | str | arr => simp [identifierName, objectOf] at hname

/-- A table that is not replaced keeps its name, whatever is replaced inside of it. -/
theorem tableName_rewrite {tree : Json} (hkeeps : KeepsNames replace)
    (hreplace : replace state object = .ok none)
    (htable : objectOf (field object "table") = some table)
    (hname : identifierName (field table "name") = some name)
    (h : walk.rewrite replace state (.obj object) = .ok tree) :
    ∀ name' ∈ tableName tree, name' = name := by
  rw [rewrite_of_none hreplace] at h
  obtain ⟨entries, hentries, rfl⟩ := map_eq_ok.mp h
  obtain ⟨table', htable', hlookup⟩ :=
    lookup_rewriteEntries hentries (objectOf_eq_some.mp htable)
  obtain ⟨identifier, hidentifier⟩ : ∃ identifier, field table "name" = some identifier := by
    cases hfield : field table "name" with
    | none => simp [hfield, identifierName, objectOf] at hname
    | some identifier => exact ⟨identifier, rfl⟩
  obtain ⟨payload, rfl, hpayload⟩ := rewrite_obj_cases hkeeps htable'
  have hsame : tableName (.obj entries) = identifierName (field payload "name") := by
    rw [tableName, objectOf, Option.bind_some, show field entries "table" = _ from hlookup]
    rfl
  rw [hsame]
  rcases hpayload with hnone | hkept | hpayload
  · simp [hnone, identifierName, objectOf]
  · simp [hkept, hname]
  · obtain ⟨identifier', hrewritten, hfield⟩ := lookup_rewriteEntries hpayload hidentifier
    rw [show field payload "name" = _ from hfield]
    exact identifierName_rewrite hkeeps (hidentifier ▸ hname) hrewritten

end

section
variable {state : RewriteState} {scope : Scope} {object table : Object} {fresh : String}

theorem rewrittenObject_of_join (hrole : state.role = .join) (hthis : field object "this" = none) :
    rewrittenObject parseRelationTree rewrites state object =
      .ok (some (.obj (object ++ [("this", .null)]))) := by
  unfold rewrittenObject
  rw [hrole]
  simp [hthis]

theorem not_replaces_of_join (hrole : state.role = .join) :
    ¬ TraversalReplaces rewrites state object := by
  rintro ⟨hrelation, -⟩
  rw [hrole] at hrelation
  cases hrelation

/-- What the traversal makes of an object where all relations are mapped to one name. -/
theorem rewrittenObject_bare (rewrites : List SqlRelationRewrite) (fresh : String)
    (state : RewriteState) (object : Object) :
    rewrittenObject (fun _ => parseBareRelation fresh) rewrites state object = .ok none ∨
      ∃ entries, rewrittenObject (fun _ => parseBareRelation fresh) rewrites state object =
          .ok (some (.obj entries)) ∧
        (field entries "name" = none ∨ field entries "name" = field object "name") := by
  by_cases hreplaces : TraversalReplaces rewrites state object
  · obtain ⟨table, -, hmapped, heq⟩ := @rewrittenObject_of_replaces
      (fun _ => parseBareRelation fresh) _ _ _ hreplaces
    obtain ⟨payload, hpayload, -⟩ := rewrittenTable_bare fresh hmapped
    exact Or.inr ⟨_, heq.trans hpayload, Or.inl rfl⟩
  · by_cases hjoin : state.role = .join ∧ field object "this" = none
    · refine Or.inr ⟨_, rewrittenObject_of_join hjoin.1 hjoin.2, Or.inr ?_⟩
      simp [field, lookup_append, lookup_cons]
    · refine Or.inl (rewrittenObject_of_not_replaces hreplaces fun hrole => ?_)
      exact Option.isSome_iff_ne_none.mpr fun hthis => hjoin ⟨hrole, hthis⟩

theorem keepsNames_rewrittenObject :
    KeepsNames (rewrittenObject (fun _ => parseBareRelation fresh) rewrites) := by
  intro state object replacement h
  rcases rewrittenObject_bare rewrites fresh state object with hnone | ⟨entries, hsome, hname⟩
  · simp [hnone] at h
  · simp only [hsome, Except.ok.injEq, Option.some.injEq] at h
    exact ⟨entries, h.symm, hname⟩

theorem keepsNames_scopedReplacement :
    KeepsNames (scopedReplacement (fun _ => parseBareRelation fresh) rewrites) := by
  intro scope object replacement h
  by_cases hreplaces : ScopeReplaces rewrites scope object
  · obtain ⟨table, -, hmapped, heq⟩ := @scopedReplacement_of_replaces
      (fun _ => parseBareRelation fresh) _ _ _ hreplaces
    obtain ⟨payload, hpayload, -⟩ := rewrittenTable_bare fresh hmapped
    rw [heq, hpayload, Except.ok.injEq, Option.some.injEq] at h
    exact ⟨_, h.symm, Or.inl rfl⟩
  · rw [scopedReplacement_of_not_replaces hreplaces] at h
    cases h

theorem ne_fresh (hfresh : fresh ∉ rewrites.map (·.sourceName)) (hmapped : Mapped rewrites table) :
    ∃ name, identifierName (field table "name") = some name ∧ fresh ≠ name := by
  obtain ⟨name, hname, hrewrite⟩ := hmapped
  obtain ⟨rewrite, hrewrite⟩ := Option.isSome_iff_exists.mp hrewrite
  refine ⟨name, hname, ?_⟩
  rintro rfl
  have hsource := find?_some hrewrite
  simp only [decide_eq_true_eq] at hsource
  exact hfresh (mem_map.mpr ⟨rewrite, mem_of_find?_eq_some hrewrite, hsource.1⟩)

/-- Where only one of two rewritings replaces a table by one of another name, they differ. -/
theorem rewrite_ne_of_replaced {σ τ : Type} {walk : Walk σ} {walk' : Walk τ}
    {replace : σ → Object → Except String (Option Json)}
    {replace' : τ → Object → Except String (Option Json)} {state : σ} {state' : τ}
    (hfresh : fresh ∉ rewrites.map (·.sourceName)) (hmapped : Mapped rewrites table)
    (htable : objectOf (field object "table") = some table) (hkeeps : KeepsNames replace')
    (hreplace : replace state object =
      rewrittenTable (fun _ => parseBareRelation fresh) rewrites [] table)
    (hreplace' : replace' state' object = .ok none) :
    walk.rewrite replace state (.obj object) ≠ walk'.rewrite replace' state' (.obj object) := by
  obtain ⟨payload, hpayload, hname⟩ := rewrittenTable_bare fresh hmapped
  obtain ⟨name, htableName, hne⟩ := ne_fresh hfresh hmapped
  have hrewrite : walk.rewrite replace state (.obj object) =
      .ok (.obj [("table", .obj payload)]) := by
    rw [Walk.rewrite, hreplace, hpayload]
    rfl
  intro hsame
  rw [hrewrite] at hsame
  exact hne (tableName_rewrite hkeeps hreplace' htable htableName hsame.symm fresh hname)

theorem reachedInScope_of_rewrite_eq {place : QueryPlace}
    (hagrees : Agrees state place.1.1 (.obj place.2)) (hfresh : fresh ∉ rewrites.map (·.sourceName))
    (hsame : scopeWalk.rewrite (scopedReplacement (fun _ => parseBareRelation fresh) rewrites)
        place.1.2 (.obj place.2) =
      rewriteWalk.rewrite (rewrittenObject (fun _ => parseBareRelation fresh) rewrites) state
        (.obj place.2)) : ReachedInScope rewrites place := by
  obtain ⟨⟨above, scope⟩, object⟩ := place
  rw [reachedInScope_iff hagrees]
  dsimp only at hsame ⊢
  by_cases hscope : ScopeReplaces rewrites scope object
  · obtain ⟨table, htable, hmapped, heq⟩ := @scopedReplacement_of_replaces
      (fun _ => parseBareRelation fresh) _ _ _ hscope
    have hreplaces : TraversalReplaces rewrites state object := by
      by_contra hreplaces
      by_cases hjoin : state.role = .join ∧ field object "this" = none
      · obtain ⟨payload, hpayload, -⟩ := rewrittenTable_bare fresh hmapped
        rw [Walk.rewrite, heq, hpayload, Walk.rewrite,
          rewrittenObject_of_join hjoin.1 hjoin.2] at hsame
        have hlength := congrArg List.length (Json.obj.inj (Except.ok.inj hsame))
        obtain rfl : object = [] := by simpa using hlength
        cases htable
      · have hnone := @rewrittenObject_of_not_replaces (fun _ => parseBareRelation fresh) _ _ _
          hreplaces fun hrole => Option.isSome_iff_ne_none.mpr fun hthis => hjoin ⟨hrole, hthis⟩
        exact rewrite_ne_of_replaced hfresh hmapped htable keepsNames_rewrittenObject heq hnone
          hsame
    exact ⟨iff_of_true hreplaces hscope, fun hjoin => absurd hreplaces (not_replaces_of_join hjoin)⟩
  · have hnone := @scopedReplacement_of_not_replaces (fun _ => parseBareRelation fresh) _ _ _ hscope
    have hreplaces : ¬ TraversalReplaces rewrites state object := by
      intro hreplaces
      obtain ⟨table, htable, hmapped, heq⟩ := @rewrittenObject_of_replaces
        (fun _ => parseBareRelation fresh) _ _ _ hreplaces
      exact rewrite_ne_of_replaced hfresh hmapped htable keepsNames_scopedReplacement heq hnone
        hsame.symm
    refine ⟨iff_of_false hreplaces hscope,
      fun hjoin => Option.isSome_iff_ne_none.mpr fun hthis => ?_⟩
    -- the entry that is added is one too many
    have hadded : rewriteWalk.rewrite (rewrittenObject (fun _ => parseBareRelation fresh) rewrites)
        state (.obj object) = .ok (.obj (object ++ [("this", .null)])) := by
      rw [Walk.rewrite, rewrittenObject_of_join hjoin hthis]
      rfl
    rw [hadded, rewrite_of_none hnone, map_eq_ok] at hsame
    obtain ⟨entries, hentries, heq⟩ := hsame
    have hlength := length_rewriteEntries hentries
    rw [Json.obj.inj heq, length_append] at hlength
    simp at hlength

end

variable {object : Object} {place : QueryPlace} {state : RewriteState}

section
variable (rewrites) in
/-- What the traversal replaces and SQL scoping asks for is what the two rewritings stop at. -/
theorem stopped_iff {states : RewriteState × Scope}
    (hjoin : states.1.role = .join → (field object "this").isSome = true) :
    Walk.Stopped (rewrittenObject parseRelationTree rewrites)
        (scopedReplacement parseRelationTree rewrites) states object = true ↔
      TraversalReplaces rewrites states.1 object ∨ ScopeReplaces rewrites states.2 object := by
  constructor
  · contrapose!
    rintro ⟨hreplaces, hscope⟩
    simp [Walk.Stopped, rewrittenObject_of_not_replaces hreplaces hjoin,
      scopedReplacement_of_not_replaces hscope]
  · intro hreplaces
    by_contra hstopped
    obtain ⟨hnone, hnone'⟩ := replace_eq_none (Bool.eq_false_of_not_eq_true hstopped)
    rcases hreplaces with hreplaces | hscope
    · obtain ⟨table, -, hmapped, heq⟩ :=
        @rewrittenObject_of_replaces parseRelationTree _ _ _ hreplaces
      exact rewrittenTable_ne_none hmapped (heq.symm.trans hnone)
    · obtain ⟨table, -, hmapped, heq⟩ :=
        @scopedReplacement_of_replaces parseRelationTree _ _ _ hscope
      exact rewrittenTable_ne_none hmapped (heq.symm.trans hnone')

theorem replacedInSlot_iff (hreached : ReachedInScope rewrites place) :
    ReplacedInSlot rewrites place.1 place.2 = true ↔ ScopeReplaces rewrites place.1.2 place.2 := by
  simp only [ReplacedInSlot, decide_eq_true_eq, Option.mem_def]
  refine ⟨And.right, fun hscope => ⟨?_, hscope⟩⟩
  obtain ⟨table, hnode, hmapped, hcte⟩ := hscope
  exact hreached.slot table hnode hmapped hcte

theorem rewrite_eq_of_replaces {scope : Scope} (hreplaces : TraversalReplaces rewrites state object)
    (hscope : ScopeReplaces rewrites scope object) :
    scopeWalk.rewrite (scopedReplacement parseRelationTree rewrites) scope (.obj object) =
      rewriteWalk.rewrite (rewrittenObject parseRelationTree rewrites) state (.obj object) := by
  obtain ⟨table, htable, hmapped, heq⟩ :=
    @rewrittenObject_of_replaces parseRelationTree _ _ _ hreplaces
  obtain ⟨table', htable', -, heq'⟩ := @scopedReplacement_of_replaces parseRelationTree _ _ _ hscope
  obtain rfl := Option.some.inj (htable'.symm.trans htable)
  rw [Walk.rewrite, Walk.rewrite, heq, heq']
  cases hresult : rewrittenTable parseRelationTree rewrites [] table' with
  | error error => rfl
  | ok replacement =>
    cases replacement with
    | some replacement => rfl
    | none => exact absurd hresult (rewrittenTable_ne_none hmapped)

theorem reachedInScope_of_not_stopped (hagrees : Agrees state place.1.1 (.obj place.2))
    (hstopped : ¬ Walk.Stopped (rewrittenObject parseRelationTree rewrites)
      (scopedReplacement parseRelationTree rewrites) (state, place.1.2) place.2 = true) :
    ReachedInScope rewrites place := by
  have hjoin : state.role = .join → (field place.2 "this").isSome = true := by
    refine fun hjoin => Option.isSome_iff_ne_none.mpr fun hthis => hstopped ?_
    simp [Walk.Stopped, rewrittenObject_of_join hjoin hthis]
  rw [stopped_iff rewrites hjoin, not_or] at hstopped
  exact (reachedInScope_iff hagrees).mpr ⟨iff_of_false hstopped.1 hstopped.2, hjoin⟩

/-- The traversal, the slots and the scopes, side by side. -/
def rewriteTriple : Walk ((RewriteState × (RewriteRole × Scope)) × Scope) :=
  (rewriteWalk.prod selectWalk).prod scopeWalk

theorem projects_query : Projects rewriteTriple (selectWalk.prod scopeWalk)
    fun states => (states.1.2, states.2) :=
  ⟨fun _ _ _ _ => rfl, fun _ _ _ => rfl⟩

theorem projects_compared : Projects rewriteTriple (rewriteWalk.prod scopeWalk)
    fun states => (states.1.1, states.2) :=
  ⟨fun _ _ _ _ => rfl, fun _ _ _ => rfl⟩

abbrev tripleStart : (RewriteState × (RewriteRole × Scope)) × Scope :=
  ((⟨.node, []⟩, .node, .outermost), .outermost)

theorem keeps_agrees : rewriteTriple.Keeps fun states tree =>
    DistinctKeys tree ∧ Agrees states.1.1 states.1.2 tree where
  entry states object key value hmem := by
    rintro ⟨hkeys, hagrees⟩
    obtain ⟨hnodup, hvalues⟩ := distinctKeys_obj.mp hkeys
    exact ⟨hvalues _ hmem, agrees_entry (field_of_mem hnodup hmem) hagrees⟩
  item states items before item hitems := by
    rintro ⟨hkeys, hagrees⟩
    exact ⟨distinctKeys_arr.mp hkeys item (hitems.subset (by simp)), agrees_item hitems hagrees⟩

theorem agrees_of_mem_places (hkeys : DistinctKeys tree)
    {stop : (RewriteState × (RewriteRole × Scope)) × Scope → Object → Bool}
    {place : ((RewriteState × (RewriteRole × Scope)) × Scope) × Object}
    (hplace : place ∈ rewriteTriple.places stop tripleStart tree) :
    Agrees place.1.1.1 place.1.1.2 (.obj place.2) := by
  have hstart : Agrees ⟨.node, []⟩ (.node, .outermost) tree :=
    .node (fun _ => Iff.rfl) rfl (Or.inr rfl)
  exact (forall_places keeps_agrees tree ⟨hkeys, hstart⟩ place hplace).2

end

/-- A rewriting replaces every mapped relation, whatever the relations are mapped to, just when each
mapped table node that names no CTE in scope stands in a relation slot, a table in such a slot names
a CTE just when it names one of a SELECT, and there is nothing else in the slots. -/
theorem rewritesEveryRelation_iff (hkeys : DistinctKeys tree)
    (hselect : ((objectOf (some tree)).bind fun object =>
      objectOf (field object "select")).isSome = true) :
    (∀ parseRelationTree, RewritesEveryRelation parseRelationTree rewrites tree) ↔
      ∀ place ∈ queryPlaces rewrites tree, ReachedInScope rewrites place := by
  -- the places of the condition and those of the comparison are seen from one walk
  have hquery : queryPlaces rewrites tree = _ := (map_places projects_query tree tripleStart).symm
  have hcompared : ∀ parseRelationTree, ((rewriteWalk.prod scopeWalk).places
      (Walk.Stopped (rewrittenObject parseRelationTree rewrites)
        (scopedReplacement parseRelationTree rewrites)) (⟨.node, []⟩, .outermost) tree) = _ :=
    fun _ => (map_places projects_compared tree tripleStart).symm
  have hagrees := @agrees_of_mem_places tree hkeys
  rw [hquery, forall_mem_map]
  constructor
  · intro hevery
    obtain ⟨fresh, hfresh⟩ := Infinite.exists_notMem_finset (rewrites.map (·.sourceName)).toFinset
    rw [mem_toFinset] at hfresh
    obtain ⟨tree', htree⟩ := @exists_rewrite _ _ rewriteWalk _ (fun state object => by
      rcases rewrittenObject_bare rewrites fresh state object with hnone | ⟨entries, hsome, -⟩
      · exact ⟨_, hnone⟩
      · exact ⟨_, hsome⟩) tree ⟨.node, []⟩
    have hplaces := (rewrite_eq_ok_iff tree _ Scope.outermost htree).mp
      (hevery _ tree' (rewriteQueryTree_eq_ok.mpr ⟨hselect, htree⟩))
    rw [hcompared, forall_mem_map] at hplaces
    have hreached : ∀ place ∈ rewriteTriple.places (fun states => Walk.Stopped
        (rewrittenObject (fun _ => parseBareRelation fresh) rewrites)
        (scopedReplacement (fun _ => parseBareRelation fresh) rewrites) (states.1.1, states.2))
        tripleStart tree, ReachedInScope rewrites ((place.1.1.2, place.1.2), place.2) := by
      intro place hplace
      by_cases hstopped : Walk.Stopped (rewrittenObject (fun _ => parseBareRelation fresh) rewrites)
          (scopedReplacement (fun _ => parseBareRelation fresh) rewrites)
          (place.1.1.1, place.1.2) place.2 = true
      · exact reachedInScope_of_rewrite_eq (hagrees hplace) hfresh (hplaces place hplace hstopped)
      · exact reachedInScope_of_not_stopped (hagrees hplace) hstopped
    intro place hplace
    refine hreached place (places_subset tree _ (fun place hplace hstopped => ?_) hplace)
    obtain ⟨hreplaces, hjoin⟩ := (reachedInScope_iff (hagrees hplace)).mp (hreached place hplace)
    rw [stopped_iff rewrites hjoin] at hstopped
    exact (replacedInSlot_iff (hreached place hplace)).mpr (hstopped.elim hreplaces.mp id)
  · intro hreached parseRelationTree tree' hrewritten
    refine (rewrite_eq_ok_iff tree _ Scope.outermost
      (rewriteQueryTree_eq_ok.mp hrewritten).2).mpr ?_
    rw [hcompared, forall_mem_map]
    intro place hplace hstopped
    have hplace' := places_subset tree _ (fun place hplace hreplaced => by
      obtain ⟨hreplaces, hjoin⟩ := (reachedInScope_iff (hagrees hplace)).mp (hreached place hplace)
      exact (stopped_iff rewrites hjoin).mpr
        (Or.inr ((replacedInSlot_iff (hreached place hplace)).mp hreplaced))) hplace
    obtain ⟨hreplaces, hjoin⟩ := (reachedInScope_iff (hagrees hplace)).mp (hreached place hplace')
    rw [stopped_iff rewrites hjoin, hreplaces, or_self] at hstopped
    exact rewrite_eq_of_replaces (hreplaces.mpr hstopped) hstopped

def shadowOrders : SqlRelationRewrite := ⟨"orders", "orders__shadow", none, false⟩

/-- `SELECT … FROM users JOIN users ON EXISTS (SELECT … FROM relation)`. -/
def joinOnTree (relation : String) : Json :=
  selectTree [] [tableTree .null "users"]
    [("joins", .arr [.obj [("this", tableTree .null "users"),
      ("on", .obj [("exists", .obj [("this", selectTree [] [tableTree .null relation] [])])])]])]

/-- `SELECT … FROM relation WHERE EXISTS (SELECT … FROM relation)`. -/
def whereTree (relation : String) : Json :=
  selectTree [] [tableTree .null relation]
    [("where_clause", .obj [("this", .obj [("exists", .obj [("this",
      selectTree [] [tableTree .null relation] [])])])])]

/-- The condition of a join is not gone into. -/
theorem not_rewritesEveryRelation :
    ¬ RewritesEveryRelation parseBareRelation [shadowOrders] (joinOnTree "orders") := by
  intro h
  have hleft := h (joinOnTree "orders") rfl
  have hscoped : scopeWalk.rewrite (scopedReplacement parseBareRelation [shadowOrders])
      .outermost (joinOnTree "orders") = .ok (joinOnTree "orders__shadow") := rfl
  rw [hscoped] at hleft
  simp [joinOnTree, selectTree, tableTree, identifierTree] at hleft

/-- Whatever `orders` is mapped to, the subquery of a WHERE clause is rewritten with the rest, and
the one in the condition of a join is not. -/
theorem rewritesEveryRelation_iff_where :
    (∀ parseRelationTree,
      RewritesEveryRelation parseRelationTree [shadowOrders] (whereTree "orders")) ∧
    ¬ ∀ parseRelationTree,
      RewritesEveryRelation parseRelationTree [shadowOrders] (joinOnTree "orders") := by
  have hwhere : DistinctKeys (whereTree "orders") := by unfold DistinctKeys; decide
  have hjoin : DistinctKeys (joinOnTree "orders") := by unfold DistinctKeys; decide
  exact ⟨(rewritesEveryRelation_iff hwhere (by decide)).mpr (by decide),
    (rewritesEveryRelation_iff hjoin (by decide)).not.mpr (by decide)⟩

end SqlTide.SqlAnalysis
