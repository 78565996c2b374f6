import SqlTide.SqlAnalysis.TreeFacts

/-!
# The guard against raw relations

SQL scoping says which table nodes are references of CTEs. The traversals of the compiler keep the
names of all WITH clauses above a node instead, and look at the name of a table node only, so a
physical relation can hide behind a CTE.
-/

namespace SqlTide.SqlAnalysis

open Foundations List Walk

def relationName (table : Object) : Option String := identifierName (field table "name")

/-- The table node has no database and the name of one of these CTEs. -/
def CteReference (ctes : List String) (table : Object) : Prop :=
  field table "schema" = some .null ∧ ∃ name ∈ relationName table, name ∈ ctes

instance (ctes : List String) (table : Object) : Decidable (CteReference ctes table) :=
  instDecidableAnd

def IsTable {σ : Type*} (_ : σ) (node : Object) : Bool := (tableNode node).isSome

/-- A walk that never stops. -/
def Everywhere {σ : Type*} (_ : σ) (_ : Object) : Bool := false

/-- The names that the traversals pass down. -/
def visibleWalk : Walk (List String) where
  entry visible _ _ value := childCtes visible value
  item visible _ _ := visible

/-- Whether a place is inside a table node. -/
def insideWalk : Walk Bool where
  entry inside object _ _ := inside || IsTable inside object
  item inside _ _ := inside

/-- The table nodes of a tree with their scopes. -/
def scopedTables (tree : Json) : List (List String × Object) :=
  (scopeWalk.places Everywhere .outermost tree).filterMap fun place =>
    (tableNode place.2).map (place.1.visible, ·)

/-- The table nodes inside other table nodes. -/
def innerTables (tree : Json) : List (List String × Object) :=
  ((scopeWalk.prod insideWalk).places Everywhere (.outermost, false) tree).filterMap fun place =>
    if place.1.2 then (tableNode place.2).map (place.1.1.visible, ·) else none

/-- A table node gets the database when SQL scoping finds no CTE for it. -/
def scopedTable (database : String) (scope : Scope) (node : Object) :
    Except String (Option Json) :=
  .ok <| (tableNode node).map fun table =>
    if field table "schema" = some .null ∧ ¬ CteReference scope.visible table then
      .obj (insertField node "table"
        (.obj (insertField table "schema" (databaseIdentifier database))))
    else .obj node

/-- The guard reports a relation unless all table nodes are references of CTEs in scope, and all
unqualified table nodes but these references are qualified. -/
def GuardExact (aggregateKeyName : String → Json → Option String) (database : String)
    (tree : Json) : Prop :=
  ((collectTreeFacts aggregateKeyName tree).rawRelation = none ↔
    ∀ table ∈ scopedTables tree, CteReference table.1 table.2) ∧
  scopeWalk.rewrite (scopedTable database) .outermost tree =
    .ok (qualifyRelations database [] tree) ∧
  ∀ table ∈ innerTables tree, field table.2 "schema" = some .null → CteReference table.1 table.2

theorem childCtes_eq (visible : List String) (payload : Json) :
    childCtes visible payload = visible ++ declaredNames payload := by
  cases payload with
  | obj object =>
    by_cases hdeclared : cteNames (selectCtes object) = []
    · simp [childCtes, objectOf, withCtes, declaredNames, hdeclared]
    · simp [childCtes, objectOf, withCtes, declaredNames, hdeclared]
  | _ => simp [childCtes, objectOf, declaredNames]

/-- The name of a table node is declared above it. -/
def NameDeclared (place : List String × Object) : Prop :=
  ∀ table, tableNode place.2 = some table → ∀ name ∈ relationName table, name ∈ place.1

variable {aggregateKeyName : String → Json → Option String}

theorem recordRawRelation_eq_none {visible : List String} {facts : TreeFacts} {table : Object} :
    (recordRawRelation visible facts table).rawRelation = none ↔
      facts.rawRelation = none ∧ ∀ name ∈ relationName table, name ∈ visible := by
  unfold recordRawRelation
  cases hname : identifierName (field table "name") with
  | none => simp [relationName, hname]
  | some name =>
    dsimp only
    split_ifs with hraw
    · simp [relationName, hname, hraw.1]
    · rw [not_and_or, not_not] at hraw
      simp only [relationName, hname, Option.mem_def, Option.some.injEq, forall_eq']
      constructor
      · exact fun hnone => ⟨hnone, hraw.resolve_right (not_not.mpr hnone)⟩
      · exact fun h => h.1

theorem rawRelation_recordGroupBy (facts : TreeFacts) (entries : Object) :
    (recordGroupBy facts entries).rawRelation = facts.rawRelation := by
  unfold recordGroupBy
  split <;> rfl

theorem rawRelation_recordFunctionName (facts : TreeFacts) (key : String) (payload : Json) :
    (recordFunctionName aggregateKeyName facts key payload).rawRelation = facts.rawRelation := by
  unfold recordFunctionName
  split
  · split_ifs <;> rfl
  · rfl

mutual

/-- A scan reports nothing when the name of every table node it comes to is declared above it. -/
theorem rawRelation_scan : ∀ (tree : Json) (path : Path) (visible : List String)
    (facts : TreeFacts),
    (scan aggregateKeyName path visible facts tree).rawRelation = none ↔
      facts.rawRelation = none ∧
        ∀ place ∈ visibleWalk.places IsTable visible tree, NameDeclared place
  | .obj entries, path, visible, facts => by
    rw [scan, places, forall_mem_cons]
    cases htable : tableNode entries with
    | some table =>
      simp [recordRawRelation_eq_none, IsTable, htable, NameDeclared]
    | none =>
      have hopen : IsTable visible entries = false := by simp [IsTable, htable]
      rw [hopen, if_neg Bool.false_ne_true]
      change (scanEntries aggregateKeyName path visible (recordGroupBy facts entries)
        entries).rawRelation = none ↔ _
      rw [rawRelation_scanEntries entries path visible entries, rawRelation_recordGroupBy]
      simp [NameDeclared, htable]
  | .arr items, path, visible, facts => by
    rw [scan, places]
    exact rawRelation_scanItems items path visible facts 0 []
  | .null, _, _, _ | .bool _, _, _, _ | .int _, _, _, _ | .str _, _, _, _ => by
    simp [scan, places]

theorem rawRelation_scanItems : ∀ (items : List Json) (path : Path) (visible : List String)
    (facts : TreeFacts) (index : ℕ) (before : List Json),
    (scanItems aggregateKeyName path visible facts index items).rawRelation = none ↔
      facts.rawRelation = none ∧
        ∀ place ∈ visibleWalk.itemPlaces IsTable visible before items, NameDeclared place
  | [], _, _, _, _, _ => by
    simp [scanItems, itemPlaces]
  | item :: items, path, visible, facts, index, before => by
    rw [scanItems, itemPlaces, forall_mem_append, rawRelation_scanItems items path visible _ _
      (before ++ [item]), rawRelation_scan item, and_assoc]
    rfl

theorem rawRelation_scanEntries : ∀ (entries : Object) (path : Path) (visible : List String)
    (object : Object) (facts : TreeFacts),
    (scanEntries aggregateKeyName path visible facts entries).rawRelation = none ↔
      facts.rawRelation = none ∧
        ∀ place ∈ visibleWalk.entryPlaces IsTable visible object entries, NameDeclared place
  | [], _, _, _, _ => by
    simp [scanEntries, entryPlaces]
  | (key, value) :: entries, path, visible, object, facts => by
    rw [scanEntries, entryPlaces, forall_mem_append, rawRelation_scanEntries entries path
      visible object, rawRelation_scan value, rawRelation_recordFunctionName, and_assoc]
    rfl

end

/-- The name of some table node is declared by no WITH clause above it, or else every table node is
the reference of a CTE in scope. -/
def NothingHidden (tree : Json) : Prop :=
  (∀ place ∈ visibleWalk.places IsTable [] tree, NameDeclared place) →
    ∀ table ∈ scopedTables tree, CteReference table.1 table.2

/-- An unqualified table node has a name, which is in scope where a WITH clause above declares it;
inside another table node it is always in scope. -/
def NothingConfused (tree : Json) : Prop :=
  (∀ place ∈ (visibleWalk.prod scopeWalk).places IsTable ([], .outermost) tree, ∀ table,
    tableNode place.2 = some table → field table "schema" = some .null →
      ∃ name ∈ relationName table, name ∈ place.1.1 → name ∈ place.1.2.visible) ∧
  ∀ table ∈ innerTables tree, field table.2 "schema" = some .null → CteReference table.1 table.2

/-- The names that a place's scope can have are among those passed down. -/
def Scope.Within (visible : List String) : Scope → Prop
  | .node scope names => scope ⊆ visible ∧ names ⊆ visible
  | .clause scope names _ => scope ⊆ visible ∧ names ⊆ visible
  | .ctes scope names _ => scope ⊆ visible ∧ names ⊆ visible

variable {visible : List String} {scope : Scope} {tree : Json} {table node : Object}

theorem Scope.Within.visible_subset (h : scope.Within visible) : scope.visible ⊆ visible := by
  cases scope with
  | node scope names => exact append_subset.mpr h
  | clause scope names recursive => exact h.1
  | ctes scope names recursive => exact h.1

theorem within_entry (h : scope.Within visible) (object : Object) (key : String) (value : Json) :
    (scopeWalk.entry scope object key value).Within
    (visibleWalk.entry visible object key value) := by
  have hkept : visible ⊆ visible ++ declaredNames value := subset_append_left _ _
  have hdeclared : declaredNames value ⊆ visible ++ declaredNames value := subset_append_right _ _
  cases scope with
  | node scope names =>
    obtain ⟨hscope, hnames⟩ := h
    simp only [scopeWalk, visibleWalk, childCtes_eq]
    split_ifs
    · exact ⟨List.Subset.trans hscope hkept, List.Subset.trans hnames hkept⟩
    · exact ⟨append_subset.mpr ⟨List.Subset.trans hscope hkept,
        List.Subset.trans hnames hkept⟩, hdeclared⟩
  | clause scope names recursive =>
    obtain ⟨hscope, hnames⟩ := h
    simp only [scopeWalk, visibleWalk, childCtes_eq]
    split_ifs
    · exact ⟨List.Subset.trans hscope hkept, List.Subset.trans hnames hkept⟩
    · exact ⟨List.Subset.trans hscope hkept, hdeclared⟩
  | ctes scope names recursive =>
    simp only [scopeWalk, visibleWalk, childCtes_eq]
    exact ⟨List.Subset.trans h.1 hkept, hdeclared⟩

theorem within_item (h : scope.Within visible) (before : List Json) (item : Json) :
    (scopeWalk.item scope before item).Within (visibleWalk.item visible before item) := by
  have hnone : ([] : List String) ⊆ visible := nil_subset _
  cases scope with
  | node scope names => exact ⟨append_subset.mpr h, hnone⟩
  | clause scope names recursive => exact ⟨h.1, hnone⟩
  | ctes scope names recursive =>
    refine ⟨append_subset.mpr ⟨h.1, ?_⟩, hnone⟩
    split_ifs
    · exact h.2
    · exact List.Subset.trans (take_subset _ _) h.2

theorem keeps_within :
    (visibleWalk.prod scopeWalk).Keeps fun states _ => states.2.Within states.1 where
  entry _ object key value _ h := within_entry h object key value
  item _ _ before item _ h := within_item h before item

theorem within_of_mem_places {stop : List String × Scope → Object → Bool}
    {place : (List String × Scope) × Object}
    (hplace : place ∈ (visibleWalk.prod scopeWalk).places stop ([], .outermost) tree) :
    place.1.2.Within place.1.1 := by
  have hstart : Scope.outermost.Within [] := ⟨nil_subset _, nil_subset _⟩
  exact forall_places keeps_within tree hstart place hplace

theorem mem_scopedTables {ctes : List String} :
    (ctes, table) ∈ scopedTables tree ↔
      ∃ place ∈ scopeWalk.places Everywhere .outermost tree,
        tableNode place.2 = some table ∧ place.1.visible = ctes := by
  simp only [scopedTables, mem_filterMap, Option.map_eq_some_iff, Prod.mk.injEq]
  constructor
  · rintro ⟨place, hplace, _, htable, rfl, rfl⟩
    exact ⟨place, hplace, htable, rfl⟩
  · rintro ⟨place, hplace, htable, rfl⟩
    exact ⟨place, hplace, table, htable, rfl, rfl⟩

/-- The guard reports nothing that is a reference of a CTE in scope. -/
theorem nameDeclared_of_cteReferences
    (h : ∀ table ∈ scopedTables tree, CteReference table.1 table.2) :
    ∀ place ∈ visibleWalk.places IsTable [] tree, NameDeclared place := by
  intro place hplace table htable name hname
  rw [show visibleWalk.places IsTable [] tree = _ from
    (map_places (projects_fst visibleWalk scopeWalk) tree
    ([], .outermost)).symm] at hplace
  obtain ⟨⟨⟨visible, scope⟩, object⟩, hboth, rfl⟩ := mem_map.mp hplace
  have houter : (scope, object) ∈ scopeWalk.places IsTable .outermost tree := by
    rw [show scopeWalk.places IsTable .outermost tree = _ from
      (map_places (projects_snd visibleWalk scopeWalk) tree ([], .outermost)).symm]
    exact mem_map.mpr ⟨_, hboth, rfl⟩
  have hscoped : (scope, object) ∈ scopeWalk.places Everywhere .outermost tree :=
    places_subset tree _ (fun _ _ h => absurd h Bool.false_ne_true) houter
  obtain ⟨-, name', hname', hvisible⟩ := h _ (mem_scopedTables.mpr ⟨_, hscoped, htable, rfl⟩)
  obtain rfl : name' = name := Option.some.inj (hname'.symm.trans hname)
  exact (within_of_mem_places hboth).visible_subset hvisible

theorem tableNode_eq_some (h : tableNode node = some table) :
    field node "table" = some (.obj table) := by
  have hobject : objectOf (field node "table") = some table := (Option.filter_eq_some_iff.mp h).1
  cases hfield : field node "table" with
  | none => simp [hfield, objectOf] at hobject
  | some value =>
    rw [hfield] at hobject
    cases value <;> simp_all [objectOf]

theorem qualified_ne (htable : tableNode node = some table)
    (hschema : field table "schema" = some .null) (database : String) :
    insertField node "table"
      (.obj (insertField table "schema" (databaseIdentifier database))) ≠ node := by
  intro hsame
  have hfield := field_insertField node "table"
    (.obj (insertField table "schema" (databaseIdentifier database)))
  rw [hsame, tableNode_eq_some htable] at hfield
  have hinner := field_insertField table "schema" (databaseIdentifier database)
  rw [← Json.obj.inj (Option.some.inj hfield), hschema] at hinner
  simp [databaseIdentifier] at hinner

def visibleTable (database : String) (visible : List String) (node : Object) :
    Except String (Option Json) :=
  .ok ((tableNode node).map fun table => .obj (qualifiedTable database visible node table))

mutual

/-- `qualify_relations` rewrites along the names that it passes down. -/
theorem rewrite_visibleTable : ∀ (tree : Json) (database : String) (visible : List String),
    visibleWalk.rewrite (visibleTable database) visible tree =
      .ok (qualifyRelations database visible tree)
  | .obj entries, database, visible => by
    rw [rewrite, qualifyRelations, visibleTable]
    cases htable : tableNode entries with
    | some table => rfl
    | none =>
      dsimp only [Option.map_none, bind, Except.bind]
      rw [rewriteEntries_visibleTable entries database visible entries]
      rfl
  | .arr items, database, visible => by
    rw [rewrite, qualifyRelations, rewriteItems_visibleTable items database visible []]
    rfl
  | .null, _, _ | .bool _, _, _ | .int _, _, _ | .str _, _, _ => by
    simp [rewrite, qualifyRelations]

theorem rewriteEntries_visibleTable : ∀ (entries : Object) (database : String)
    (visible : List String) (object : Object),
    visibleWalk.rewriteEntries (visibleTable database) visible object entries =
      .ok (qualifyEntries database visible entries)
  | [], _, _, _ => by
    simp [rewriteEntries, qualifyEntries]
  | (key, value) :: entries, database, visible, object => by
    rw [rewriteEntries, qualifyEntries,
      rewriteEntries_visibleTable entries database visible object,
      show visibleWalk.entry visible object key value = childCtes visible value from rfl,
      rewrite_visibleTable value]
    rfl

theorem rewriteItems_visibleTable : ∀ (items : List Json) (database : String)
    (visible : List String) (before : List Json),
    visibleWalk.rewriteItems (visibleTable database) visible before items =
      .ok (qualifyItems database visible items)
  | [], _, _, _ => by
    simp [rewriteItems, qualifyItems]
  | item :: items, database, visible, before => by
    rw [rewriteItems, qualifyItems, rewriteItems_visibleTable items database visible,
      show visibleWalk.item visible before item = visible from rfl, rewrite_visibleTable item]
    rfl

end

theorem stopped_eq_isTable (database : String) :
    Walk.Stopped (visibleTable database) (scopedTable database) = IsTable := by
  funext states node
  unfold Walk.Stopped visibleTable scopedTable IsTable
  cases tableNode node <;> rfl

/-- At one table node the names passed down do as the scope does, unless a name is declared above
and not in scope, or there is no name. -/
theorem rewrite_table_eq_iff {database : String}
    (htable : tableNode node = some table) (hwithin : scope.Within visible) :
    scopeWalk.rewrite (scopedTable database) scope (.obj node) =
        visibleWalk.rewrite (visibleTable database) visible (.obj node) ↔
      (field table "schema" = some .null →
        ∃ name ∈ relationName table, name ∈ visible → name ∈ scope.visible) := by
  have hleft : scopeWalk.rewrite (scopedTable database) scope (.obj node) =
      .ok (if field table "schema" = some .null ∧ ¬ CteReference scope.visible table then
        .obj (insertField node "table"
          (.obj (insertField table "schema" (databaseIdentifier database))))
      else .obj node) := by
    rw [rewrite, scopedTable, htable]
    rfl
  have hright : visibleWalk.rewrite (visibleTable database) visible (.obj node) =
      .ok (.obj (qualifiedTable database visible node table)) := by
    rw [rewrite, visibleTable, htable]
    rfl
  rw [hleft, hright, Except.ok.injEq, qualifiedTable]
  by_cases hschema : field table "schema" = some .null
  · have hne := qualified_ne htable hschema database
    have hsubset := hwithin.visible_subset
    simp only [hschema, true_and, forall_const, CteReference, Unqualified, and_true]
    cases hname : relationName table with
    | none =>
      have hnone : identifierName (field table "name") = none := hname
      simp [hnone, hne]
    | some name =>
      have hsome : identifierName (field table "name") = some name := hname
      simp only [hsome, Option.mem_def, Option.some.injEq, exists_eq_left']
      by_cases hvisible : name ∈ visible
      · by_cases hscope : name ∈ scope.visible
        · simp [hvisible, hscope]
        · simp [hvisible, hscope, hne]
      · have hscope : name ∉ scope.visible := fun h => hvisible (hsubset h)
        simp [hvisible, hscope]
  · simp [hschema, Unqualified]

theorem scopeWalk_rewrite_iff {database : String} :
    scopeWalk.rewrite (scopedTable database) .outermost tree =
        .ok (qualifyRelations database [] tree) ↔
      ∀ place ∈ (visibleWalk.prod scopeWalk).places IsTable ([], .outermost) tree, ∀ table,
        tableNode place.2 = some table → field table "schema" = some .null →
          ∃ name ∈ relationName table, name ∈ place.1.1 → name ∈ place.1.2.visible := by
  have hplaces : scopeWalk.rewrite (scopedTable database) .outermost tree = .ok _ ↔ _ :=
    rewrite_eq_ok_iff tree [] Scope.outermost (rewrite_visibleTable tree database [])
  simp only [hplaces, AgreeAt, stopped_eq_isTable]
  constructor
  · intro h place hplace table htable
    exact (rewrite_table_eq_iff htable (within_of_mem_places hplace)).mp
      (h place hplace (by simp [IsTable, htable]))
  · intro h place hplace hstopped
    obtain ⟨table, htable⟩ := Option.isSome_iff_exists.mp hstopped
    exact (rewrite_table_eq_iff htable (within_of_mem_places hplace)).mpr
      (h place hplace table htable)

/-- The guard is exact just on the trees where nothing hides and nothing is confused. -/
theorem guardExact_iff (aggregateKeyName : String → Json → Option String) (database : String)
    (tree : Json) :
    GuardExact aggregateKeyName database tree ↔ NothingHidden tree ∧ NothingConfused tree := by
  have hraw : (collectTreeFacts aggregateKeyName tree).rawRelation = none ↔
      ∀ place ∈ visibleWalk.places IsTable [] tree, NameDeclared place := by
    rw [collectTreeFacts, rawRelation_scan]
    exact and_iff_right rfl
  rw [GuardExact, hraw, scopeWalk_rewrite_iff]
  refine and_congr ?_ Iff.rfl
  constructor
  · exact fun h => h.mp
  · exact fun h => ⟨h, nameDeclared_of_cteReferences⟩

/-- `WITH orders AS (SELECT … FROM prod.orders) SELECT … FROM orders`: the CTE has the name of the
raw relation that it reads. -/
theorem not_guardExact :
    ¬ GuardExact (fun _ _ => none) "db"
      (selectTree [cteTree "orders" (selectTree [] [tableTree (identifierTree "prod") "orders"] [])]
        [tableTree .null "orders"] []) := by
  intro h
  have hnone : (collectTreeFacts (fun _ _ => none) (selectTree
      [cteTree "orders" (selectTree [] [tableTree (identifierTree "prod") "orders"] [])]
      [tableTree .null "orders"] [])).rawRelation = none := by decide
  exact absurd (h.1.mp hnone) (by decide)

end SqlTide.SqlAnalysis
