import SqlTide.SqlAnalysis.ReferenceCalls

/-!
# Reference identities of the passes

The slots that the traversal of a tree records are the positions of its reference calls, where no
table node has any. So the resolution of a model and the rewriting of a query find the same
identities, and accept the same references of the authored text.
-/

namespace SqlTide.SqlAnalysis

open Foundations List SqlText

variable {aggregateKeyName : String → Json → Option String} {visible : List String}
  {facts : TreeFacts} {path : Path} {resolver : String → Option String}
  {parseRelation : String → AnalysisResult Json} {tree : Json}

/-- There are no calls in the table nodes of a tree. -/
def BareTables (tree : Json) : Prop :=
  ∀ node ∈ objects tree, (tableNode node).isSome → calls (.obj node) = []

/-- The call at a slot. -/
def callAt (tree : Json) (slot : Path) : Option Object :=
  relationCall ((nodeAt tree slot).getD .null)

/-- These slots below a path are recorded, and they have the calls. -/
def SlotsFound (path : Path) (facts facts' : TreeFacts) (tree : Json)
    (found : List Object) : Prop :=
  ∃ slots : List Path, facts'.referenceSlots = facts.referenceSlots ++ slots.map (path ++ ·) ∧
    (slots.filterMap (callAt tree)).Perm found

variable {entries : Object} {facts' : TreeFacts} {found : List Object}

theorem callAt_key {key : String} {value : Json} (h : field entries key = some value)
    (slot : Path) : callAt (.obj entries) (.key key :: slot) = callAt value slot := by
  simp [callAt, nodeAt, stepInto, objectOf, h]

variable {items : List Json} {indexed : Json × ℕ} {found' : List Object}

theorem callAt_index {index : ℕ} {item : Json} (h : items[index]? = some item)
    (slot : Path) : callAt (.arr items) (.index index :: slot) = callAt item slot := by
  simp [callAt, nodeAt, stepInto, arrayOf, h]

theorem callAt_from (h : indexed ∈ (fromExpressions entries).zipIdx) :
    callAt (.obj entries) [.key "from", .key "expressions", .index indexed.2] =
      relationCall indexed.1 := by
  have hget := mem_zipIdx_iff_getElem?.mp h
  unfold fromExpressions at hget
  cases hpayload : objectOf (field entries "from") with
  | none => simp [hpayload] at hget
  | some payload =>
    rw [hpayload] at hget
    cases hexpressions : arrayOf (field payload "expressions") with
    | none => simp [hexpressions] at hget
    | some expressions =>
      simp only [Option.bind_some, hexpressions, Option.getD_some] at hget
      rw [callAt_key (objectOf_eq_some.mp hpayload), callAt_key (arrayOf_eq_some.mp hexpressions),
        callAt_index hget]
      rfl

theorem callAt_join (h : indexed ∈ (joinsOf entries).zipIdx) :
    ((objectOf (some indexed.1)).bind fun _ =>
      callAt (.obj entries) [.key "joins", .index indexed.2, .key "this"]) =
      (joinExpression indexed.1).bind relationCall := by
  have hget := mem_zipIdx_iff_getElem?.mp h
  unfold joinsOf at hget
  cases hjoins : arrayOf (field entries "joins") with
  | none => simp [hjoins] at hget
  | some joins =>
    simp only [hjoins, Option.getD_some] at hget
    rw [callAt_key (arrayOf_eq_some.mp hjoins), callAt_index hget, joinExpression]
    cases hjoin : indexed.1 with
    | obj join => simp [callAt, nodeAt, stepInto, objectOf]
    | _ => rfl

theorem recordReferenceSlots_found (entries : Object) (path : Path) (facts : TreeFacts) :
    SlotsFound path facts (recordReferenceSlots entries path facts) (.obj entries)
      (ownCalls entries) := by
  let slotsFrom : List Path := (fromExpressions entries).zipIdx.map fun indexed =>
    [.key "from", .key "expressions", .index indexed.2]
  let slotsJoins : List Path := (joinsOf entries).zipIdx.filterMap fun indexed =>
    (objectOf (some indexed.1)).map fun _ => [.key "joins", .index indexed.2, .key "this"]
  have hfrom : slotsFrom.filterMap (callAt (.obj entries)) =
      (fromExpressions entries).filterMap relationCall := by
    calc slotsFrom.filterMap (callAt (.obj entries))
        = (fromExpressions entries).zipIdx.filterMap (relationCall ∘ Prod.fst) := by
          rw [filterMap_map]
          exact filterMap_congr fun indexed h => callAt_from h
      _ = (fromExpressions entries).filterMap relationCall := by
          rw [← filterMap_map, zipIdx_map_fst]
  have hjoins : slotsJoins.filterMap (callAt (.obj entries)) =
      ((joinsOf entries).filterMap joinExpression).filterMap relationCall := by
    calc slotsJoins.filterMap (callAt (.obj entries))
        = (joinsOf entries).zipIdx.filterMap
            ((fun join => (joinExpression join).bind relationCall) ∘ Prod.fst) := by
          rw [filterMap_filterMap]
          refine filterMap_congr fun indexed h => ?_
          rw [Option.bind_map]
          exact callAt_join h
      _ = ((joinsOf entries).filterMap joinExpression).filterMap relationCall := by
          rw [← filterMap_map, zipIdx_map_fst, filterMap_filterMap]
  refine ⟨slotsFrom ++ slotsJoins, ?_, ?_⟩
  · simp only [recordReferenceSlots, slotsFrom, slotsJoins, map_append, map_map,
      map_filterMap, Option.map_map, append_assoc]
    rfl
  · rw [filterMap_append, hfrom, hjoins, ownCalls, slotExpressions, filterMap_append]

theorem SlotsFound.trans {facts'' : TreeFacts} (h : SlotsFound path facts facts' tree found)
    (h' : SlotsFound path facts' facts'' tree found') :
    SlotsFound path facts facts'' tree (found ++ found') := by
  obtain ⟨slots, hslots, hcalls⟩ := h
  obtain ⟨slots', hslots', hcalls'⟩ := h'
  refine ⟨slots ++ slots', ?_, ?_⟩
  · rw [hslots', hslots, map_append, append_assoc]
  · rw [filterMap_append]
    exact hcalls.append hcalls'

theorem SlotsFound.nothing (h : facts'.referenceSlots = facts.referenceSlots) :
    SlotsFound path facts facts' tree [] :=
  ⟨[], by simp [h], .nil⟩

theorem SlotsFound.perm (h : SlotsFound path facts facts' tree found)
    (hperm : found.Perm found') : SlotsFound path facts facts' tree found' := by
  obtain ⟨slots, hslots, hcalls⟩ := h
  exact ⟨slots, hslots, hcalls.trans hperm⟩

/-- The slots of a child are slots of its parent, under one more step. -/
theorem SlotsFound.child {child : Json} {step : Step}
    (h : SlotsFound (path ++ [step]) facts facts' child found)
    (hstep : ∀ slot, callAt tree (step :: slot) = callAt child slot) :
    SlotsFound path facts facts' tree found := by
  obtain ⟨slots, hslots, hcalls⟩ := h
  refine ⟨slots.map (step :: ·), ?_, ?_⟩
  · rw [hslots, map_map]
    simp
  · rw [filterMap_map]
    exact (filterMap_congr fun slot _ => hstep slot) ▸ hcalls

@[simp] theorem recordGroupBy_referenceSlots (facts : TreeFacts) (entries : Object) :
    (recordGroupBy facts entries).referenceSlots = facts.referenceSlots := by
  unfold recordGroupBy
  split <;> rfl

@[simp] theorem recordFunctionName_referenceSlots (facts : TreeFacts) (key : String)
    (payload : Json) :
    (recordFunctionName aggregateKeyName facts key payload).referenceSlots =
      facts.referenceSlots := by
  unfold recordFunctionName
  split
  · split_ifs <;> rfl
  · rfl

@[simp] theorem recordRawRelation_referenceSlots (facts : TreeFacts) (table : Object) :
    (recordRawRelation visible facts table).referenceSlots = facts.referenceSlots := by
  unfold recordRawRelation
  split
  · split_ifs <;> rfl
  · rfl

theorem bareTables_arr : BareTables (.arr items) ↔ ∀ item ∈ items, BareTables item := by
  simp only [BareTables, objects, itemObjects_eq, forall_mem_flatMap]

theorem bareTables_obj :
    BareTables (.obj entries) ↔ ((tableNode entries).isSome → calls (.obj entries) = []) ∧
      ∀ entry ∈ entries, BareTables entry.2 := by
  simp only [BareTables, objects, entryObjects_eq, forall_mem_cons, forall_mem_flatMap]

mutual

theorem scan_found : ∀ (tree : Json) (path : Path) (visible : List String) (facts : TreeFacts),
    DistinctKeys tree → BareTables tree →
      SlotsFound path facts (scan aggregateKeyName path visible facts tree) tree (calls tree)
  | .arr items, path, visible, facts, hdistinct, hbare => by
    rw [scan, calls_arr]
    exact scanItems_found items [] path visible facts (distinctKeys_arr.mp hdistinct)
      (bareTables_arr.mp hbare)
  | .obj entries, path, visible, facts, hdistinct, hbare => by
    obtain ⟨hkeys, hvalues⟩ := distinctKeys_obj.mp hdistinct
    obtain ⟨htable, hbares⟩ := bareTables_obj.mp hbare
    rw [scan]
    cases hnode : tableNode entries with
    | some table =>
      rw [htable (by simp [hnode])]
      exact .nothing (by simp)
    | none =>
      have hstart : SlotsFound path facts (recordGroupBy facts entries) (.obj entries) [] :=
        .nothing (by simp)
      have hinner := scanEntries_found entries [] path visible (recordGroupBy facts entries) hkeys
        hvalues hbares
      have hown := recordReferenceSlots_found entries path
        (scanEntries aggregateKeyName path visible (recordGroupBy facts entries) entries)
      rw [calls_obj]
      exact ((hstart.trans hinner).trans hown).perm perm_append_comm
  | .null, _, _, _, _, _ | .bool _, _, _, _, _, _ | .int _, _, _, _, _, _
  | .str _, _, _, _, _, _ => .nothing (by simp [scan])

theorem scanItems_found : ∀ (items before : List Json) (path : Path) (visible : List String)
    (facts : TreeFacts), (∀ item ∈ items, DistinctKeys item) → (∀ item ∈ items, BareTables item) →
      SlotsFound path facts (scanItems aggregateKeyName path visible facts before.length items)
        (.arr (before ++ items)) (items.flatMap calls)
  | [], _, _, _, _, _, _ => by
    rw [scanItems]
    exact .nothing rfl
  | item :: items, before, path, visible, facts, hdistinct, hbare => by
    rw [forall_mem_cons] at hdistinct hbare
    rw [scanItems, flatMap_cons]
    have hitem := scan_found item (path ++ [.index before.length]) visible facts hdistinct.1 hbare.1
    have hitems := scanItems_found items (before ++ [item]) path visible
      (scan aggregateKeyName (path ++ [.index before.length]) visible facts item)
        hdistinct.2 hbare.2
    have hindex : (before ++ item :: items)[before.length]? = some item := by simp
    have hsplit : before ++ [item] ++ items = before ++ item :: items := by simp
    rw [hsplit, length_append, length_singleton] at hitems
    exact (hitem.child (callAt_index hindex)).trans hitems

theorem scanEntries_found : ∀ (entries before : Object) (path : Path) (visible : List String)
    (facts : TreeFacts), ((before ++ entries).map Prod.fst).Nodup →
      (∀ entry ∈ entries, DistinctKeys entry.2) → (∀ entry ∈ entries, BareTables entry.2) →
        SlotsFound path facts (scanEntries aggregateKeyName path visible facts entries)
          (.obj (before ++ entries)) (innerCalls entries)
  | [], _, _, _, _, _, _, _ => by
    rw [scanEntries]
    exact .nothing rfl
  | (key, payload) :: entries, before, path, visible, facts, hkeys, hdistinct, hbare => by
    rw [forall_mem_cons] at hdistinct hbare
    rw [scanEntries, innerCalls, flatMap_cons]
    have hname : SlotsFound path facts (recordFunctionName aggregateKeyName facts key payload)
        (.obj (before ++ (key, payload) :: entries)) [] := .nothing (by simp)
    have hpayload := scan_found payload (path ++ [.key key]) (childCtes visible payload)
      (recordFunctionName aggregateKeyName facts key payload) hdistinct.1 hbare.1
    have hfield : field (before ++ (key, payload) :: entries) key = some payload :=
      field_of_mem hkeys (by simp)
    have hsplit : before ++ [(key, payload)] ++ entries = before ++ (key, payload) :: entries := by
      simp
    have hentries := scanEntries_found entries (before ++ [(key, payload)]) path visible
      (scan aggregateKeyName (path ++ [.key key]) (childCtes visible payload)
        (recordFunctionName aggregateKeyName facts key payload) payload)
      (hsplit.symm ▸ hkeys) hdistinct.2 hbare.2
    rw [hsplit] at hentries
    exact (hname.trans (hpayload.child (callAt_key hfield))).trans hentries

end

/-- The identity at a slot. -/
def identityAt (tree : Json) (slot : Path) : Option Identity :=
  relationIdentity ((nodeAt tree slot).getD .null)

theorem resolveSlot_resolves {slot : Path} (state : List Identity × Option AnalysisError)
    (h : ∀ identity ∈ identityAt tree slot, Resolves resolver parseRelation identity) :
    resolveSlot resolver parseRelation tree state slot =
      (state.1 ++ (identityAt tree slot).toList, state.2) := by
  rw [resolveSlot, referenceTarget_eq, ← identityAt]
  cases hidentity : identityAt tree slot with
  | none => rfl
  | some identity =>
    obtain ⟨found, hfound⟩ := h identity hidentity
    simp [hfound, Except.map]

variable {identity : Identity} {slots : List Path}

theorem resolveSlot_fails {slot : Path} (state : List Identity × Option AnalysisError)
    (hidentity : identityAt tree slot = some identity)
    (h : ¬ Resolves resolver parseRelation identity) :
    (resolveSlot resolver parseRelation tree state slot).2.isSome = true := by
  rw [resolveSlot, referenceTarget_eq, ← identityAt, hidentity]
  cases hfound : cachedTarget resolver parseRelation identity with
  | ok found => exact absurd ⟨found, hfound⟩ h
  | error error => simp [hfound, Except.map]

theorem resolveSlots_deferred {state : List Identity × Option AnalysisError}
    (h : state.2.isSome = true) :
    (slots.foldl (resolveSlot resolver parseRelation tree) state).2.isSome = true := by
  induction slots generalizing state with
  | nil => exact h
  | cons slot slots ih =>
    apply ih
    unfold resolveSlot
    split
    · exact h
    · rfl

theorem resolveSlots_resolves (state : List Identity × Option AnalysisError)
    (h : ∀ identity ∈ slots.filterMap (identityAt tree), Resolves resolver parseRelation identity) :
    slots.foldl (resolveSlot resolver parseRelation tree) state =
      (state.1 ++ slots.filterMap (identityAt tree), state.2) := by
  induction slots generalizing state with
  | nil => simp
  | cons slot slots ih =>
    simp only [filterMap_eq_flatMap_toList, flatMap_cons, forall_mem_append] at h ih ⊢
    have hslot := resolveSlot_resolves state (by simpa using h.1)
    rw [foldl_cons, hslot, ih _ h.2, append_assoc]

theorem resolveSlots_fails (state : List Identity × Option AnalysisError)
    (hmem : identity ∈ slots.filterMap (identityAt tree))
    (h : ¬ Resolves resolver parseRelation identity) :
    (slots.foldl (resolveSlot resolver parseRelation tree) state).2.isSome = true := by
  induction slots generalizing state with
  | nil => simp at hmem
  | cons slot slots ih =>
    simp only [filterMap_eq_flatMap_toList, flatMap_cons, mem_append] at hmem ih
    rcases hmem with hslot | hslots
    · rw [foldl_cons]
      exact resolveSlots_deferred (resolveSlot_fails state (by simpa using hslot) h)
    · exact ih _ hslots

theorem slotIdentities_ok
    (h : ∀ identity ∈ slots.filterMap (identityAt tree), Resolves resolver parseRelation identity) :
    slotIdentities resolver parseRelation tree slots = .ok (slots.filterMap (identityAt tree)) := by
  rw [slotIdentities, resolveSlots_resolves _ h]
  rfl

theorem slotIdentities_error (hmem : identity ∈ slots.filterMap (identityAt tree))
    (h : ¬ Resolves resolver parseRelation identity) :
    ∃ error, slotIdentities resolver parseRelation tree slots = .error error := by
  have hdeferred := resolveSlots_fails ([], none) hmem h
  obtain ⟨error, herror⟩ := Option.isSome_iff_exists.mp hdeferred
  refine ⟨error, ?_⟩
  unfold slotIdentities
  split
  · simp_all
  · simp_all

theorem Identity.key_injective : Function.Injective Identity.key := by
  rintro ⟨relationType, name, refType⟩ ⟨relationType', name', refType'⟩ h
  simp only [Identity.key, EmbeddingLike.apply_eq_iff_eq, Prod.mk.injEq] at h
  obtain ⟨rfl, rfl, rfl⟩ := h
  rfl

theorem sortedIdentities_eq_iff {found found' : List Identity} :
    sortedIdentities found = sortedIdentities found' ↔ found.Perm found' := by
  have : Std.Total fun a b : Identity => a.key ≤ b.key := ⟨fun a b => le_total a.key b.key⟩
  have : IsTrans Identity fun a b => a.key ≤ b.key := ⟨fun _ _ _ hab hbc => le_trans hab hbc⟩
  have hperm : ∀ found, (sortedIdentities found).Perm found := fun found =>
    perm_insertionSort _ found
  constructor
  · intro h
    exact (hperm found).symm.trans (h ▸ hperm found')
  · intro h
    apply @List.Perm.eq_of_pairwise _ fun a b : Identity => a.key ≤ b.key
    · intro a b _ _ hab hba
      exact Identity.key_injective (le_antisymm hab hba)
    · exact pairwise_insertionSort _ found
    · exact pairwise_insertionSort _ found'
    · exact (hperm found).trans (h.trans (hperm found').symm)

theorem validateReferenceIdentities_eq_ok {references : List SqlReference}
    {actual : List Identity} :
    validateReferenceIdentities references actual = .ok () ↔
      (references.map expectedIdentity).Perm actual := by
  rw [validateReferenceIdentities, ← sortedIdentities_eq_iff]
  split_ifs with h
  · simpa using h
  · simpa using h

theorem identitiesAt_perm (hdistinct : DistinctKeys tree) (hbare : BareTables tree) :
    ((collectTreeFacts aggregateKeyName tree).referenceSlots.filterMap (identityAt tree)).Perm
      (identities tree) := by
  obtain ⟨slots, hslots, hcalls⟩ : SlotsFound [] .default (collectTreeFacts aggregateKeyName tree)
      tree (calls tree) := scan_found tree [] [] .default hdistinct hbare
  have hall : (collectTreeFacts aggregateKeyName tree).referenceSlots = slots := by
    rw [hslots]
    simp [TreeFacts.default]
  have hsame : slots.filterMap (identityAt tree) =
      (slots.filterMap (callAt tree)).filterMap referenceIdentity := by
    rw [filterMap_filterMap]
    rfl
  rw [hall, hsame]
  exact hcalls.filterMap referenceIdentity

/-- In a tree without nested references, the slots and the rewriting have the same identities, and
both passes accept the references of the authored text that have these identities. Where one of
them has no relation, both fail. -/
theorem reference_passes_agree (aggregateKeyName : String → Json → Option String)
    (resolver : String → Option String) (parseRelation : String → AnalysisResult Json)
    (tree : Json) (hdistinct : DistinctKeys tree) (hnested : NoNestedReferences tree)
    (htargets : PhysicalTargets parseRelation) :
    let slots := (collectTreeFacts aggregateKeyName tree).referenceSlots
    let recorded := slots.filterMap (identityAt tree)
    ∃ bound, ∀ fuel ≥ bound,
      ((∀ identity ∈ recorded, Resolves resolver parseRelation identity) ∧
        slotIdentities resolver parseRelation tree slots = .ok recorded ∧
        ∃ rewritten replaced,
          rewriteTree resolver parseRelation fuel tree = .ok (rewritten, replaced) ∧
          replaced.Perm recorded ∧
          ∀ references : List SqlReference,
            (checkedSlots resolver parseRelation tree slots references = .ok () ↔
              (references.map expectedIdentity).Perm recorded) ∧
            (checkedRewrite resolver parseRelation fuel tree references = .ok rewritten ↔
              (references.map expectedIdentity).Perm recorded)) ∨
      ((∃ identity ∈ recorded, ¬ Resolves resolver parseRelation identity) ∧
        (∃ error, slotIdentities resolver parseRelation tree slots = .error error) ∧
        ∃ error, rewriteTree resolver parseRelation fuel tree = .error (.analysis error)) := by
  intro slots recorded
  have hperm : recorded.Perm (identities tree) := identitiesAt_perm hdistinct hnested.tables
  obtain ⟨bound, hbound⟩ := finishes resolver htargets tree hdistinct hnested.calls
  refine ⟨bound, fun fuel hfuel => ?_⟩
  rcases hbound fuel hfuel with ⟨rewritten, hrewrite, hresolves, -⟩ |
    ⟨error, hrewrite, identity, hmem, hfails⟩
  · left
    have hresolves' : ∀ identity ∈ recorded, Resolves resolver parseRelation identity :=
      fun identity hidentity => hresolves identity (hperm.mem_iff.mp hidentity)
    have hslots := slotIdentities_ok hresolves'
    refine ⟨hresolves', hslots, rewritten, identities tree, hrewrite, hperm.symm,
      fun references => ⟨?_, ?_⟩⟩
    · rw [checkedSlots, hslots]
      exact validateReferenceIdentities_eq_ok
    · have hvalidated : ∀ u, validateReferenceIdentities references (identities tree) = .ok u ↔
          (references.map expectedIdentity).Perm recorded := fun _ =>
        validateReferenceIdentities_eq_ok.trans
          ⟨fun h => h.trans hperm.symm, fun h => h.trans hperm⟩
      simp only [checkedRewrite, hrewrite, bind_eq_ok, mapError_eq_ok, Except.ok.injEq,
        exists_eq_left', hvalidated, and_true, exists_const]
  · right
    have hmem' := hperm.mem_iff.mpr hmem
    exact ⟨⟨identity, hmem', hfails⟩, slotIdentities_error hmem' hfails, error, hrewrite⟩

/-! A query that joins a model, under an alias, with a source. -/

def callEntries (function name : String) : Object :=
  [("function", .obj [("name", .str function),
    ("args", .arr [.obj [("column", .obj [("name", identifierTree name)])]])])]

def joinedTree : Json :=
  .obj [("select", .obj [
    ("expressions", .arr []),
    ("from", .obj [("expressions", .arr [.obj [("alias", .obj [
      ("this", .obj (callEntries "__ref" "orders")), ("alias", identifierTree "o")])]])]),
    ("joins", .arr [.obj [("this", .obj (callEntries "__source" "events")),
      ("kind", .str "Inner")]])])]

theorem calls_callEntries (function name : String) :
    calls (.obj (callEntries function name)) = [] := by
  simp [calls, objects, entryObjects, itemObjects, callEntries, identifierTree, ownCalls,
    slotExpressions, fromExpressions, joinsOf, field, objectOf, arrayOf, lookup_cons]

theorem calls_joinedTree :
    calls joinedTree = [callEntries "__ref" "orders", callEntries "__source" "events"] := by
  simp [calls, joinedTree, objects, entryObjects, itemObjects, callEntries, identifierTree,
    ownCalls, slotExpressions, fromExpressions, joinsOf, joinExpression, field, objectOf, arrayOf,
    lookup_cons, relationCall, referenceIdentity, textOf, scalarName, sourceReferenceFunction,
    modelReferenceFunction, referenceWithTypeArgumentCount]

theorem noNestedReferences_joinedTree : NoNestedReferences joinedTree where
  tables := by
    simp [joinedTree, objects, entryObjects, itemObjects, callEntries, identifierTree, tableNode,
      field, objectOf, lookup_cons]
  calls := by
    simp [calls_joinedTree, calls_callEntries]

theorem physicalTargets_tables : PhysicalTargets fun target => .ok (tableTree .null target) := by
  rintro target _ ⟨⟩
  constructor
  · simp [DistinctKeys, tableTree, identifierTree, objects, entryObjects]
  · simp [calls, tableTree, identifierTree, objects, entryObjects, ownCalls, slotExpressions,
      fromExpressions, joinsOf, field, objectOf, arrayOf, lookup_cons]

theorem reference_passes_agree_joined : ∃ bound, ∀ fuel ≥ bound, ∃ rewritten replaced,
    rewriteTree some (fun target => .ok (tableTree .null target)) fuel joinedTree =
      .ok (rewritten, replaced) := by
  have hdistinct : DistinctKeys joinedTree := by
    simp [DistinctKeys, joinedTree, objects, entryObjects, itemObjects, callEntries, identifierTree]
  obtain ⟨bound, hbound⟩ := reference_passes_agree (fun _ _ => none) some _ joinedTree hdistinct
    noNestedReferences_joinedTree physicalTargets_tables
  refine ⟨bound, fun fuel hfuel => ?_⟩
  rcases hbound fuel hfuel with ⟨-, -, rewritten, replaced, hrewrite, -⟩ |
    ⟨⟨identity, -, hfails⟩, -⟩
  · exact ⟨rewritten, replaced, hrewrite⟩
  · exact absurd ⟨_, rfl⟩ hfails

end SqlTide.SqlAnalysis
