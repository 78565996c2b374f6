import SqlTide.SqlAnalysis.RelationRewrites

/-!
# The reference calls of a tree

A tree keeps its reference calls while the relations of some of them take their places, where no
call has further calls inside it or in its relation. So a pass that rewrites a tree comes to all of
its calls, in order, and to an end.
-/

namespace SqlTide.SqlAnalysis

open Foundations List SqlText

/-- The relation expressions in the FROM clause of an object. -/
def fromExpressions (entries : Object) : List Json :=
  ((objectOf (field entries "from")).bind fun fromPayload =>
    arrayOf (field fromPayload "expressions")).getD []

def joinsOf (entries : Object) : List Json := (arrayOf (field entries "joins")).getD []

/-- The relation expression of a join. -/
def joinExpression (join : Json) : Option Json :=
  (objectOf (some join)).map fun join => (field join "this").getD .null

def slotExpressions (entries : Object) : List Json :=
  fromExpressions entries ++ (joinsOf entries).filterMap joinExpression

/-- The reference call that a relation expression is, under its aliases. -/
def relationCall : Json → Option Object
  | .obj entries =>
    match _h : objectOf (field entries "alias") with
    | some aliasPayload => relationCall ((field aliasPayload "this").getD .null)
    | none => if (referenceIdentity entries).isSome then some entries else none
  | _ => none
termination_by expression => sizeOf expression
decreasing_by exact sizeOf_aliased_lt _h

def ownCalls (entries : Object) : List Object := (slotExpressions entries).filterMap relationCall

/-- The reference calls in the relation positions of a tree. -/
def calls (tree : Json) : List Object := (objects tree).flatMap ownCalls

def identities (tree : Json) : List Identity := (calls tree).filterMap referenceIdentity

/-- There are no references in table nodes and in calls. -/
structure NoNestedReferences (tree : Json) : Prop where
  tables : ∀ node ∈ objects tree, (tableNode node).isSome → calls (.obj node) = []
  calls : ∀ call ∈ calls tree, calls (.obj call) = []

/-- The relations that names are resolved to have no references. -/
def PhysicalTargets (parseRelation : String → AnalysisResult Json) : Prop :=
  ∀ target relation, parseRelation target = .ok relation →
    DistinctKeys relation ∧ calls relation = []

/-- The calls below an object, but not in its own positions. -/
def innerCalls (entries : Object) : List Object := entries.flatMap fun entry => calls entry.2

theorem calls_obj (entries : Object) :
    calls (.obj entries) = ownCalls entries ++ innerCalls entries := by
  rw [calls, objects, entryObjects_eq, flatMap_cons, flatMap_assoc]
  rfl

theorem calls_arr (items : List Json) : calls (.arr items) = items.flatMap calls := by
  rw [calls, objects, itemObjects_eq, flatMap_assoc]
  rfl

variable {object : Object} {key : String} {value value' : Json}

theorem distinctKeys_field (hdistinct : DistinctKeys (.obj object))
    (h : field object key = some value) : DistinctKeys value :=
  (distinctKeys_obj.mp hdistinct).2 _ (mem_of_field h)

theorem distinctKeys_insertField (hdistinct : DistinctKeys (.obj object))
    (h : field object key = some value) (hvalue : DistinctKeys value') :
    DistinctKeys (.obj (insertField object key value')) := by
  obtain ⟨hkeys, hvalues⟩ := distinctKeys_obj.mp hdistinct
  obtain ⟨before, after, rfl, hinsert⟩ := insertField_eq hkeys h
  rw [hinsert, distinctKeys_obj]
  constructor
  · simpa using hkeys
  · intro entry hentry
    rcases mem_append.mp hentry with hbefore | hentry
    · exact hvalues entry (by simp [hbefore])
    · rcases mem_cons.mp hentry with rfl | hafter
      · exact hvalue
      · exact hvalues entry (by simp [hafter])

theorem innerCalls_insertField (hkeys : (object.map Prod.fst).Nodup)
    (h : field object key = some value) (hcalls : calls value' = calls value) :
    innerCalls (insertField object key value') = innerCalls object := by
  obtain ⟨before, after, rfl, hinsert⟩ := insertField_eq hkeys h
  rw [hinsert]
  simp only [innerCalls, flatMap_append, flatMap_cons, hcalls]

theorem ownCalls_insertField (hfrom : key ≠ "from") (hjoins : key ≠ "joins") (object : Object)
    (value : Json) : ownCalls (insertField object key value) = ownCalls object := by
  simp only [ownCalls, slotExpressions, fromExpressions, joinsOf,
    field_insertField_of_ne hfrom.symm, field_insertField_of_ne hjoins.symm]

/-- The tree has the calls of the other one. -/
structure KeepsCalls (tree tree' : Json) : Prop where
  distinct : DistinctKeys tree'
  calls : calls tree' = calls tree

theorem KeepsCalls.insertField (hdistinct : DistinctKeys (.obj object))
    (h : field object key = some value) (hvalue : KeepsCalls value value')
    (hfrom : key ≠ "from") (hjoins : key ≠ "joins") :
    KeepsCalls (.obj object) (.obj (insertField object key value')) where
  distinct := distinctKeys_insertField hdistinct h hvalue.distinct
  calls := by
    rw [calls_obj, calls_obj, ownCalls_insertField hfrom hjoins,
      innerCalls_insertField (distinctKeys_obj.mp hdistinct).1 h hvalue.calls]

section
variable {resolver : String → Option String} {parseRelation : String → AnalysisResult Json}
  {entries aliasPayload call : Object} {tree expression : Json} {identity : Identity}

theorem aliasInduction {motive : Json → Prop}
    (aliased : ∀ entries aliasPayload, objectOf (field entries "alias") = some aliasPayload →
      motive ((field aliasPayload "this").getD .null) → motive (.obj entries))
    (plain : ∀ entries, objectOf (field entries "alias") = none → motive (.obj entries))
    (other : ∀ expression, (∀ entries, expression ≠ .obj entries) → motive expression)
    (expression : Json) : motive expression := by
  induction hsize : sizeOf expression using Nat.strong_induction_on generalizing expression with
  | _ size ih =>
    cases expression with
    | obj entries =>
      cases h : objectOf (field entries "alias") with
      | none => exact plain entries h
      | some aliasPayload =>
        apply aliased entries aliasPayload h
        exact ih _ (hsize ▸ sizeOf_aliased_lt h) _ rfl
    | _ => exact other _ (by simp)

theorem relationCall_aliased (h : objectOf (field entries "alias") = some aliasPayload) :
    relationCall (.obj entries) = relationCall ((field aliasPayload "this").getD .null) := by
  rw [relationCall]
  split <;> simp_all

theorem relationCall_plain (h : objectOf (field entries "alias") = none) :
    relationCall (.obj entries) =
      if (referenceIdentity entries).isSome then some entries else none := by
  rw [relationCall]
  split <;> simp_all

theorem relationCall_other (h : ∀ entries, expression ≠ .obj entries) :
    relationCall expression = none := by
  cases expression with
  | obj entries => exact absurd rfl (h entries)
  | _ => simp [relationCall]

theorem exists_identity (h : relationCall expression = some call) :
    ∃ identity, referenceIdentity call = some identity := by
  induction expression using aliasInduction with
  | aliased entries aliasPayload halias ih =>
    rw [relationCall_aliased halias] at h
    exact ih h
  | plain entries halias =>
    rw [relationCall_plain halias] at h
    split_ifs at h with hidentity
    cases h
    exact Option.isSome_iff_exists.mp hidentity
  | other expression hother =>
    rw [relationCall_other hother] at h
    cases h

/-- The identity of the call that a relation expression is. -/
def relationIdentity (expression : Json) : Option Identity :=
  (relationCall expression).bind referenceIdentity

theorem relationIdentity_plain (h : objectOf (field entries "alias") = none) :
    relationIdentity (.obj entries) = referenceIdentity entries := by
  rw [relationIdentity, relationCall_plain h]
  cases hidentity : referenceIdentity entries with
  | none => rfl
  | some identity => simp [hidentity]

theorem referenceTarget_eq (expression : Json) :
    referenceTarget resolver parseRelation expression =
      match relationIdentity expression with
      | none => .ok none
      | some identity =>
        (cachedTarget resolver parseRelation identity).map fun found => some
          (identity, found.1) := by
  induction expression using aliasInduction with
  | aliased entries aliasPayload h ih =>
    rw [relationIdentity, relationCall_aliased h, ← relationIdentity, ← ih, referenceTarget]
    split <;> simp_all
  | plain entries h =>
    rw [relationIdentity_plain h, referenceTarget]
    split
    · simp_all
    · cases referenceIdentity entries with
      | none => rfl
      | some identity => cases cachedTarget resolver parseRelation identity <;> rfl
  | other expression h =>
    rw [relationIdentity, relationCall_other h]
    cases expression with
    | obj entries => exact absurd rfl (h entries)
    | _ => simp [referenceTarget]

/-- The identity has a target, and its relation can be parsed. -/
def Resolves (resolver : String → Option String) (parseRelation : String → AnalysisResult Json)
    (identity : Identity) : Prop :=
  ∃ found, cachedTarget resolver parseRelation identity = .ok found

theorem cachedTarget_ok {found : String × Json}
    (h : cachedTarget resolver parseRelation identity = .ok found) :
    parseRelation found.1 = .ok found.2 := by
  unfold cachedTarget at h
  cases htarget : resolver identity.name with
  | none => simp [htarget] at h
  | some target =>
    rw [htarget] at h
    obtain ⟨relation, hrelation, hfound⟩ := bind_eq_ok.mp h
    cases hfound
    exact hrelation

/-- The relation of the call takes its place. -/
theorem replacement_ok (htargets : PhysicalTargets parseRelation)
    (hdistinct : DistinctKeys expression) (hcall : relationCall expression = some call)
    (hidentity : referenceIdentity call = some identity) (hnested : calls (.obj call) = [])
    (hresolves : Resolves resolver parseRelation identity) :
    ∃ relation, replacement resolver parseRelation expression = .ok (some (identity, relation)) ∧
      KeepsCalls expression relation := by
  induction expression using aliasInduction with
  | aliased entries aliasPayload h ih =>
    rw [relationCall_aliased h] at hcall
    cases hthis : field aliasPayload "this" with
    | none => simp [hthis, relationCall] at hcall
    | some this =>
      have halias := objectOf_eq_some.mp h
      have hpayload := distinctKeys_field hdistinct halias
      rw [hthis, Option.getD_some] at ih hcall
      obtain ⟨inner, hinner, hkeeps⟩ := ih (distinctKeys_field hpayload hthis) hcall
      have haliased := hkeeps.insertField hpayload hthis (by decide) (by decide)
      refine ⟨_, ?_, haliased.insertField hdistinct halias (by decide) (by decide)⟩
      rw [replacement]
      split
      · simp_all [bind, Except.bind]
      · simp_all
  | plain entries h =>
    have hsame : relationIdentity (.obj entries) = some identity := by
      rw [relationIdentity, hcall]
      exact hidentity
    obtain ⟨found, hfound⟩ := hresolves
    have hparsed := cachedTarget_ok hfound
    obtain ⟨hkeys, hcalls⟩ := htargets _ _ hparsed
    have hentries : call = entries := by
      rw [relationCall_plain h] at hcall
      split_ifs at hcall
      cases hcall
      rfl
    refine ⟨found.2, ?_, hkeys, ?_⟩
    · rw [replacement]
      split
      · simp_all
      · rw [referenceTarget_eq, hsame]
        simp [hfound, hparsed, bind, Except.bind, Except.map]
    · rw [hcalls, ← hentries, hnested]
  | other expression h =>
    rw [relationCall_other h] at hcall
    cases hcall

theorem replacement_eq_none (h : relationCall expression = none) :
    replacement resolver parseRelation expression = .ok none := by
  induction expression using aliasInduction with
  | aliased entries aliasPayload halias ih =>
    rw [relationCall_aliased halias] at h
    rw [replacement]
    split <;> simp_all [bind, Except.bind]
  | plain entries halias =>
    rw [replacement, referenceTarget_eq, relationIdentity, h]
    split <;> simp_all [bind, Except.bind]
  | other expression hother =>
    cases expression with
    | obj entries => exact absurd rfl (hother entries)
    | _ => simp [replacement]

theorem replacement_error (hidentity : relationIdentity expression = some identity)
    (h : ¬ Resolves resolver parseRelation identity) :
    ∃ error, replacement resolver parseRelation expression = .error error := by
  have hfails : ∃ error, cachedTarget resolver parseRelation identity = .error error := by
    cases hfound : cachedTarget resolver parseRelation identity with
    | error error => exact ⟨error, rfl⟩
    | ok found => exact absurd ⟨found, hfound⟩ h
  obtain ⟨error, herror⟩ := hfails
  refine ⟨error, ?_⟩
  induction expression using aliasInduction with
  | aliased entries aliasPayload halias ih =>
    rw [relationIdentity, relationCall_aliased halias] at hidentity
    rw [replacement]
    split
    · simp_all [bind, Except.bind, relationIdentity]
    · simp_all
  | plain entries halias =>
    rw [replacement, referenceTarget_eq, hidentity]
    split
    · simp_all
    · simp [herror, bind, Except.bind, Except.map]
  | other expression hother =>
    rw [relationIdentity, relationCall_other hother] at hidentity
    cases hidentity

/-- A pass over a part of a tree with these identities ends with a result of this kind, having
recorded them, or fails as one of them has no relation. -/
def Records {α : Type} (resolver : String → Option String)
    (parseRelation : String → AnalysisResult Json) (found : List Identity)
    (keeps : α → Prop) (result : Except Interruption (α × List Identity)) : Prop :=
  (∃ a, result = .ok (a, found) ∧ (∀ identity ∈ found, Resolves resolver parseRelation identity) ∧
    keeps a) ∨
  ∃ error, result = .error (.analysis error) ∧
    ∃ identity ∈ found, ¬ Resolves resolver parseRelation identity

variable {α : Type} {found : List Identity}

variable {keeps : α → Prop} {result : Except Interruption (α × List Identity)} {β : Type}

theorem Records.nothing {a : α} (hfound : found = []) (hresult : result = .ok (a, []))
    (hkeeps : keeps a) : Records resolver parseRelation found keeps result := by
  subst hfound
  exact .inl ⟨a, hresult, by simp, hkeeps⟩

theorem Records.andThen {γ : Type} {found' : List Identity}
    {keepsBoth : γ → Prop} {first : Except Interruption (α × List Identity)}
    {second : α → Except Interruption (β × List Identity)} (keeps' : α → β → Prop)
    (together : α → β → γ) (hfirst : Records resolver parseRelation found keeps first)
    (hsecond : ∀ a, keeps a → Records resolver parseRelation found' (keeps' a) (second a))
    (hboth : ∀ a b, keeps a → keeps' a b → keepsBoth (together a b)) :
    Records resolver parseRelation (found ++ found') keepsBoth (do
      let (a, recorded) ← first
      let (b, recorded') ← second a
      .ok (together a b, recorded ++ recorded')) := by
  rcases hfirst with ⟨a, hfirst, hresolves, hkeeps⟩ | ⟨error, hfirst, identity, hmem, hfails⟩
  · rcases hsecond a hkeeps with ⟨b, hsecond, hresolves', hkeeps'⟩ |
      ⟨error, hsecond, identity, hmem, hfails⟩
    · left
      refine ⟨together a b, ?_, forall_mem_append.mpr ⟨hresolves, hresolves'⟩,
        hboth a b hkeeps hkeeps'⟩
      simp [hfirst, hsecond, bind, Except.bind]
    · right
      refine ⟨error, ?_, identity, mem_append_right _ hmem, hfails⟩
      simp [hfirst, hsecond, bind, Except.bind]
  · right
    refine ⟨error, ?_, identity, mem_append_left _ hmem, hfails⟩
    simp [hfirst, bind, Except.bind]

theorem Records.map {keeps' : β → Prop} {result' : Except Interruption (β × List Identity)}
    (f : α → β) (h : Records resolver parseRelation found keeps result)
    (hf : ∀ a, keeps a → keeps' (f a)) (hresult' : result' = do
      let (a, recorded) ← result
      .ok (f a, recorded)) : Records resolver parseRelation found keeps' result' := by
  subst hresult'
  rcases h with ⟨a, hresult, hresolves, hkeeps⟩ | ⟨error, hresult, hfails⟩
  · exact .inl ⟨f a, by simp [hresult, bind, Except.bind], hresolves, hf a hkeeps⟩
  · exact .inr ⟨error, by simp [hresult, bind, Except.bind], hfails⟩

theorem Records.each {rewriteItem : α → Except Interruption (α × List Identity)}
    {found : α → List Identity} {keeps : α → α → Prop} {items : List α} (h : ∀ item ∈ items,
      Records resolver parseRelation (found item) (keeps item) (rewriteItem item)) :
    Records resolver parseRelation (items.flatMap found) (List.Forall₂ keeps items)
      (rewriteEach rewriteItem items) := by
  induction items with
  | nil => exact .nothing rfl rfl .nil
  | cons item items ih =>
    rw [forall_mem_cons] at h
    exact h.1.andThen (fun _ => List.Forall₂ keeps items) List.cons (fun _ _ => ih h.2) fun _ _
      hitem hitems => .cons hitem hitems

/-- What a pass does at a relation expression. -/
theorem replacement_cases (resolver : String → Option String)
    (htargets : PhysicalTargets parseRelation) (hdistinct : DistinctKeys expression)
    (hnested : ∀ call ∈ relationCall expression, calls (.obj call) = []) :
    (relationIdentity expression = none ∧
      replacement resolver parseRelation expression = .ok none) ∨
    ∃ identity, relationIdentity expression = some identity ∧
      ((Resolves resolver parseRelation identity ∧ ∃ relation,
          replacement resolver parseRelation expression = .ok (some (identity, relation)) ∧
            KeepsCalls expression relation) ∨
        ¬ Resolves resolver parseRelation identity ∧
          ∃ error, replacement resolver parseRelation expression = .error error) := by
  cases hcall : relationCall expression with
  | none => exact .inl ⟨by simp [relationIdentity, hcall], replacement_eq_none hcall⟩
  | some call =>
    obtain ⟨identity, hidentity⟩ := exists_identity hcall
    have hsame : relationIdentity expression = some identity := by
      rw [relationIdentity, hcall]
      exact hidentity
    refine .inr ⟨identity, hsame, ?_⟩
    by_cases hresolves : Resolves resolver parseRelation identity
    · exact .inl ⟨hresolves,
        replacement_ok htargets hdistinct hcall hidentity (hnested call hcall) hresolves⟩
    · exact .inr ⟨hresolves, replacement_error hsame hresolves⟩

/-- The tree keeps its calls, and it is the same where nothing was found. -/
def KeepsFound (found : List Identity) (tree tree' : Json) : Prop :=
  KeepsCalls tree tree' ∧ (found = [] → tree' = tree)

theorem records_expression (resolver : String → Option String)
    (htargets : PhysicalTargets parseRelation) (hdistinct : DistinctKeys expression)
    (hnested : ∀ call ∈ relationCall expression, calls (.obj call) = []) :
    Records resolver parseRelation (relationIdentity expression).toList
      (KeepsFound (relationIdentity expression).toList expression)
      (rewriteExpression resolver parseRelation expression) := by
  rcases replacement_cases resolver htargets hdistinct hnested with ⟨hnone, hreplacement⟩ |
    ⟨identity, hidentity, ⟨hresolves, relation, hreplacement, hkeeps⟩ |
      ⟨hfails, error, hreplacement⟩⟩
  · refine .nothing (by simp [hnone]) ?_ ⟨⟨hdistinct, rfl⟩, fun _ => rfl⟩
    simp [rewriteExpression, hreplacement, bind, Except.bind, Except.mapError]
  · left
    refine ⟨relation, ?_, by simpa [hidentity] using hresolves, hkeeps, by simp [hidentity]⟩
    simp [rewriteExpression, hreplacement, hidentity, bind, Except.bind, Except.mapError]
  · right
    refine ⟨error, ?_, identity, by simp [hidentity], hfails⟩
    simp [rewriteExpression, hreplacement, bind, Except.bind, Except.mapError]

/-- The identity at a join. -/
def joinIdentity (join : Json) : Option Identity := (joinExpression join).bind relationIdentity

theorem records_join (resolver : String → Option String) {join : Json}
    (htargets : PhysicalTargets parseRelation) (hdistinct : DistinctKeys join)
    (hnested : ∀ call ∈ (joinExpression join).bind relationCall, calls (.obj call) = []) :
    Records resolver parseRelation (joinIdentity join).toList
      (KeepsFound (joinIdentity join).toList join)
      (rewriteJoin resolver parseRelation join) := by
  cases join with
  | obj join =>
    have hthis : DistinctKeys ((field join "this").getD .null) := by
      cases hfield : field join "this" with
      | none => simp [DistinctKeys, objects]
      | some this => exact distinctKeys_field hdistinct hfield
    have hsame : joinIdentity (.obj join) = relationIdentity ((field join "this").getD .null) := rfl
    rcases replacement_cases resolver htargets hthis hnested with ⟨hnone, hreplacement⟩ |
      ⟨identity, hidentity, ⟨hresolves, relation, hreplacement, hkeeps⟩ |
        ⟨hfails, error, hreplacement⟩⟩
    · refine .nothing ?_ ?_ ⟨⟨hdistinct, rfl⟩, fun _ => rfl⟩
      · rw [hsame, hnone]
        rfl
      · simp [rewriteJoin, hreplacement, bind, Except.bind, Except.mapError]
    · left
      cases hfield : field join "this" with
      | none => simp [hfield, relationIdentity, relationCall] at hidentity
      | some this =>
        rw [hsame, hidentity]
        rw [hfield, Option.getD_some] at hkeeps
        refine ⟨.obj (insertField join "this" relation), ?_, by simpa using hresolves,
          hkeeps.insertField hdistinct hfield (by decide) (by decide), by simp⟩
        simp [rewriteJoin, hreplacement, bind, Except.bind, Except.mapError]
    · right
      refine ⟨error, ?_, identity, by simp [hsame, hidentity], hfails⟩
      simp [rewriteJoin, hreplacement, bind, Except.bind, Except.mapError]
  | _ => exact .nothing rfl rfl ⟨⟨hdistinct, rfl⟩, fun _ => rfl⟩

theorem KeepsFound.items {found : Json → List Identity} {items items' : List Json}
    (h : List.Forall₂ (fun item item' => KeepsFound (found item) item item') items items') :
    KeepsFound (items.flatMap found) (.arr items) (.arr items') := by
  induction h with
  | nil => exact ⟨⟨by simp [distinctKeys_arr], rfl⟩, fun _ => rfl⟩
  | cons hitem _ ih =>
    obtain ⟨⟨hdistinct, hcalls⟩, hsame⟩ := hitem
    obtain ⟨⟨hdistinct', hcalls'⟩, hsame'⟩ := ih
    rw [calls_arr, calls_arr] at hcalls'
    refine ⟨⟨?_, ?_⟩, fun hfound => ?_⟩
    · rw [distinctKeys_arr] at hdistinct' ⊢
      exact forall_mem_cons.mpr ⟨hdistinct, hdistinct'⟩
    · rw [calls_arr, calls_arr, flatMap_cons, flatMap_cons, hcalls, hcalls']
    · rw [flatMap_cons, append_eq_nil_iff] at hfound
      rw [hsame hfound.1, Json.arr.inj (hsame' hfound.2)]

/-- The entries have the calls of the other ones below them, and they are the same where nothing was
found. -/
structure KeepsInner (found : List Identity) (entries entries' : Object) : Prop where
  distinct : DistinctKeys (.obj entries')
  inner : innerCalls entries' = innerCalls entries
  same : found = [] → entries' = entries

theorem KeepsFound.entry (hdistinct : DistinctKeys (.obj object))
    (h : field object key = some value) (hvalue : KeepsFound found value value') :
    KeepsInner found object (insertField object key value') where
  distinct := distinctKeys_insertField hdistinct h hvalue.1.distinct
  inner := innerCalls_insertField (distinctKeys_obj.mp hdistinct).1 h hvalue.1.calls
  same hfound := by
    rw [hvalue.2 hfound, insertField_self (distinctKeys_obj.mp hdistinct).1 h]

theorem KeepsFound.insertField (hdistinct : DistinctKeys (.obj object))
    (h : field object key = some value) (hvalue : KeepsFound found value value')
    (hfrom : key ≠ "from") (hjoins : key ≠ "joins") :
    KeepsFound found (.obj object) (.obj (insertField object key value')) :=
  ⟨hvalue.1.insertField hdistinct h hfrom hjoins,
    fun hfound => congrArg Json.obj ((hvalue.entry hdistinct h).same hfound)⟩

def fromIdentities (entries : Object) : List Identity :=
  (fromExpressions entries).flatMap fun expression => (relationIdentity expression).toList

def joinIdentities (entries : Object) : List Identity :=
  (joinsOf entries).flatMap fun join => (joinIdentity join).toList

/-- The calls at the relation expressions of an object have no further calls. -/
def FlatSlots (entries : Object) : Prop := ∀ call ∈ ownCalls entries, calls (.obj call) = []

theorem records_from (resolver : String → Option String) (htargets : PhysicalTargets parseRelation)
    (hdistinct : DistinctKeys (.obj entries)) (hflat : FlatSlots entries) :
    Records resolver parseRelation (fromIdentities entries)
      (fun entries' => KeepsInner (fromIdentities entries) entries entries' ∧
        joinsOf entries' = joinsOf entries)
      (rewriteFrom resolver parseRelation entries) := by
  have hsame : KeepsInner (fromIdentities entries) entries entries ∧
      joinsOf entries = joinsOf entries :=
    ⟨⟨hdistinct, rfl, fun _ => rfl⟩, rfl⟩
  cases hpayload : objectOf (field entries "from") with
  | none =>
    refine .nothing ?_ ?_ hsame
    · simp [fromIdentities, fromExpressions, hpayload]
    · simp [rewriteFrom, hpayload]
  | some payload =>
    cases hexpressions : arrayOf (field payload "expressions") with
    | none =>
      refine .nothing ?_ ?_ hsame
      · simp [fromIdentities, fromExpressions, hpayload, hexpressions]
      · simp [rewriteFrom, hpayload, hexpressions]
    | some expressions =>
      have hfrom := objectOf_eq_some.mp hpayload
      have harray := arrayOf_eq_some.mp hexpressions
      have hall : fromExpressions entries = expressions := by
        simp [fromExpressions, hpayload, hexpressions]
      have hpayloads := distinctKeys_field hdistinct hfrom
      have hitems := distinctKeys_arr.mp (distinctKeys_field hpayloads harray)
      have heach := Records.each fun expression hexpression =>
        records_expression resolver htargets (hitems expression hexpression) fun call hcall =>
          hflat call <| by
            simp only [ownCalls, slotExpressions, mem_filterMap, mem_append, hall]
            exact ⟨expression, .inl hexpression, hcall⟩
      rw [fromIdentities, hall]
      refine heach.map (fun expressions' => insertField entries "from" (.obj (insertField payload
        "expressions" (.arr expressions')))) (fun expressions' hkeeps => ⟨?_, ?_⟩) ?_
      · exact ((KeepsFound.items hkeeps).insertField hpayloads harray (by decide)
          (by decide)).entry hdistinct hfrom
      · rw [joinsOf, field_insertField_of_ne (by decide)]
        rfl
      · simp only [rewriteFrom, hpayload, hexpressions]

theorem ownCalls_identities (entries : Object) :
    (ownCalls entries).filterMap referenceIdentity =
      fromIdentities entries ++ joinIdentities entries := by
  rw [ownCalls, filterMap_filterMap, slotExpressions, filterMap_append, filterMap_filterMap,
    fromIdentities, joinIdentities, filterMap_eq_flatMap_toList, filterMap_eq_flatMap_toList]
  rfl

theorem identities_obj (entries : Object) :
    identities (.obj entries) = fromIdentities entries ++ joinIdentities entries ++
      (innerCalls entries).filterMap referenceIdentity := by
  rw [identities, calls_obj, filterMap_append, ownCalls_identities]

theorem innerCalls_identities (entries : Object) :
    (innerCalls entries).filterMap referenceIdentity =
      entries.flatMap fun entry => identities entry.2 := by
  rw [innerCalls, filterMap_flatMap]
  rfl

theorem identities_arr (items : List Json) :
    identities (.arr items) = items.flatMap identities := by
  rw [identities, calls_arr, filterMap_flatMap]
  rfl

theorem records_joins (resolver : String → Option String) (htargets : PhysicalTargets parseRelation)
    (hdistinct : DistinctKeys (.obj entries))
    (hflat : ∀ join ∈ joinsOf entries, ∀ call ∈ (joinExpression join).bind relationCall,
      calls (.obj call) = []) :
    Records resolver parseRelation (joinIdentities entries)
      (KeepsInner (joinIdentities entries) entries)
      (rewriteJoins resolver parseRelation entries) := by
  cases hjoins : arrayOf (field entries "joins") with
  | none =>
    refine .nothing ?_ ?_ ⟨hdistinct, rfl, fun _ => rfl⟩
    · simp [joinIdentities, joinsOf, hjoins]
    · simp [rewriteJoins, hjoins]
  | some joins =>
    have hfield := arrayOf_eq_some.mp hjoins
    have hall : joinsOf entries = joins := by simp [joinsOf, hjoins]
    have hitems := distinctKeys_arr.mp (distinctKeys_field hdistinct hfield)
    have heach := Records.each fun join hjoin =>
      records_join resolver htargets (hitems join hjoin) (hflat join (hall ▸ hjoin))
    rw [joinIdentities, hall]
    refine heach.map (fun joins' => insertField entries "joins" (.arr joins'))
      (fun joins' hkeeps => (KeepsFound.items hkeeps).entry hdistinct hfield) ?_
    simp only [rewriteJoins, hjoins]

/-- An object's own positions are rewritten. -/
theorem records_relations (resolver : String → Option String)
    (htargets : PhysicalTargets parseRelation)
    (hdistinct : DistinctKeys (.obj entries)) (hflat : FlatSlots entries) :
    Records resolver parseRelation (fromIdentities entries ++ joinIdentities entries)
      (KeepsInner (fromIdentities entries ++ joinIdentities entries) entries)
      (rewriteRelations resolver parseRelation entries) := by
  have hjoins : ∀ join ∈ joinsOf entries, ∀ call ∈ (joinExpression join).bind relationCall,
      calls (.obj call) = [] := by
    intro join hjoin call hcall
    obtain ⟨expression, hexpression, hcall⟩ := Option.bind_eq_some_iff.mp hcall
    apply hflat call
    simp only [ownCalls, slotExpressions, mem_filterMap, mem_append]
    exact ⟨expression, .inr ⟨join, hjoin, hexpression⟩, hcall⟩
  have hsecond : ∀ entries', KeepsInner (fromIdentities entries) entries entries' ∧
      joinsOf entries' = joinsOf entries →
        Records resolver parseRelation (joinIdentities entries)
          (KeepsInner (joinIdentities entries) entries')
          (rewriteJoins resolver parseRelation entries') := by
    rintro entries' ⟨hkeeps, hsame⟩
    have hidentities : joinIdentities entries' = joinIdentities entries := by
      rw [joinIdentities, hsame]
      rfl
    have hrecords := records_joins resolver htargets hkeeps.distinct (hsame ▸ hjoins)
    rwa [hidentities] at hrecords
  refine (records_from resolver htargets hdistinct hflat).andThen
    (KeepsInner (joinIdentities entries)) (fun _ entries' => entries') hsecond ?_
  rintro entries₁ entries₂ ⟨hkeeps₁, -⟩ hkeeps₂
  refine ⟨hkeeps₂.distinct, hkeeps₂.inner.trans hkeeps₁.inner, fun hnone => ?_⟩
  rw [append_eq_nil_iff] at hnone
  rw [hkeeps₂.same hnone.2, hkeeps₁.same hnone.1]

/-- The calls of a tree have no further calls. -/
def FlatCalls (tree : Json) : Prop := ∀ call ∈ calls tree, calls (.obj call) = []

/-- Given enough fuel, a tree is rewritten to its end. -/
def Finishes (resolver : String → Option String) (parseRelation : String → AnalysisResult Json)
    (tree : Json) : Prop :=
  ∃ bound, ∀ fuel ≥ bound, Records resolver parseRelation (identities tree) (fun _ => True)
    (rewriteTree resolver parseRelation fuel tree)

/-- It is enough that a tree is rewritten to its end with one more unit of fuel. -/
theorem Finishes.of_succ (bound : ℕ)
    (h : ∀ fuel ≥ bound, Records resolver parseRelation (identities tree) (fun _ => True)
      (rewriteTree resolver parseRelation (fuel + 1) tree)) :
    Finishes resolver parseRelation tree := by
  refine ⟨bound + 1, fun fuel hfuel => ?_⟩
  obtain ⟨fuel, rfl⟩ := Nat.exists_eq_succ_of_ne_zero (Nat.ne_zero_of_lt hfuel)
  exact h fuel (by omega)

theorem exists_bound {items : List Json}
    (h : ∀ item ∈ items, Finishes resolver parseRelation item) :
    ∃ bound, ∀ fuel ≥ bound, ∀ item ∈ items, Records resolver parseRelation (identities item)
      (fun _ => True) (rewriteTree resolver parseRelation fuel item) := by
  simp only [Finishes, ← Filter.eventually_atTop] at h ⊢
  exact (Filter.eventually_all_finite (finite_toSet items)).mpr h

theorem finishes_scalar (hobj : ∀ entries, tree ≠ .obj entries)
    (harr : ∀ items, tree ≠ .arr items) : Finishes resolver parseRelation tree := by
  apply Finishes.of_succ 0
  intro fuel _
  refine .nothing (a := tree) ?_ ?_ trivial
  · cases tree with
    | obj entries => exact absurd rfl (hobj entries)
    | arr items => exact absurd rfl (harr items)
    | _ => rfl
  · cases tree with
    | obj entries => exact absurd rfl (hobj entries)
    | arr items => exact absurd rfl (harr items)
    | _ => simp [rewriteTree]

theorem finishes_arr {items : List Json}
    (h : ∀ item ∈ items, Finishes resolver parseRelation item) :
    Finishes resolver parseRelation (.arr items) := by
  obtain ⟨bound, hbound⟩ := exists_bound h
  apply Finishes.of_succ bound
  intro fuel hfuel
  rw [identities_arr]
  exact (Records.each (hbound fuel hfuel)).map Json.arr (fun _ _ => trivial) rfl

/-- Where the relations in an object's own positions are rewritten, it is the values of the result
that have to be rewritten to their end. -/
theorem finishes_obj (htargets : PhysicalTargets parseRelation)
    (hdistinct : DistinctKeys (.obj entries)) (hflat : FlatSlots entries)
    (h : ∀ entries', KeepsInner (fromIdentities entries ++ joinIdentities entries) entries
    entries' →
      ∀ entry ∈ entries', Finishes resolver parseRelation entry.2) :
    Finishes resolver parseRelation (.obj entries) := by
  rcases records_relations resolver htargets hdistinct hflat with
    ⟨entries', hrewrite, hresolves, hkeeps⟩ | ⟨error, hrewrite, identity, hmem, hfails⟩
  · have hvalues : ∀ value ∈ entries'.map Prod.snd, Finishes resolver parseRelation value := by
      intro value hvalue
      obtain ⟨entry, hentry, rfl⟩ := mem_map.mp hvalue
      exact h entries' hkeeps entry hentry
    obtain ⟨bound, hbound⟩ := exists_bound hvalues
    apply Finishes.of_succ bound
    intro fuel hfuel
    have hfirst : Records resolver parseRelation (fromIdentities entries ++ joinIdentities entries)
        (· = entries') (rewriteRelations resolver parseRelation entries) :=
      .inl ⟨entries', hrewrite, hresolves, rfl⟩
    rw [identities_obj, ← hkeeps.inner, innerCalls_identities]
    refine hfirst.andThen (fun _ => List.Forall₂ (fun _ _ => True) entries')
      (fun _ values => Json.obj values) (fun values hsame => ?_) fun _ _ _ _ => trivial
    subst hsame
    refine Records.each fun entry hentry => ?_
    exact (hbound fuel hfuel entry.2 (mem_map_of_mem hentry)).map (Prod.mk entry.1)
      (fun _ _ => trivial) rfl
  · apply Finishes.of_succ 0
    intro fuel _
    right
    refine ⟨error, ?_, identity, ?_, hfails⟩
    · simp [rewriteTree, hrewrite, bind, Except.bind]
    · rw [identities_obj]
      exact mem_append_left _ hmem

/-- Rewriting comes to an end: the values of an object have fewer calls, once some of its own are
replaced, and they are smaller otherwise. -/
theorem finishes (resolver : String → Option String) (htargets : PhysicalTargets parseRelation)
    (tree : Json) (hdistinct : DistinctKeys tree) (hflat : FlatCalls tree) :
    Finishes resolver parseRelation tree := by
  induction hcount : (calls tree).length using Nat.strong_induction_on generalizing tree with
  | _ count ihcount =>
    induction hsize : sizeOf tree using Nat.strong_induction_on generalizing tree with
    | _ size ihsize =>
      have hless : ∀ value, DistinctKeys value → (calls value).Sublist (calls tree) →
          (calls value).length < (calls tree).length ∨ sizeOf value < sizeOf tree →
            Finishes resolver parseRelation value := by
        intro value hvalue hcalls hsmaller
        have hflat' : FlatCalls value := fun call hcall => hflat call (hcalls.subset hcall)
        have hle := hcalls.length_le
        by_cases hfewer : (calls value).length < count
        · exact ihcount _ hfewer value hvalue hflat' rfl
        · exact ihsize _ (by omega) value hvalue hflat' (by omega) rfl
      cases tree with
      | arr items =>
        apply finishes_arr
        intro item hitem
        apply hless item (distinctKeys_arr.mp hdistinct item hitem)
        · rw [calls_arr]
          exact sublist_flatten_of_mem (mem_map_of_mem hitem)
        · right
          have := sizeOf_lt_of_mem hitem
          simp only [Json.arr.sizeOf_spec]
          omega
      | obj entries =>
        have hcalls := calls_obj entries
        apply finishes_obj htargets hdistinct
        · intro call hcall
          exact hflat call (hcalls ▸ mem_append_left _ hcall)
        · intro entries' hkeeps entry hentry
          have hinner : (calls entry.2).Sublist (innerCalls entries) := by
            rw [← hkeeps.inner]
            exact sublist_flatten_of_mem
              (mem_map_of_mem (f := fun entry => calls entry.2) hentry)
          apply hless entry.2 ((distinctKeys_obj.mp hkeeps.distinct).2 entry hentry)
          · rw [hcalls]
            exact hinner.trans (sublist_append_right _ _)
          · cases hown : ownCalls entries with
            | nil =>
              right
              have hnone := ownCalls_identities entries
              rw [hown] at hnone
              rw [hkeeps.same hnone.symm] at hentry
              have hlist := sizeOf_lt_of_mem hentry
              obtain ⟨key, value⟩ := entry
              simp only [Prod.mk.sizeOf_spec, Json.obj.sizeOf_spec] at hlist ⊢
              omega
            | cons call rest =>
              left
              have hle := hinner.length_le
              rw [hcalls, hown, length_append, length_cons]
              omega
      | _ => exact finishes_scalar (by simp) (by simp)

end

end SqlTide.SqlAnalysis
