import SqlTide.SqlAnalysis.ReferenceSubstitution
import SqlTide.SqlAnalysis.TreeFacts

/-!
# Reference calls in relation positions

A model is resolved at the slots that the traversal of its tree recorded. A query is rewritten by a
traversal of its own, which goes on into the relations that it has put in place of the calls, so it
comes to an end only where these have no calls in turn. Both compare the identities of the calls
that they found with those of the authored text.
-/

namespace SqlTide.SqlAnalysis

open Foundations SqlText

/-- `text`. -/
def textOf : Option Json → Option String
  | some (.str text) => some text
  | _ => none

/-- A step of `at`. -/
def stepInto (node : Json) : Step → Option Json
  | .key key => (objectOf (some node)).bind (field · key)
  | .index index => (arrayOf (some node)).bind (·[index]?)

/-- `at`. -/
def nodeAt (tree : Json) (path : Path) : Option Json := path.foldlM stepInto tree

structure Identity where
  relationType : String
  name : String
  refType : Option String
  deriving DecidableEq, Repr

def sourceReferenceFunction : String := "__source"

def modelReferenceFunction : String := "__ref"

def referenceTypeKeyword : String := "ref_type"

def referenceTypes : List String := ["reference", "mutable"]

def referenceWithTypeArgumentCount : ℕ := 2

def scalarName (argument : Json) : Option String := do
  let argument ← objectOf (some argument)
  match (objectOf (field argument "column")).bind fun column => objectOf (field column "name") with
  | some name => textOf (field name "name")
  | none => textOf (field (← objectOf (field argument "literal")) "value")

def astRefType (argument : Json) : Option String := do
  let equality ← objectOf (field (← objectOf (some argument)) "eq")
  let keyword := (field equality "left").bind scalarName
  let value ← (field equality "right").bind scalarName
  if keyword = some referenceTypeKeyword ∧ value ∈ referenceTypes then some value else none

def referenceIdentity (expression : Object) : Option Identity := do
  let function ← objectOf (field expression "function")
  let name ← textOf (field function "name")
  let relationType ←
    if name = sourceReferenceFunction then some "source"
    else if name = modelReferenceFunction then some "ref"
    else none
  let arguments ← arrayOf (field function "args")
  let name ← scalarName (← arguments.head?)
  let refType :=
    if arguments.length = referenceWithTypeArgumentCount ∧ relationType = "ref" then
      arguments[1]?.bind astRefType
    else none
  some ⟨relationType, name, refType⟩

def relationTypeText : RelationType → String
  | .source => "source"
  | .ref => "ref"

def refTypeText : RefType → String
  | .reference => "reference"
  | .mutable => "mutable"

/-- The identity of a reference of the authored text. -/
def expectedIdentity (reference : SqlReference) : Identity :=
  ⟨relationTypeText reference.relationType, reference.name, reference.refType.map refTypeText⟩

/-- Tuples are compared by their components, and no reference type comes first. -/
def Identity.key (identity : Identity) : String ×ₗ String ×ₗ WithBot String :=
  toLex (identity.relationType, toLex (identity.name, identity.refType))

def sortedIdentities (identities : List Identity) : List Identity :=
  identities.insertionSort fun a b => a.key ≤ b.key

def misplacedReferences : String :=
  "__source(...) and __ref(...) calls are valid only in FROM or JOIN relation positions"

def validateReferenceIdentities (references : List SqlReference) (actual : List Identity) :
    AnalysisResult Unit :=
  if sortedIdentities (references.map expectedIdentity) ≠ sortedIdentities actual then
    .error ⟨misplacedReferences⟩
  else .ok ()

theorem sizeOf_field_lt {object : Object} {key : String} {value : Json}
    (h : field object key = some value) : sizeOf value < sizeOf object := by
  induction object with
  | nil => simp [field] at h
  | cons entry object ih =>
    obtain ⟨key', value'⟩ := entry
    simp only [field, List.lookup_cons] at h
    split at h
    · cases h
      simp only [List.cons.sizeOf_spec, Prod.mk.sizeOf_spec]
      omega
    · have hrest := ih h
      simp only [List.cons.sizeOf_spec]
      omega

theorem sizeOf_objectOf_lt {object inner : Object} {key : String}
    (h : objectOf (field object key) = some inner) : sizeOf inner < sizeOf object := by
  cases hfield : field object key with
  | none => simp [hfield, objectOf] at h
  | some value =>
    have hvalue := sizeOf_field_lt hfield
    cases value with
    | obj entries =>
      simp only [hfield, objectOf, Option.some.injEq] at h
      subst h
      simp only [Json.obj.sizeOf_spec] at hvalue
      omega
    | _ => simp [hfield, objectOf] at h

theorem sizeOf_aliased_lt {entries aliasPayload : Object}
    (h : objectOf (field entries "alias") = some aliasPayload) :
    sizeOf ((field aliasPayload "this").getD .null) < sizeOf (Json.obj entries) := by
  have halias := sizeOf_objectOf_lt h
  cases hthis : field aliasPayload "this" with
  | none =>
    simp only [Option.getD_none, Json.null.sizeOf_spec, Json.obj.sizeOf_spec]
    omega
  | some this =>
    have hsize := sizeOf_field_lt hthis
    simp only [Option.getD_some, Json.obj.sizeOf_spec]
    omega

section
-- `resolver` maps names of relations, and `parse_relation` parses the target of one.
variable (resolver : String → Option String) (parseRelation : String → AnalysisResult Json)

/-- The target of an identity, and its relation, which the cache keeps. -/
def cachedTarget (identity : Identity) : AnalysisResult (String × Json) :=
  match resolver identity.name with
  | none => .error ⟨unresolvedRef identity.name⟩
  | some target => do
    let relation ← parseRelation target
    .ok (target, relation)

/-- `RelationCache::reference_target`, with the identity that it records. -/
def referenceTarget : Json → AnalysisResult (Option (Identity × String))
  | .obj entries =>
    match _h : objectOf (field entries "alias") with
    | some aliasPayload => referenceTarget ((field aliasPayload "this").getD .null)
    | none =>
      match referenceIdentity entries with
      | none => .ok none
      | some identity => do
        let (target, _) ← cachedTarget resolver parseRelation identity
        .ok (some (identity, target))
  | _ => .ok none
termination_by expression => sizeOf expression
decreasing_by exact sizeOf_aliased_lt _h

/-- `replacement`, with the identity that it records. -/
def replacement : Json → AnalysisResult (Option (Identity × Json))
  | .obj entries =>
    match _h : objectOf (field entries "alias") with
    | some aliasPayload => do
      match ← replacement ((field aliasPayload "this").getD .null) with
      | none => .ok none
      | some (identity, inner) =>
        .ok (some (identity,
          .obj (insertField entries "alias" (.obj (insertField aliasPayload "this" inner)))))
    | none => do
      match ← referenceTarget resolver parseRelation (.obj entries) with
      | none => .ok none
      | some (identity, target) => do
        let relation ← parseRelation target
        .ok (some (identity, relation))
  | _ => .ok none
termination_by expression => sizeOf expression
decreasing_by exact sizeOf_aliased_lt _h

/-- One iteration of the loop of `RelationCache::resolve`: the first failure is deferred. -/
def resolveSlot (tree : Json) (state : List Identity × Option AnalysisError) (slot : Path) :
    List Identity × Option AnalysisError :=
  match referenceTarget resolver parseRelation ((nodeAt tree slot).getD .null) with
  | .ok found => (state.1 ++ (found.map Prod.fst).toList, state.2)
  | .error error => (state.1, some (state.2.getD error))

/-- The identities that `RelationCache::resolve` finds at the slots. -/
def slotIdentities (tree : Json) (slots : List Path) : AnalysisResult (List Identity) :=
  match slots.foldl (resolveSlot resolver parseRelation tree) ([], none) with
  | (identities, none) => .ok identities
  | (_, some error) => .error error

/-- The check of `RelationCache::resolve` that goes before its substitutions. -/
def checkedSlots (tree : Json) (slots : List Path) (references : List SqlReference) :
    AnalysisResult Unit := do
  validateReferenceIdentities references (← slotIdentities resolver parseRelation tree slots)

inductive Interruption
  | analysis (error : AnalysisError)
  | unfinished
  deriving DecidableEq, Repr

/-- Each item is rewritten, and the recorded identities are put together. -/
def rewriteEach {α : Type} (rewriteItem : α → Except Interruption (α × List Identity)) :
    List α → Except Interruption (List α × List Identity)
  | [] => .ok ([], [])
  | item :: items => do
    let (item', recorded) ← rewriteItem item
    let (items', recorded') ← rewriteEach rewriteItem items
    .ok (item' :: items', recorded ++ recorded')

/-- The expression of a relation position, replaced where it is a reference. -/
def rewriteExpression (expression : Json) : Except Interruption (Json × List Identity) := do
  match ← (replacement resolver parseRelation expression).mapError .analysis with
  | none => .ok (expression, [])
  | some (identity, relation) => .ok (relation, [identity])

def rewriteJoin : Json → Except Interruption (Json × List Identity)
  | .obj join => do
    match ← (replacement resolver parseRelation ((field join "this").getD .null)).mapError
        .analysis with
    | none => .ok (.obj join, [])
    | some (identity, relation) => .ok (.obj (insertField join "this" relation), [identity])
  | join => .ok (join, [])

def rewriteFrom (entries : Object) : Except Interruption (Object × List Identity) :=
  match objectOf (field entries "from") with
  | none => .ok (entries, [])
  | some fromPayload =>
    match arrayOf (field fromPayload "expressions") with
    | none => .ok (entries, [])
    | some expressions => do
      let (expressions', recorded) ←
        rewriteEach (rewriteExpression resolver parseRelation) expressions
      .ok (insertField entries "from" (.obj (insertField fromPayload "expressions"
        (.arr expressions'))), recorded)

def rewriteJoins (entries : Object) : Except Interruption (Object × List Identity) :=
  match arrayOf (field entries "joins") with
  | none => .ok (entries, [])
  | some joins => do
    let (joins', recorded) ← rewriteEach (rewriteJoin resolver parseRelation) joins
    .ok (insertField entries "joins" (.arr joins'), recorded)

/-- The relations in the positions of one object. -/
def rewriteRelations (entries : Object) : Except Interruption (Object × List Identity) := do
  let (entries, recorded) ← rewriteFrom resolver parseRelation entries
  let (entries, recorded') ← rewriteJoins resolver parseRelation entries
  .ok (entries, recorded ++ recorded')

/-- `rewrite_tree`, as far as the fuel goes. -/
def rewriteTree : ℕ → Json → Except Interruption (Json × List Identity)
  | 0, _ => .error .unfinished
  | fuel + 1, .obj entries => do
    let (entries, recorded) ← rewriteRelations resolver parseRelation entries
    let (entries, recorded') ← rewriteEach (fun entry : String × Json => do
      let (value, recorded) ← rewriteTree fuel entry.2
      .ok ((entry.1, value), recorded)) entries
    .ok (.obj entries, recorded ++ recorded')
  | fuel + 1, .arr items => do
    let (items, recorded) ← rewriteEach (rewriteTree fuel) items
    .ok (.arr items, recorded)
  | _ + 1, scalar => .ok (scalar, [])

/-- The check of `validated_relation_rewrite` on its parsed query. -/
def checkedRewrite (fuel : ℕ) (tree : Json) (references : List SqlReference) :
    Except Interruption Json := do
  let (rewritten, identities) ← rewriteTree resolver parseRelation fuel tree
  (validateReferenceIdentities references identities).mapError .analysis
  .ok rewritten

end

end SqlTide.SqlAnalysis
