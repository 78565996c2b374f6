import Mathlib.Data.List.Sort
import SqlTide.SqlAnalysis.ReferenceSubstitution
import SqlTide.SqlText.TemplateCollisions

/-!
# Resolved templates and direct substitution

Resolving a model makes a template of it: every reference becomes its target's relation, in the
placeholder's database. Rewriting the template agrees with substituting the targets directly where
the relations stand alone in the authored text.
-/

namespace SqlTide.SqlText

/-- Text and relations before a template. -/
def Template.prepend (head : List Char) : List (List Char × List Char) → Template → Template
  | [], template => ⟨head ++ template.head, template.relations⟩
  | (name, following) :: relations, template =>
    let after := prepend following relations template
    ⟨head, (name, after.head) :: after.relations⟩

/-- Texts with templates between them. -/
def Template.interleave : List (List Char) → List Template → Template
  | [], _ => ⟨[], []⟩
  | gap :: gaps, [] => ⟨gap ++ gaps.flatten, []⟩
  | gap :: gaps, template :: templates =>
    prepend (gap ++ template.head) template.relations (interleave gaps templates)

variable {tables : PythonTables} {placeholder head : List Char} {template : Template}
  {relations : List (List Char × List Char)} {relation : List Char → List Char}

theorem Template.render_prepend : (Template.prepend head relations template).render relation =
    head ++ renderRelations relation relations ++ template.render relation := by
  induction relations generalizing head with
  | nil => simp [prepend, render, renderRelations]
  | cons entry relations ih =>
    have hrest := @ih entry.2
    rw [render] at hrest
    simp only [prepend, render, renderRelations, List.append_assoc] at hrest ⊢
    rw [hrest]

theorem Template.names_prepend : (Template.prepend head relations template).relations.map Prod.fst =
    relations.map Prod.fst ++ template.relations.map Prod.fst := by
  induction relations generalizing head with
  | nil => rfl
  | cons entry relations ih => simp [prepend, ih]

variable {gaps : List (List Char)} {templates : List Template}

theorem Template.render_interleave :
    (Template.interleave gaps templates).render relation =
      Foundations.Splice.interleave gaps (templates.map fun template =>
        template.render relation) := by
  induction templates generalizing gaps with
  | nil =>
    cases gaps with
    | nil => rfl
    | cons gap gaps => simp [interleave, render, renderRelations, Foundations.Splice.interleave]
  | cons template templates ih =>
    cases gaps with
    | nil => rfl
    | cons gap gaps =>
      rw [interleave, render_prepend, ih, List.map_cons, Foundations.Splice.interleave, render]
      simp only [List.append_assoc]

theorem Template.names_interleave
    {name : List Char} (h : name ∈ (Template.interleave gaps templates).relations.map Prod.fst) :
    ∃ template ∈ templates, name ∈ template.relations.map Prod.fst := by
  induction templates generalizing gaps with
  | nil => cases gaps <;> simp [interleave] at h
  | cons template templates ih =>
    cases gaps with
    | nil => simp [interleave] at h
    | cons gap gaps =>
      rw [interleave, names_prepend, List.mem_append] at h
      rcases h with h | h
      · exact ⟨template, by simp, h⟩
      · obtain ⟨other, hother, hname⟩ := ih h
        exact ⟨other, List.mem_cons_of_mem _ hother, hname⟩

theorem renderRelations_infix {entry : List Char × List Char} (relation : List Char → List Char)
    (h : entry ∈ relations) :
    relation entry.1 <:+: renderRelations relation relations ∧
      entry.2 <:+: renderRelations relation relations := by
  induction relations with
  | nil => simp at h
  | cons other relations ih =>
    rcases List.mem_cons.mp h with rfl | h
    · exact ⟨⟨[], entry.2 ++ renderRelations relation relations, by simp [renderRelations]⟩,
        ⟨relation entry.1, renderRelations relation relations, by simp [renderRelations]⟩⟩
    · have hsuffix :
        renderRelations relation relations <:+: renderRelations relation (other :: relations) :=
        ⟨relation other.1 ++ other.2, [], by simp [renderRelations]⟩
      exact ⟨(ih h).1.trans hsuffix, (ih h).2.trans hsuffix⟩

theorem Template.plain_of_render
    (hnames : ∀ entry ∈ template.relations, IsIdentifier tables entry.1)
    (hnone : ¬ placeholder <:+: template.render id) : template.Plain tables placeholder := by
  have hrelations : renderRelations id template.relations <:+: template.render id :=
    ⟨template.head, [], by simp [render]⟩
  constructor
  · exact fun h => hnone (h.trans ⟨[], renderRelations id template.relations, by simp [render]⟩)
  · intro entry hentry
    obtain ⟨hname, hfollowing⟩ := renderRelations_infix id hentry
    exact ⟨hnames entry hentry, fun h => hnone (h.trans (hname.trans hrelations)),
      fun h => hnone (h.trans (hfollowing.trans hrelations))⟩

end SqlTide.SqlText

namespace SqlTide.SqlAnalysis

open Foundations SqlText

structure ResolvedQuery where
  canonicalSql : List Char
  databaseTemplate : List Char
  deriving DecidableEq, Repr

def rejectReservedDatabasePlaceholder (sql placeholder : List Char) : AnalysisResult Unit :=
  if placeholder <:+: sql then
    .error ⟨"SQL contains the reserved adapter database placeholder"⟩
  else .ok ()

/-- The text of a target's relation, with a text for each relation of its own. -/
def rendered (relation : String → AnalysisResult Template) (text : List Char → List Char)
    (target : String) : AnalysisResult (List Char) :=
  (relation target).map fun template => template.render text

/-- `RelationCache::resolve`, where the parsed model is checked first and the relation of a target
is parsed by the dialect. -/
def resolve (checked : AnalysisResult Unit) (relation : String → AnalysisResult Template)
    (authored : List Char) (references : List SqlReference) (resolver : String → Option String)
    (placeholder : List Char) : AnalysisResult ResolvedQuery := do
  checked
  let ordered := references.insertionSort fun a b => a.span.start ≤ b.span.start
  let canonicalSql ← substituted authored ordered resolver (rendered relation id)
  rejectReservedDatabasePlaceholder canonicalSql placeholder
  rejectReservedDatabasePlaceholder authored placeholder
  let databaseTemplate ←
    substituted authored ordered resolver (rendered relation (placeholderRelation placeholder))
  .ok ⟨canonicalSql, databaseTemplate⟩

/-- The template of an authored text: its references are replaced by the templates of their
targets. -/
def authoredTemplate (sql : List Char) (references : List SqlReference)
    (template : SqlReference → Template) : Template :=
  Template.interleave (Splice.gaps sql 0 (references.map (spliceOf fun _ => [])))
    (references.map template)

/-- The template of each reference's target. -/
def HasTemplates (resolver : String → Option String) (relation : String → AnalysisResult Template)
    (references : List SqlReference) (template : SqlReference → Template) : Prop :=
  ∀ reference ∈ references, ∃ target,
    resolver reference.name = some target ∧ relation target = .ok (template reference)

variable {tables : PythonTables} {sql placeholder : List Char} {references : List SqlReference}
  {resolver : String → Option String} {relation : String → AnalysisResult Template}
  {template : SqlReference → Template} {text : List Char → List Char}
  {checked : AnalysisResult Unit} {resolved : ResolvedQuery}

theorem gaps_spliceOf (f g : SqlReference → List Char) (cursor : ℕ) :
    Splice.gaps sql cursor (references.map (spliceOf f)) =
      Splice.gaps sql cursor (references.map (spliceOf g)) := by
  induction references generalizing cursor with
  | nil => rfl
  | cons reference references ih =>
    simp only [List.map_cons, Splice.gaps]
    exact congrArg _ (ih _)

theorem HasTemplates.assigns (h : HasTemplates resolver relation references template) :
    Assigns resolver (rendered relation text) references
      fun reference => (template reference).render text := by
  intro reference hreference
  obtain ⟨target, htarget, hrelation⟩ := h reference hreference
  rw [relationOf, htarget]
  show rendered relation text target = _
  rw [rendered, hrelation]
  rfl

/-- What the references become is the text of the authored template. -/
theorem HasTemplates.substituted_eq (h : HasTemplates resolver relation references template)
    (hread : ReferencesRead tables sql 0 references) :
    substituted sql references resolver (rendered relation text) =
      .ok ((authoredTemplate sql references template).render text) := by
  rw [SqlAnalysis.substituted_eq h.assigns (hread.inOrder _), Splice.forward_eq_interleave,
    authoredTemplate, Template.render_interleave, List.map_map, List.map_map,
    gaps_spliceOf _ (fun _ => [])]
  rfl

theorem exists_hasTemplates {rendering : List Char}
    (h : substituted sql references resolver (rendered relation text) = .ok rendering) :
    ∃ template, HasTemplates resolver relation references template := by
  have hassigned := assigns_of_substitutedLoop h
  have hall : ∀ reference ∈ references, ∃ template target,
      resolver reference.name = some target ∧ relation target = .ok template := by
    intro reference hreference
    obtain ⟨rendering, hrendering⟩ := hassigned reference hreference
    obtain ⟨target, htarget, hrender⟩ := relationOf_ok hrendering
    cases hrelation : relation target with
    | error error => simp [rendered, hrelation, Except.map] at hrender
    | ok template => exact ⟨template, target, htarget, hrelation⟩
  choose! template htemplate using hall
  exact ⟨template, htemplate⟩

theorem insertionSort_references (h : ReferencesRead tables sql 0 references) :
    references.insertionSort (fun a b => a.span.start ≤ b.span.start) = references := by
  apply List.Pairwise.insertionSort_eq
  obtain ⟨hspans, hpairs⟩ := h.spans
  refine List.Pairwise.imp_of_mem (fun {a b} ha _ hab => ?_) hpairs
  have := (hspans a ha).2.1
  omega

theorem resolve_ok (hread : ReferencesRead tables sql 0 references)
    (h : resolve checked relation sql references resolver placeholder = .ok resolved) :
    ∃ template, HasTemplates resolver relation references template ∧
      ¬ placeholder <:+: (authoredTemplate sql references template).render id ∧
      resolved.databaseTemplate =
        (authoredTemplate sql references template).render (placeholderRelation placeholder) := by
  unfold resolve at h
  rw [insertionSort_references hread] at h
  obtain ⟨_, -, h⟩ := bind_eq_ok.mp h
  obtain ⟨canonicalSql, hcanonical, h⟩ := bind_eq_ok.mp h
  obtain ⟨_, hreserved, h⟩ := bind_eq_ok.mp h
  obtain ⟨_, -, h⟩ := bind_eq_ok.mp h
  obtain ⟨databaseTemplate, htemplate, h⟩ := bind_eq_ok.mp h
  cases h
  obtain ⟨template, htemplates⟩ := exists_hasTemplates hcanonical
  rw [htemplates.substituted_eq hread] at hcanonical htemplate
  cases hcanonical
  cases htemplate
  refine ⟨template, htemplates, fun hinfix => ?_, rfl⟩
  rw [rejectReservedDatabasePlaceholder, if_pos hinfix] at hreserved
  exact absurd hreserved (by simp)

theorem HasTemplates.names (sql : List Char)
    (h : HasTemplates resolver relation references template)
    (hnames : ∀ target parsed, relation target = .ok parsed →
      ∀ entry ∈ parsed.relations, IsIdentifier tables entry.1) :
    ∀ entry ∈ (authoredTemplate sql references template).relations,
    IsIdentifier tables entry.1 := by
  intro entry hentry
  obtain ⟨parsed, hparsed, hname⟩ := Template.names_interleave (List.mem_map_of_mem hentry)
  obtain ⟨reference, hreference, rfl⟩ := List.mem_map.mp hparsed
  obtain ⟨target, -, hrelation⟩ := h reference hreference
  obtain ⟨other, hother, hsame⟩ := List.mem_map.mp hname
  rw [← hsame]
  exact hnames target _ hrelation other hother

/-- The rewritten template is what direct substitution at the references gives, for every mapping
and in every order. -/
def RewritesSubstitute (tables : PythonTables) (sql : List Char) (references : List SqlReference)
    (resolver : String → Option String) (relation : String → AnalysisResult Template)
    (placeholder databaseTemplate : List Char) : Prop :=
  ∀ rewrites, IsMapping tables placeholder rewrites → ∀ order : List RelationRewrite,
    order.Perm rewrites →
      substituted sql references resolver (rendered relation (targetOf rewrites placeholder)) =
        .ok (rewriteTemplateRelations tables databaseTemplate order placeholder)

/-- The rewrites of a resolved template substitute the targets at the references, whatever the
mapping and the order, if and only if every relation stands alone in the authored text. -/
theorem rewritesSubstitute_iff (hextract : extractReferences tables sql = .ok references)
    (hplaceholder : IsIdentifier tables placeholder)
    (hnames : ∀ target parsed, relation target = .ok parsed →
      ∀ entry ∈ parsed.relations, IsIdentifier tables entry.1)
    (hresolve : resolve checked relation sql references resolver placeholder = .ok resolved) :
    ∃ template, HasTemplates resolver relation references template ∧
      (RewritesSubstitute tables sql references resolver relation placeholder
          resolved.databaseTemplate ↔
        (authoredTemplate sql references template).StandAlone tables placeholder) := by
  have hread := extractReferences_read hextract
  obtain ⟨template, htemplates, hnone, hdatabase⟩ := resolve_ok hread hresolve
  have hplain := Template.plain_of_render (htemplates.names sql hnames) hnone
  refine ⟨template, htemplates, ?_⟩
  rw [← substitutes_iff hplaceholder hplain, hdatabase]
  have hdirect : ∀ rewrites : List RelationRewrite, ∀ text : List Char,
      substituted sql references resolver (rendered relation (targetOf rewrites placeholder)) =
        .ok text ↔
        text = (authoredTemplate sql references template).render
          (targetOf rewrites placeholder) := by
    intro rewrites text
    rw [htemplates.substituted_eq hread, Except.ok.injEq]
    exact eq_comm
  constructor
  · intro h rewrites hmapping order hperm
    exact (hdirect rewrites _).mp (h rewrites hmapping order hperm)
  · intro h rewrites hmapping order hperm
    exact (hdirect rewrites _).mpr (h rewrites hmapping order hperm)

/-- The placeholder of the adapters. -/
def adapterDatabasePlaceholder : List Char := "__sqltide_target_database__".toList

def aliasResolver (name : String) : Option String := if name = "orders" then some "orders" else none

/-- A target that is a single relation. -/
def singleRelation (target : String) : AnalysisResult Template :=
  if target = "orders" then .ok ⟨[], [("orders".toList, [])]⟩ else .error ⟨unresolvedRef target⟩

def spacedTemplate : List Char := "SELECT * FROM __ref(orders) AS o".toList

def unspacedTemplate : List Char := "SELECT * FROM __ref(orders)AS o".toList

/-- The reference of both texts. -/
def aliasReference (sql : List Char) : SqlReference := ⟨"orders", .ref, none, sourceSpan sql 14 27⟩

theorem adapterDatabasePlaceholder_isIdentifier :
    IsIdentifier asciiTables adapterDatabasePlaceholder :=
  ⟨⟨'_', rfl, rfl⟩, List.all_eq_true.mp (by decide)⟩

theorem ordersName_isIdentifier : IsIdentifier asciiTables "orders".toList :=
  ⟨⟨'o', rfl, rfl⟩, List.all_eq_true.mp (by decide)⟩

theorem singleRelation_names : ∀ target parsed, singleRelation target = .ok parsed →
    ∀ entry ∈ parsed.relations, IsIdentifier asciiTables entry.1 := by
  intro target parsed h entry hentry
  unfold singleRelation at h
  split_ifs at h
  cases h
  obtain rfl := List.mem_singleton.mp hentry
  exact ordersName_isIdentifier

/-- With a space before the alias, the rewrites substitute. -/
theorem rewritesSubstitute_iff_spaced :
    ∃ resolved, resolve (.ok ()) singleRelation spacedTemplate [aliasReference spacedTemplate]
        aliasResolver adapterDatabasePlaceholder = .ok resolved ∧
      RewritesSubstitute asciiTables spacedTemplate [aliasReference spacedTemplate] aliasResolver
        singleRelation adapterDatabasePlaceholder resolved.databaseTemplate := by
  have hextract : extractReferences asciiTables spacedTemplate =
    .ok [aliasReference spacedTemplate] := by
    decide +kernel
  have hresolve : resolve (.ok ()) singleRelation spacedTemplate [aliasReference spacedTemplate]
      aliasResolver adapterDatabasePlaceholder =
        .ok ⟨"SELECT * FROM orders AS o".toList,
          "SELECT * FROM __sqltide_target_database__.orders AS o".toList⟩ := by decide +kernel
  obtain ⟨template, htemplates, hiff⟩ := rewritesSubstitute_iff hextract
    adapterDatabasePlaceholder_isIdentifier singleRelation_names hresolve
  refine ⟨_, hresolve, hiff.mpr ?_⟩
  obtain ⟨target, htarget, hrelation⟩ := htemplates (aliasReference spacedTemplate) (by simp)
  obtain rfl : "orders" = target := Option.some.inj htarget
  have htemplate : (⟨[], [("orders".toList, [])]⟩ : Template) =
      template (aliasReference spacedTemplate) := Except.ok.inj hrelation
  have hauthored : authoredTemplate spacedTemplate [aliasReference spacedTemplate] template =
      ⟨"SELECT * FROM ".toList, [("orders".toList, " AS o".toList)]⟩ := by
    rw [authoredTemplate, List.map_singleton, List.map_singleton, ← htemplate]
    decide +kernel
  rw [hauthored]
  refine ⟨⟨fun character hlast => ?_, by decide, fun rest hrest => ?_⟩, trivial⟩
  · obtain rfl : ' ' = character := Option.some.inj hlast
    decide
  · have hhead : some ' ' = some '.' := congrArg List.head? hrest
    exact absurd hhead (by decide)

/-- The rewrite misses a relation whose alias follows its call without a space. -/
theorem not_rewritesSubstitute :
    ¬ ∀ (tables : PythonTables) (sql : List Char) (references : List SqlReference)
      (resolver : String → Option String) (relation : String → AnalysisResult Template)
      (checked : AnalysisResult Unit) (placeholder : List Char) (resolved : ResolvedQuery),
      extractReferences tables sql = .ok references → IsIdentifier tables placeholder →
      (∀ target parsed, relation target = .ok parsed →
        ∀ entry ∈ parsed.relations, IsIdentifier tables entry.1) →
      resolve checked relation sql references resolver placeholder = .ok resolved →
      RewritesSubstitute tables sql references resolver relation placeholder
        resolved.databaseTemplate := by
  intro h
  have hrewrites := h asciiTables unspacedTemplate [aliasReference unspacedTemplate] aliasResolver
    singleRelation (.ok ()) adapterDatabasePlaceholder
    ⟨"SELECT * FROM ordersAS o".toList,
      "SELECT * FROM __sqltide_target_database__.ordersAS o".toList⟩ (by decide +kernel)
    adapterDatabasePlaceholder_isIdentifier singleRelation_names (by decide +kernel)
    [⟨"orders".toList, "analytics.orders_v1".toList, false⟩]
    (isMapping_single ordersName_isIdentifier (by decide)) _ (List.Perm.refl _)
  revert hrewrites
  decide +kernel

end SqlTide.SqlAnalysis
