import SqlTide.SqlText.TemplateRelations

/-!
# Relations that do not stand alone

The first relation of a template that does not stand alone shows in the rewritten text: some
mapping does not reach it, or makes a relation of another name of it on the way.
-/

namespace SqlTide.SqlText

open Foundations BoundedTokens List

variable {tables : PythonTables} {placeholder name source text rest word before between : List Char}
  {relations : List (List Char × List Char)} {relation : List Char → List Char}

/-- The text just before the relation that comes after the others. -/
def textBefore (text : List Char) : List (List Char × List Char) → List Char
  | [] => text
  | (name, between) :: relations => textBefore (name ++ between) relations

theorem renderRelations_append (first later : List (List Char × List Char)) :
    renderRelations relation (first ++ later) =
      renderRelations relation first ++ renderRelations relation later := by
  induction first with
  | nil => rfl
  | cons entry first ih => simp [renderRelations, ih]

theorem exists_first_collision (h : ¬ AllStandAlone tables placeholder text relations rest) :
    ∃ first name between later, relations = first ++ (name, between) :: later ∧
      AllStandAlone tables placeholder text first
        (renderRelations (placeholderRelation placeholder) ((name, between) :: later) ++ rest) ∧
      ¬ StandsAlone tables name (textBefore text first)
        (between ++ renderRelations (placeholderRelation placeholder) later ++ rest) := by
  induction relations generalizing text with
  | nil => exact absurd trivial h
  | cons entry relations ih =>
    obtain ⟨name, between⟩ := entry
    by_cases halone : StandsAlone tables name text
        (between ++ renderRelations (placeholderRelation placeholder) relations ++ rest)
    · have hmore : ¬ AllStandAlone tables placeholder (name ++ between) relations rest :=
        fun hmore => h ⟨halone, hmore⟩
      obtain ⟨first, name', between', later, rfl, hfirst, hcollision⟩ := ih hmore
      refine ⟨(name, between) :: first, name', between', later, rfl, ⟨?_, hfirst⟩, hcollision⟩
      rw [renderRelations_append] at halone
      simpa using halone
    · exact ⟨[], name, between, relations, rfl, trivial, halone⟩

/-- What is before a relation ends like the gap, whatever the relations before it are. -/
theorem lastOf_renderRelations (hplaceholder : IsIdentifier tables placeholder)
    (hrest : ∃ more, rest = placeholder ++ '.' :: more)
    (h : AllStandAlone tables placeholder text relations rest) :
    lastOf text.getLast? (renderRelations relation relations) =
      (textBefore text relations).getLast? := by
  induction relations generalizing text with
  | nil => rfl
  | cons entry relations ih =>
    obtain ⟨name, between⟩ := entry
    obtain ⟨halone, hmore⟩ := h
    have hne : between ≠ [] := by
      rintro rfl
      obtain ⟨first, placeholder', rfl, hstart, -⟩ := hplaceholder.exists_cons
      apply halone.separated
      obtain ⟨more, rfl⟩ := hrest
      cases relations with
      | nil => exact ⟨first, rfl, isIdentifierCharacter_of_start hstart⟩
      | cons entry relations => exact ⟨first, rfl, isIdentifierCharacter_of_start hstart⟩
    have hgap : ∀ text : List Char, (text ++ between).getLast? = between.getLast? :=
      fun text => getLast?_append_of_ne_nil _ hne
    obtain ⟨last, hlast⟩ := Option.isSome_iff_exists.mp (getLast?_isSome.mpr hne)
    have hih := ih hmore
    rw [hgap] at hih
    rw [textBefore, ← hih, renderRelations, lastOf_append]
    congr 1
    rw [lastOf, hgap, hlast]
    rfl

/-- A token begins in a word only where the word goes on as its placeholder. -/
theorem eq_placeholder_of_begins
    (hplaceholder : ∀ c ∈ placeholder, isIdentifierCharacter tables c = true)
    (hword : ∀ c ∈ word, isIdentifierCharacter tables c = true)
    (hrest : ¬ ContinuesName tables rest)
    (h : placeholderRelation placeholder source <+: word ++ rest) :
    word = placeholder ∧ ∃ more, rest = '.' :: source ++ more := by
  obtain ⟨excess, rfl⟩ := prefix_of_prefix_append hplaceholder hrest (prefix_placeholder h)
  rw [placeholderRelation, append_assoc, prefix_append_right_inj] at h
  cases excess with
  | nil =>
    obtain ⟨more, hmore⟩ := h
    exact ⟨append_nil _, more, hmore.symm⟩
  | cons character excess =>
    have hdot := (cons_prefix_cons.mp h).1
    have hcharacter := hword character (by simp)
    rw [← hdot, dot_not_identifier] at hcharacter
    exact absurd hcharacter (by simp)

variable {replacement : List Char} {last : Option Char} {template : Template}

/-- A pass does not make a text go on like an identifier. -/
theorem replaceFrom_not_continuesName
    (hplaceholder : IsIdentifier tables placeholder) (hrest : ¬ ContinuesName tables rest) :
    ¬ ContinuesName tables (replaceFrom (isIdentifierCharacter tables)
      (placeholderRelation placeholder source) replacement last rest) := by
  cases rest with
  | nil => exact hrest
  | cons character rest =>
    have hnone : ¬ placeholderRelation placeholder source <+: character :: rest := by
      obtain ⟨first, placeholder', rfl, hstart, -⟩ := hplaceholder.exists_cons
      intro h
      obtain ⟨rfl, -⟩ := cons_prefix_cons.mp (prefix_placeholder h)
      exact hrest ⟨first, rfl, isIdentifierCharacter_of_start hstart⟩
    rw [replaceFrom_cons placeholderRelation_ne_nil hnone]
    exact hrest

theorem replaceFrom_word (hplaceholder : ∀ c ∈ placeholder, isIdentifierCharacter tables c = true)
    (hword : ∀ c ∈ word, isIdentifierCharacter tables c = true)
    (hrest : ¬ ContinuesName tables rest) (hnone : ∀ left right, word = left ++ right → right ≠ [] →
      ¬ (right = placeholder ∧ ∃ more, rest = '.' :: source ++ more)) :
    replaceFrom (isIdentifierCharacter tables) (placeholderRelation placeholder source) replacement
        last (word ++ rest) =
      word ++ replaceFrom (isIdentifierCharacter tables) (placeholderRelation placeholder source)
        replacement (lastOf last word) rest := by
  apply replaceFrom_harmless placeholderRelation_ne_nil _ le_rfl
  apply Harmless.of_none
  intro left right hsplit hright htoken
  exact hnone left right hsplit hright (eq_placeholder_of_begins hplaceholder
    (fun c hc => hword c (by rw [hsplit]; exact List.mem_append_right _ hc)) hrest htoken)

/-- A pass that leaves the placeholder of a relation keeps the first word after a dot. -/
theorem exists_replaceFrom_member (source : List Char) (last : Option Char)
    (hplaceholder : IsIdentifier tables placeholder)
    (hword : ∀ c ∈ word, isIdentifierCharacter tables c = true)
    (hrest : ¬ ContinuesName tables rest) :
    ∃ after, replaceFrom (isIdentifierCharacter tables) (placeholderRelation placeholder source)
        placeholder last (word ++ rest) = word ++ after ∧ ¬ ContinuesName tables after := by
  by_cases hends : (∃ left, word = left ++ placeholder) ∧ ∃ more, rest = '.' :: source ++ more
  · obtain ⟨⟨left, rfl⟩, more, rfl⟩ := hends
    have htext : left ++ placeholder ++ ('.' :: source ++ more) =
        left ++ (placeholderRelation placeholder source ++ more) := by
      simp [placeholderRelation]
    have hleft : replaceFrom (isIdentifierCharacter tables) (placeholderRelation placeholder source)
        placeholder last (left ++ (placeholderRelation placeholder source ++ more)) =
        left ++ replaceFrom (isIdentifierCharacter tables) (placeholderRelation placeholder source)
          placeholder (lastOf last left) (placeholderRelation placeholder source ++ more) := by
      apply replaceFrom_harmless placeholderRelation_ne_nil _ le_rfl
      apply Harmless.of_none
      rintro before right rfl hright htoken
      have htoken' : placeholderRelation placeholder source <+:
          (right ++ placeholder) ++ ('.' :: source ++ more) := by
        simpa [placeholderRelation] using htoken
      have hlonger := (eq_placeholder_of_begins hplaceholder.all
        (fun c hc => hword c (by rw [append_assoc]; exact List.mem_append_right _ hc)) hrest
        htoken').1
      have hlength := congrArg List.length hlonger
      rw [length_append] at hlength
      have hpositive := length_pos_of_ne_nil hright
      omega
    rw [htext, hleft, replaceFrom_token placeholderRelation_ne_nil]
    split_ifs with hbounded
    · refine ⟨_, (append_assoc ..).symm, ?_⟩
      apply replaceFrom_not_continuesName hplaceholder
      rintro ⟨character, hcharacter, hidentifier⟩
      rw [Option.mem_def.mp hcharacter, bounded_eq_false_of_after hidentifier] at hbounded
      exact absurd hbounded (by simp)
    · refine ⟨'.' :: source ++ replaceFrom (isIdentifierCharacter tables)
        (placeholderRelation placeholder source) placeholder
        (lastOf (lastOf last left) (placeholderRelation placeholder source)) more, ?_, ?_⟩
      · simp [placeholderRelation]
      · rw [cons_append, continuesName_cons, dot_not_identifier]
        simp
  · rw [replaceFrom_word hplaceholder.all hword hrest]
    · exact ⟨_, rfl, replaceFrom_not_continuesName hplaceholder hrest⟩
    · rintro left right rfl - ⟨rfl, hmore⟩
      exact hends ⟨⟨left, rfl⟩, hmore⟩

theorem exists_other_name (tables : PythonTables) (placeholder : List Char) :
    ∃ character, isIdentifierStart tables character = true ∧
    placeholder.head? ≠ some character := by
  by_cases hhead : placeholder.head? = some 'x'
  · refine ⟨'y', rfl, ?_⟩
    rw [hhead]
    decide
  · exact ⟨'x', rfl, hhead⟩

theorem not_hasBounded_of_length {token : List Char} (h : text.length < token.length) :
    ¬ HasBounded tables token text := by
  rintro ⟨left, after, rfl, -⟩
  simp only [length_append] at h
  omega

theorem placeholderRelation_pending (hplaceholder : IsIdentifier tables placeholder)
    (hname : IsIdentifier tables name) : Pending tables placeholder name
      (placeholderRelation placeholder) :=
  ⟨rfl, fun _ hother hnone hne =>
    not_hasBounded_placeholderRelation hplaceholder hother hnone hname hne⟩

theorem render_collision {first later : List (List Char × List Char)}
    (h : template.relations = first ++ (name, between) :: later) :
    template.render relation = template.head ++ (renderRelations relation first ++
      (relation name ++ (between ++ renderRelations relation later))) := by
  rw [Template.render, h, renderRelations_append]
  simp [renderRelations]

theorem renders_placeholder (placeholder : List Char) (entry : List Char × List Char)
    (later : List (List Char × List Char)) :
    ∃ more, renderRelations (placeholderRelation placeholder) (entry :: later) =
      placeholder ++ '.' :: more :=
  ⟨entry.1 ++ entry.2 ++ renderRelations (placeholderRelation placeholder) later, by
    simp [renderRelations, placeholderRelation]⟩

/-- The rewrites of a template give the direct substitution, for one mapping in its own order. -/
def Substitutes (tables : PythonTables) (placeholder : List Char) (template : Template)
    (rewrites : List RelationRewrite) : Prop :=
  rewriteTemplateRelations tables (template.render (placeholderRelation placeholder)) rewrites
    placeholder = template.render (targetOf rewrites placeholder)

section
variable {template : Template} {first later : List (List Char × List Char)}

/-- A relation that is reached by the rewrite of its name is a bounded token. -/
theorem bounded_of_substitutes {character : Char} (hplaceholder : IsIdentifier tables placeholder)
    (hother : placeholder.head? ≠ some character) (hplain : template.Plain tables placeholder)
    (hrelations : template.relations = first ++ (name, between) :: later)
    (hfirst : AllStandAlone tables placeholder template.head first
      (renderRelations (placeholderRelation placeholder) ((name, between) :: later)))
    (h : Substitutes tables placeholder template [⟨name, [character], false⟩]) :
    bounded (isIdentifierCharacter tables) (textBefore template.head first).getLast?
      (between ++ renderRelations (placeholderRelation placeholder) later).head? = true := by
  have hentry : (name, between) ∈ template.relations := by simp [hrelations]
  have hname : IsIdentifier tables name := (hplain.relations _ hentry).1
  have hmore := renders_placeholder placeholder (name, between) later
  have hplain' : PlainRelations tables placeholder first := fun entry hmem =>
    hplain.relations entry (by rw [hrelations]; exact List.mem_append_left _ hmem)
  have hpass := replaceFrom_template [character] hplaceholder hname hplain.head hplain'
    hfirst (Or.inr ⟨hmore, hmore⟩) (placeholderRelation_pending hplaceholder hname)
  have hafter : renderRelations (placeholderRelation placeholder) ((name, between) :: later) =
      placeholderRelation placeholder name ++
        (between ++ renderRelations (placeholderRelation placeholder) later) := by
    simp [renderRelations]
  have htarget : targetOf [⟨name, [character], false⟩] placeholder =
      Function.update (placeholderRelation placeholder) name [character] :=
    funext fun _ => (updated_eq_targetOf (by simp)).symm
  rw [Substitutes, htarget, render_collision hrelations, render_collision hrelations, ← hafter] at h
  replace h := hpass.symm.trans h
  rw [append_cancel_left_eq, append_cancel_left_eq, hafter,
    replaceFrom_token placeholderRelation_ne_nil, lastOf_renderRelations hplaceholder hmore hfirst,
    Function.update_self] at h
  cases hbounded : bounded (isIdentifierCharacter tables) (textBefore template.head first).getLast?
      (between ++ renderRelations (placeholderRelation placeholder) later).head? with
  | true => rfl
  | false =>
    rw [hbounded] at h
    obtain ⟨start, placeholder', rfl, -, -⟩ := hplaceholder.exists_cons
    obtain ⟨rfl, -⟩ := List.cons.inj h
    exact absurd rfl hother

/-- A relation that stays the placeholder of its member's relation is the member's own. -/
theorem member_of_substitutes {character : Char} (hplaceholder : IsIdentifier tables placeholder)
    (hother : placeholder.head? ≠ some character) (hplain : template.Plain tables placeholder)
    (hrelations : template.relations = first ++ (name, '.' :: between) :: later)
    (hfirst : AllStandAlone tables placeholder template.head first
      (renderRelations (placeholderRelation placeholder) ((name, '.' :: between) :: later)))
    (hlast : ∀ c ∈ (textBefore template.head first).getLast?,
    isIdentifierCharacter tables c = false) (hword : IsIdentifier tables word) (hne : name ≠ word)
    (hsplit : between ++ renderRelations (placeholderRelation placeholder) later = word ++ rest)
    (hrest : ¬ ContinuesName tables rest) (h : Substitutes tables placeholder template
      [⟨name, placeholder, false⟩, ⟨word, [character], false⟩]) : False := by
  have hentry : (name, '.' :: between) ∈ template.relations := by simp [hrelations]
  have hname : IsIdentifier tables name := (hplain.relations _ hentry).1
  have hmore := renders_placeholder placeholder (name, '.' :: between) later
  have hplain' : PlainRelations tables placeholder first := fun entry hmem =>
    hplain.relations entry (by rw [hrelations]; exact List.mem_append_left _ hmem)
  have hafter : renderRelations (placeholderRelation placeholder)
    ((name, '.' :: between) :: later) =
      placeholderRelation placeholder name ++ ('.' :: (word ++ rest)) := by
    rw [← hsplit]
    simp [renderRelations]
  have hbounded : ∀ {text : List Char}, ¬ ContinuesName tables text →
      bounded (isIdentifierCharacter tables) (textBefore template.head first).getLast? text.head? =
        true := bounded_of_not_continuesName hlast
  -- the first pass leaves the placeholder, with the word as its member
  obtain ⟨after, hmember, hafter'⟩ := exists_replaceFrom_member name (some '.') hplaceholder
    hword.all hrest
  have hpass := replaceFrom_template placeholder hplaceholder hname hplain.head hplain'
    hfirst (Or.inr ⟨hmore, hmore⟩) (placeholderRelation_pending hplaceholder hname)
  have hdot : ¬ placeholderRelation placeholder name <+: '.' :: (word ++ rest) := by
    intro hprefix
    exact absurd (prefix_placeholder hprefix) (not_prefix_dot hplaceholder)
  have hcontinues : ¬ ContinuesName tables ('.' :: (word ++ rest)) := by
    rw [continuesName_cons, dot_not_identifier]
    simp
  rw [hafter, replaceFrom_token placeholderRelation_ne_nil,
    lastOf_renderRelations hplaceholder hmore hfirst, hbounded hcontinues, if_pos rfl,
    replaceFrom_cons placeholderRelation_ne_nil hdot, hmember, ← hafter] at hpass
  -- the second pass takes the two for the relation of the word
  have hpending : Pending tables placeholder word
      (Function.update (placeholderRelation placeholder) name placeholder) :=
    (placeholderRelation_pending hplaceholder hword).update hne.symm
      (not_hasBounded_of_length (by simp [placeholderRelation]))
  have htrailing : Trailing placeholder
      (renderRelations (placeholderRelation placeholder) ((name, '.' :: between) :: later))
      (placeholder ++ '.' :: (word ++ after)) := Or.inr ⟨hmore, _, rfl⟩
  have hpass' := replaceFrom_template [character] hplaceholder hword hplain.head hplain' hfirst
    htrailing hpending
  have htoken : placeholder ++ '.' :: (word ++ after) =
      placeholderRelation placeholder word ++ after := by
    simp [placeholderRelation]
  rw [htoken] at hpass
  rw [htoken, replaceFrom_token placeholderRelation_ne_nil,
    lastOf_renderRelations hplaceholder hmore hfirst, hbounded hafter', if_pos rfl] at hpass'
  have htarget : targetOf [⟨name, placeholder, false⟩, ⟨word, [character], false⟩] placeholder =
      Function.update (Function.update (placeholderRelation placeholder) name placeholder) word
        [character] :=
    funext fun _ => (updated_eq_targetOf (by simpa using hne)).symm
  rw [Substitutes, htarget, render_collision hrelations, render_collision hrelations,
    cons_append, hsplit, ← hafter, Function.update_of_ne hne, Function.update_self] at h
  replace h := ((congrArg (fun text => replaceBoundedToken tables text
    (placeholderRelation placeholder word) [character]) hpass).trans hpass').symm.trans h
  rw [append_cancel_left_eq, append_cancel_left_eq] at h
  obtain ⟨start, placeholder', rfl, -, -⟩ := hplaceholder.exists_cons
  obtain ⟨rfl, -⟩ := List.cons.inj h
  exact absurd rfl hother

end

/-- One pair, with a target that is too short for a relation of the placeholder's. -/
theorem isMapping_single {target : List Char} (hname : IsIdentifier tables name)
    (hlength : target.length ≤ placeholder.length) :
    IsMapping tables placeholder [⟨name, target, false⟩] where
  names rewrite hrewrite := by
    obtain rfl := mem_singleton.mp hrewrite
    exact hname
  nodup := by simp
  fresh rewrite hrewrite other hother := by
    obtain rfl := mem_singleton.mp hrewrite
    obtain rfl := mem_singleton.mp hother
    have htarget : ((⟨name, target, false⟩ : RelationRewrite).replacement placeholder).length ≤
        placeholder.length := hlength
    apply not_hasBounded_of_length
    simp only [placeholderRelation, length_append, length_cons]
    omega

theorem isMapping_pair {character : Char} (hplaceholder : IsIdentifier tables placeholder)
    (hname : IsIdentifier tables name) (hword : IsIdentifier tables word) (hne : name ≠ word) :
    IsMapping tables placeholder [⟨name, placeholder, false⟩, ⟨word, [character], false⟩] where
  names rewrite hrewrite := by
    simp only [mem_cons, not_mem_nil, or_false] at hrewrite
    rcases hrewrite with rfl | rfl
    · exact hname
    · exact hword
  nodup := by simpa using hne
  fresh rewrite hrewrite other hother := by
    have hlength := hplaceholder.length_pos
    have hsource : 0 < other.sourceName.length := by
      simp only [mem_cons, not_mem_nil, or_false] at hother
      rcases hother with rfl | rfl
      · exact hname.length_pos
      · exact hword.length_pos
    have htarget : (rewrite.replacement placeholder).length ≤ placeholder.length := by
      simp only [mem_cons, not_mem_nil, or_false] at hrewrite
      rcases hrewrite with rfl | rfl
      · exact le_rfl
      · exact hlength
    apply not_hasBounded_of_length
    simp only [placeholderRelation, length_append, length_cons]
    omega

/-- The rewrites of a template, in any order, substitute the targets of every mapping if and only
if its relations stand alone. -/
theorem substitutes_iff (hplaceholder : IsIdentifier tables placeholder)
    (hplain : template.Plain tables placeholder) :
    (∀ rewrites, IsMapping tables placeholder rewrites → ∀ order : List RelationRewrite,
        order.Perm rewrites →
          rewriteTemplateRelations tables (template.render (placeholderRelation placeholder)) order
            placeholder = template.render (targetOf rewrites placeholder)) ↔
      template.StandAlone tables placeholder := by
  constructor
  · intro h
    by_contra hstand
    obtain ⟨first, name, between, later, hrelations, hfirst, hcollision⟩ :=
      exists_first_collision hstand
    obtain ⟨character, -, hother⟩ := exists_other_name tables placeholder
    rw [append_nil] at hfirst hcollision
    have hname : IsIdentifier tables name :=
      (hplain.relations (name, between) (by simp [hrelations])).1
    have hbounded := bounded_of_substitutes hplaceholder hother hplain hrelations hfirst
      (h [⟨name, [character], false⟩] (isMapping_single hname hplaceholder.length_pos) _
        (List.Perm.refl _))
    have hlast : ∀ c ∈ (textBefore template.head first).getLast?,
        isIdentifierCharacter tables c = false := by
      intro c hc
      rw [Option.mem_def.mp hc] at hbounded
      cases hcase : isIdentifierCharacter tables c <;> simp_all [bounded]
    have hseparated : ¬ ContinuesName tables
        (between ++ renderRelations (placeholderRelation placeholder) later) := by
      rintro ⟨c, hc, hidentifier⟩
      rw [Option.mem_def.mp hc, bounded_eq_false_of_after hidentifier] at hbounded
      exact absurd hbounded (by simp)
    refine hcollision ⟨hlast, hseparated, fun rest hrest hstarts => ?_⟩
    by_contra hne
    have hword : IsIdentifier tables (rest.takeWhile (isIdentifierCharacter tables)) := by
      obtain ⟨start, hstart, hidentifier⟩ := hstarts
      obtain ⟨rest, rfl⟩ := head?_eq_some_iff.mp hstart
      refine ⟨⟨start, ?_, hidentifier⟩, fun c hc => mem_takeWhile_imp hc⟩
      rw [takeWhile_cons, isIdentifierCharacter_of_start hidentifier]
      rfl
    obtain ⟨between, rfl, htail⟩ : ∃ between', between = '.' :: between' ∧
        between' ++ renderRelations (placeholderRelation placeholder) later = rest := by
      cases between with
      | nil =>
        cases later with
        | nil => simp [renderRelations] at hrest
        | cons entry later =>
          obtain ⟨more, hmore⟩ := renders_placeholder placeholder entry later
          obtain ⟨start, placeholder', rfl, hstart, -⟩ := hplaceholder.exists_cons
          rw [nil_append, hmore] at hseparated
          exact absurd ⟨start, rfl, isIdentifierCharacter_of_start hstart⟩ hseparated
      | cons character between =>
        obtain ⟨rfl, htail⟩ := List.cons.inj hrest
        exact ⟨between, rfl, htail⟩
    have hsplit := (htail.trans (takeWhile_append_dropWhile
      (p := isIdentifierCharacter tables)).symm)
    exact member_of_substitutes hplaceholder hother hplain hrelations hfirst hlast hword
      (Ne.symm hne) hsplit head_dropWhile
      (h _ (isMapping_pair hplaceholder hname hword (Ne.symm hne)) _ (List.Perm.refl _))
  · intro hstand rewrites hmapping order hperm
    exact rewriteTemplateRelations_eq hplaceholder hplain hstand hmapping hperm

end SqlTide.SqlText
