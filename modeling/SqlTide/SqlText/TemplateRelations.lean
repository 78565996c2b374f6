import SqlTide.Foundations.BoundedTokens
import SqlTide.SqlText.Names

/-!
# The relations of a template

A template is a text with relations of a database placeholder in it. One rewrite after another
replaces the relations of one name, wherever they are bounded tokens of the text.
-/

namespace SqlTide.SqlText

open Foundations BoundedTokens List Function

/-- `RelationRewrite`: one relation of the placeholder's, to be replaced in a template. -/
structure RelationRewrite where
  sourceName : List Char
  targetRelation : List Char
  preserveSourceDatabase : Bool
  deriving DecidableEq, Repr

/-- The relation of a name in the placeholder's database. -/
def placeholderRelation (placeholder name : List Char) : List Char := placeholder ++ '.' :: name

def RelationRewrite.replacement (placeholder : List Char) (rewrite : RelationRewrite) : List Char :=
  if rewrite.preserveSourceDatabase then placeholderRelation placeholder rewrite.targetRelation
  else rewrite.targetRelation

section
variable (tables : PythonTables)

def replaceBoundedToken (template token replacement : List Char) : List Char :=
  replaceFrom (isIdentifierCharacter tables) token replacement none template

def rewriteTemplateRelations (template : List Char) (rewrites : List RelationRewrite)
    (placeholder : List Char) : List Char :=
  rewrites.foldl
    (fun rewritten rewrite => replaceBoundedToken tables rewritten
      (placeholderRelation placeholder rewrite.sourceName) (rewrite.replacement placeholder))
    template

end

/-- A text with relations in it, each with the text that follows it. -/
structure Template where
  head : List Char
  relations : List (List Char × List Char)
  deriving DecidableEq, Repr, Inhabited

/-- Relations of a template and what follows them, with a text for every name. -/
def renderRelations (relation : List Char → List Char) : List (List Char × List Char) → List Char
  | [] => []
  | (name, following) :: relations => relation name ++ following ++
    renderRelations relation relations

def Template.render (relation : List Char → List Char) (template : Template) : List Char :=
  template.head ++ renderRelations relation template.relations

/-- What a mapping makes of a relation. -/
def targetOf (rewrites : List RelationRewrite) (placeholder name : List Char) : List Char :=
  match rewrites.find? fun rewrite => rewrite.sourceName = name with
  | some rewrite => rewrite.replacement placeholder
  | none => placeholderRelation placeholder name

section
variable (tables : PythonTables) (placeholder : List Char)

/-- A token occurs in a text as no part of a longer word. -/
def HasBounded (token text : List Char) : Prop :=
  ∃ before after, text = before ++ token ++ after ∧
    bounded (isIdentifierCharacter tables) before.getLast? after.head? = true

/-- A relation between other text: no name goes on before or after it, and it has no member of
another name. -/
structure StandsAlone (name before following : List Char) : Prop where
  last : ∀ character ∈ before.getLast?, isIdentifierCharacter tables character = false
  separated : ¬ ContinuesName tables following
  member : ∀ rest, following = '.' :: rest →
    (∃ first ∈ rest.head?, isIdentifierStart tables first = true) →
    rest.takeWhile (isIdentifierCharacter tables) = name

/-- Every relation stands alone in the text, between what is before and what comes at the end. -/
def AllStandAlone : List Char → List (List Char × List Char) → List Char → Prop
  | _, [], _ => True
  | before, (name, following) :: relations, rest =>
    StandsAlone tables name before
        (following ++ renderRelations (placeholderRelation placeholder) relations ++ rest) ∧
      AllStandAlone (name ++ following) relations rest

/-- The relations of a template stand alone. -/
def Template.StandAlone (template : Template) : Prop :=
  AllStandAlone tables placeholder template.head template.relations []

/-- A mapping of names to relations, none of which has a relation of one of the names in it. -/
structure IsMapping (rewrites : List RelationRewrite) : Prop where
  names : ∀ rewrite ∈ rewrites, IsIdentifier tables rewrite.sourceName
  nodup : (rewrites.map (·.sourceName)).Nodup
  fresh : ∀ rewrite ∈ rewrites, ∀ other ∈ rewrites,
    ¬ HasBounded tables (placeholderRelation placeholder other.sourceName)
      (rewrite.replacement placeholder)

end

variable {tables : PythonTables} {placeholder name source text rest word following : List Char}
  {before : Option Char} {relations : List (List Char × List Char)}
  {relation : List Char → List Char}

/-- A word that begins a text ends before what goes on like no identifier. -/
theorem prefix_of_prefix_append
    (hword : ∀ character ∈ word, isIdentifierCharacter tables character = true)
    (hrest : ¬ ContinuesName tables rest) (h : word <+: text ++ rest) : word <+: text := by
  obtain ⟨more, hmore⟩ := h
  rcases append_eq_append_iff.mp hmore with ⟨excess, rfl, -⟩ | ⟨excess, rfl, hexcess⟩
  · exact prefix_append word excess
  · cases excess with
    | nil => simp
    | cons character excess =>
      refine absurd ⟨character, ?_, hword character (by simp)⟩ hrest
      rw [hexcess]
      rfl

theorem dot_not_identifier : isIdentifierCharacter tables '.' = false := rfl

theorem not_prefix_of_dot
    (hword : ∀ character ∈ word, isIdentifierCharacter tables character = true)
    (hlength : text.length < word.length) : ¬ word <+: text ++ '.' :: rest := by
  rintro ⟨more, hmore⟩
  rcases append_eq_append_iff.mp hmore with ⟨excess, rfl, -⟩ | ⟨excess, rfl, hexcess⟩
  · simp at hlength
  · cases excess with
    | nil => simp at hlength
    | cons character excess =>
      obtain ⟨rfl, -⟩ := List.cons.inj hexcess
      have hdot := hword '.' (by simp)
      rw [dot_not_identifier] at hdot
      exact absurd hdot (by simp)

theorem not_prefix_dot (h : IsIdentifier tables name) : ¬ name <+: '.' :: rest := by
  intro hprefix
  have hempty : ([] : List Char).length < name.length := h.length_pos
  exact not_prefix_of_dot h.all hempty hprefix

theorem prefix_placeholder (h : placeholderRelation placeholder source <+: text) :
    placeholder <+: text := by
  obtain ⟨more, rfl⟩ := h
  exact ⟨'.' :: source ++ more, by simp [placeholderRelation]⟩

variable {last : Option Char} {character : Char} {left right : List Char}

theorem bounded_eq_false_of_after (h : isIdentifierCharacter tables character = true) :
    bounded (isIdentifierCharacter tables) last (some character) = false := by
  simp [bounded, h]

theorem continuesName_cons :
    ContinuesName tables (character :: rest) ↔ isIdentifierCharacter tables character = true := by
  simp [ContinuesName]

/-- Text without the placeholder, at the end or before no name or before a relation. -/
theorem harmless_text (source : List Char) (before : Option Char)
    (hplaceholder : ∀ c ∈ placeholder, isIdentifierCharacter tables c = true)
    (hnone : ¬ placeholder <:+: text)
    (hend : rest = [] ∨ (∃ last ∈ text.getLast?, isIdentifierCharacter tables last = false) ∨
      ∃ more, rest = placeholder ++ '.' :: more) :
    Harmless (isIdentifierCharacter tables) (placeholderRelation placeholder source) before text
      rest := by
  refine Harmless.of_none fun left right htext hright htoken => ?_
  obtain ⟨more, hmore⟩ := htoken
  rw [placeholderRelation, append_assoc] at hmore
  rcases append_eq_append_iff.mp hmore with ⟨excess, rfl, -⟩ | ⟨excess, hexcess, hrest⟩
  · exact hnone (htext ▸ ⟨left, excess, by simp⟩)
  · -- the placeholder begins in the text, and ends after it
    cases excess with
    | nil =>
      rw [append_nil] at hexcess
      rw [htext, ← hexcess] at hnone
      exact hnone ⟨left, [], by simp⟩
    | cons character excess =>
      rcases hend with rfl | ⟨last, hlast, hidentifier⟩ | ⟨after, rfl⟩
      · simp at hrest
      · have hmem : last ∈ right := by
          rw [htext, getLast?_append_of_ne_nil _ hright] at hlast
          exact mem_of_mem_getLast? hlast
        have hword := hplaceholder last (by rw [hexcess]; exact List.mem_append_left _ hmem)
        rw [hidentifier] at hword
        exact absurd hword (by simp)
      · have hlength : (character :: excess).length < placeholder.length := by
          have hpositive := length_pos_of_ne_nil hright
          rw [hexcess, length_append]
          omega
        have hprefix : placeholder <+: (character :: excess) ++ '.' :: (source ++ more) :=
          ⟨'.' :: after, by simpa using hrest⟩
        exact not_prefix_of_dot hplaceholder hlength hprefix

/-- Inside a name that does not contain it, the placeholder does not begin. -/
theorem not_placeholder_in_name
    (hplaceholder : ∀ c ∈ placeholder, isIdentifierCharacter tables c = true)
    (hnone : ¬ placeholder <:+: name) (hname : name = left ++ right)
    (hrest : ¬ ContinuesName tables rest) :
    ¬ placeholderRelation placeholder source <+: right ++ rest := by
  intro htoken
  obtain ⟨more, rfl⟩ := prefix_of_prefix_append hplaceholder hrest (prefix_placeholder htoken)
  exact hnone ⟨left, more, by rw [hname, append_assoc]⟩

theorem harmless_relation (before : Option Char) (hplaceholder : IsIdentifier tables placeholder)
    (hname : IsIdentifier tables name) (hnone : ¬ placeholder <:+: name)
    (hsource : IsIdentifier tables source) (hne : name ≠ source)
    (hrest : ¬ ContinuesName tables rest) :
    Harmless (isIdentifierCharacter tables) (placeholderRelation placeholder source) before
      (placeholderRelation placeholder name) rest := by
  intro left right hpiece hright htoken
  rcases append_eq_append_iff.mp hpiece.symm with ⟨inside, hinside, hdot⟩ | ⟨inside, rfl, hdot⟩
  · cases left with
    | nil =>
      obtain rfl : placeholder = inside := hinside
      rw [hdot] at htoken ⊢
      have hprefix : source <+: name ++ rest := by
        rw [placeholderRelation, append_assoc, prefix_append_right_inj] at htoken
        exact (cons_prefix_cons.mp htoken).2
      obtain ⟨more, rfl⟩ := prefix_of_prefix_append hsource.all hrest hprefix
      refine ⟨more, by simp [placeholderRelation], ?_⟩
      cases more with
      | nil => exact absurd (append_nil source) hne
      | cons character more =>
        exact bounded_eq_false_of_after (hname.all character (by simp))
    | cons first left =>
      rw [hdot] at htoken
      have hword := prefix_placeholder htoken
      rw [append_assoc] at hword
      refine absurd hword (not_prefix_of_dot hplaceholder.all ?_)
      rw [hinside]
      simp
  · cases inside with
    | nil =>
      -- the piece that is left begins with the dot
      rw [nil_append] at hdot
      rw [← hdot] at htoken
      have hword := prefix_placeholder htoken
      exact absurd hword (not_prefix_dot hplaceholder)
    | cons character inside =>
      obtain ⟨rfl, hinside⟩ := List.cons.inj hdot
      exact absurd htoken (not_placeholder_in_name hplaceholder.all hnone hinside hrest)

variable {target between rest' : List Char} {rewrite : RelationRewrite}

/-- Where a token begins in a target without it: it is part of a longer word, or it is the
placeholder at the end, with its member in what follows. -/
theorem occurrence_in_target
    (hplaceholder : IsIdentifier tables placeholder) (hsource : IsIdentifier tables source)
    (hfresh : ¬ HasBounded tables (placeholderRelation placeholder source) target)
    (hfollowing : ¬ ContinuesName tables following) (htarget : target = left ++ right)
    (htoken : placeholderRelation placeholder source <+: right ++ following) :
    (∃ after, right = placeholderRelation placeholder source ++ after ∧
      bounded (isIdentifierCharacter tables) (lastOf before left) (after ++ following).head? =
        false) ∨
      (right = placeholder ∧ ∃ more, following = '.' :: source ++ more) ∨ right = [] := by
  have hinside : ∀ after, right = placeholderRelation placeholder source ++ after →
      bounded (isIdentifierCharacter tables) (lastOf before left) (after ++ following).head? =
        false := by
    intro after hright
    rw [← Bool.not_eq_true]
    intro hbounded
    refine hfresh ⟨left, after, by rw [htarget, hright, append_assoc], ?_⟩
    simp only [bounded, Bool.and_eq_true] at hbounded ⊢
    constructor
    · cases hlast : left.getLast? with
      | none => rfl
      | some last =>
        have hsome : lastOf before left = some last := by simp [lastOf, hlast]
        rw [hsome] at hbounded
        exact hbounded.1
    · cases after with
      | nil => rfl
      | cons character after => exact hbounded.2
  obtain ⟨more, hmore⟩ := htoken
  rcases append_eq_append_iff.mp hmore with ⟨after, hright, -⟩ | ⟨inside, hsplit, hfollow⟩
  · exact Or.inl ⟨after, hright, hinside after hright⟩
  · cases inside with
    | nil =>
      have hright : right = placeholderRelation placeholder source ++ [] := by
        simpa using hsplit.symm
      exact Or.inl ⟨[], hright, hinside [] hright⟩
    | cons character inside =>
      -- the token goes on in what follows, which begins with no identifier
      have hcharacter : isIdentifierCharacter tables character = false := by
        rw [hfollow, cons_append, continuesName_cons] at hfollowing
        simpa using hfollowing
      rw [placeholderRelation] at hsplit
      rcases append_eq_append_iff.mp hsplit with ⟨excess, rfl, hexcess⟩ | ⟨excess, hword, hexcess⟩
      · cases excess with
        | nil =>
          rw [nil_append] at hexcess
          obtain ⟨rfl, rfl⟩ := List.cons.inj hexcess
          exact Or.inr (Or.inl ⟨append_nil _, more, hfollow⟩)
        | cons dot excess =>
          obtain ⟨-, rfl⟩ := List.cons.inj hexcess
          have hident := hsource.all character (by simp)
          rw [hcharacter] at hident
          exact absurd hident (by simp)
      · cases excess with
        | nil =>
          rw [nil_append] at hexcess
          obtain ⟨rfl, rfl⟩ := List.cons.inj hexcess
          rw [append_nil] at hword
          exact Or.inr (Or.inl ⟨hword.symm, more, hfollow⟩)
        | cons first excess =>
          obtain ⟨rfl, -⟩ := List.cons.inj hexcess
          have hident := hplaceholder.all character (by rw [hword]; simp)
          rw [hcharacter] at hident
          exact absurd hident (by simp)

theorem harmless_target (before : Option Char) (hplaceholder : IsIdentifier tables placeholder)
    (hsource : IsIdentifier tables source)
    (hfresh : ¬ HasBounded tables (placeholderRelation placeholder source) target)
    (hrest : ¬ ContinuesName tables rest) (hmember : ∀ more, rest = '.' :: more →
      ¬ ∃ first ∈ more.head?, isIdentifierStart tables first = true) :
    Harmless (isIdentifierCharacter tables) (placeholderRelation placeholder source) before target
      rest := by
  intro left right htarget hright htoken
  rcases occurrence_in_target hplaceholder hsource hfresh hrest htarget htoken with
    hinside | ⟨-, more, rfl⟩ | hnil
  · exact hinside
  · obtain ⟨first, hfirst, hstart⟩ := hsource.head
    obtain ⟨name, rfl⟩ := head?_eq_some_iff.mp hfirst
    exact absurd ⟨first, rfl, hstart⟩ (hmember _ rfl)
  · exact absurd hnil hright

theorem harmless_target_member (before : Option Char)
    (hplaceholder : IsIdentifier tables placeholder) (hsource : IsIdentifier tables source)
    (hname : IsIdentifier tables name) (hne : name ≠ source) (hnone : ¬ placeholder <:+: name)
    (hfresh : ¬ HasBounded tables (placeholderRelation placeholder source) target)
    (hrest : ¬ ContinuesName tables rest) :
    Harmless (isIdentifierCharacter tables) (placeholderRelation placeholder source) before
      (target ++ '.' :: name) rest := by
  intro left right hpiece hright htoken
  have hfollowing : ¬ ContinuesName tables ('.' :: name ++ rest) := by
    rw [cons_append, continuesName_cons, dot_not_identifier]
    simp
  rcases append_eq_append_iff.mp hpiece.symm with
    ⟨inside, htarget, hdot⟩ | ⟨inside, rfl, hdot⟩
  · rw [hdot, append_assoc] at htoken
    rcases occurrence_in_target hplaceholder hsource hfresh hfollowing htarget htoken with
      ⟨after, hafter, hbounded⟩ | ⟨rfl, more, hmore⟩ | rfl
    · refine ⟨after ++ '.' :: name, by rw [hdot, hafter, append_assoc], ?_⟩
      rw [append_assoc]
      exact hbounded
    · -- the member is longer than the source
      have hprefix : source <+: name := by
        refine prefix_of_prefix_append hsource.all hrest ⟨more, ?_⟩
        simpa using hmore.symm
      obtain ⟨longer, rfl⟩ := hprefix
      refine ⟨longer, by rw [hdot, placeholderRelation]; simp, ?_⟩
      cases longer with
      | nil => exact absurd (append_nil source) hne
      | cons character longer =>
        exact bounded_eq_false_of_after (hname.all character (by simp))
    · have hword := prefix_placeholder htoken
      exact absurd hword (not_prefix_dot hplaceholder)
  · cases inside with
    | nil =>
      rw [nil_append] at hdot
      rw [← hdot] at htoken
      have hword := prefix_placeholder htoken
      exact absurd hword (not_prefix_dot hplaceholder)
    | cons character inside =>
      obtain ⟨rfl, hinside⟩ := List.cons.inj hdot
      exact absurd htoken (not_placeholder_in_name hplaceholder.all hnone hinside hrest)

/-- What follows a relation that stands alone, also with other relations after it: no member, or
the member of the relation's own name. -/
theorem StandsAlone.following_cases (hplaceholder : IsIdentifier tables placeholder)
    (hnone : ¬ placeholder <:+: name) (h : StandsAlone tables name text (between ++ rest))
    (hrest : (rest = [] ∧ rest' = []) ∨ ∃ more, rest = placeholder ++ '.' :: more) :
    ¬ ContinuesName tables (between ++ rest') ∧ (between = [] → rest = []) ∧
      ((∀ more, between ++ rest' = '.' :: more →
          ¬ ∃ first ∈ more.head?, isIdentifierStart tables first = true) ∨
        ∃ after, between = '.' :: name ++ after ∧ ¬ ContinuesName tables (after ++ rest')) := by
  obtain ⟨first, placeholder', rfl, hstart, -⟩ := hplaceholder.exists_cons
  have hempty : between = [] → rest = [] := by
    rintro rfl
    rcases hrest with ⟨h', -⟩ | ⟨more, rfl⟩
    · exact h'
    · exact absurd ⟨first, rfl, isIdentifierCharacter_of_start hstart⟩ h.separated
  cases between with
  | nil =>
    obtain rfl : rest' = [] := by
      rcases hrest with ⟨-, h'⟩ | ⟨more, h'⟩
      · exact h'
      · rw [hempty rfl] at h'
        simp at h'
    refine ⟨by simp [ContinuesName], hempty, Or.inl fun more hmore => ?_⟩
    simp at hmore
  | cons character between =>
    refine ⟨h.separated, hempty, ?_⟩
    by_cases hmember : character = '.' ∧
        ∃ first ∈ (between ++ rest').head?, isIdentifierStart tables first = true
    · obtain ⟨rfl, hmember⟩ := hmember
      right
      have hhead : ∃ first ∈ (between ++ rest).head?, isIdentifierStart tables first = true := by
        cases between with
        | nil =>
          rcases hrest with ⟨-, rfl⟩ | ⟨more, rfl⟩
          · simp at hmember
          · exact ⟨first, rfl, hstart⟩
        | cons character between => exact hmember
      have hname := h.member (between ++ rest) rfl hhead
      rw [takeWhile_append] at hname
      split_ifs at hname with hall
      · -- the whole gap belongs to the member
        rcases hrest with ⟨rfl, rfl⟩ | ⟨more, rfl⟩
        · refine ⟨[], by simpa using hname, by simp [ContinuesName]⟩
        · have hrun : ((first :: placeholder') ++ '.' :: more).takeWhile
              (isIdentifierCharacter tables) = first :: placeholder' := by
            rw [takeWhile_append_of_pos hplaceholder.all, takeWhile_cons, dot_not_identifier]
            simp
          rw [hrun] at hname
          exact absurd ⟨between, [], by rw [append_nil, hname]⟩ hnone
      · have hsplit := takeWhile_append_dropWhile (p := isIdentifierCharacter tables)
          (l := between)
        have hne : between.dropWhile (isIdentifierCharacter tables) ≠ [] := by
          intro hnil
          rw [hnil, append_nil] at hsplit
          exact hall (congrArg List.length hsplit)
        refine ⟨between.dropWhile (isIdentifierCharacter tables), ?_, ?_⟩
        · rw [← hname, cons_append, hsplit]
        · rintro ⟨last, hlast, hidentifier⟩
          rw [head?_append_of_ne_nil _ hne] at hlast
          exact head_dropWhile ⟨last, hlast, hidentifier⟩
    · left
      rintro more hmore hstarts
      obtain ⟨rfl, rfl⟩ := List.cons.inj hmore
      exact hmember ⟨rfl, hstarts⟩

/-- The facts about a template's relations that every pass uses. -/
def PlainRelations (tables : PythonTables) (placeholder : List Char)
    (relations : List (List Char × List Char)) : Prop :=
  ∀ entry ∈ relations, IsIdentifier tables entry.1 ∧ ¬ placeholder <:+: entry.1 ∧
    ¬ placeholder <:+: entry.2

/-- Before the relations of a source are replaced: they are in the placeholder's database, and no
other relation has them in it. -/
structure Pending (tables : PythonTables) (placeholder source : List Char)
    (relation : List Char → List Char) : Prop where
  self : relation source = placeholderRelation placeholder source
  others : ∀ name, IsIdentifier tables name → ¬ placeholder <:+: name → name ≠ source →
    ¬ HasBounded tables (placeholderRelation placeholder source) (relation name)

theorem placeholderRelation_ne_nil : placeholderRelation placeholder name ≠ [] := by
  simp [placeholderRelation]

/-- What comes after a template, as authored and as it is read. -/
def Trailing (placeholder rest rest' : List Char) : Prop :=
  (rest = [] ∧ rest' = []) ∨
    (∃ more, rest = placeholder ++ '.' :: more) ∧ ∃ more, rest' = placeholder ++ '.' :: more

theorem Trailing.renderRelations (relation : List Char → List Char)
    (h : Trailing placeholder rest rest') :
    (renderRelations (placeholderRelation placeholder) relations ++ rest = [] ∧
        renderRelations relation relations ++ rest' = []) ∨
      ∃ more, renderRelations (placeholderRelation placeholder) relations ++ rest =
        placeholder ++ '.' :: more := by
  cases relations with
  | nil => exact h.imp_right And.left
  | cons entry relations =>
    right
    refine ⟨entry.1 ++ entry.2 ++ SqlText.renderRelations (placeholderRelation placeholder)
      relations ++
      rest, ?_⟩
    simp [SqlText.renderRelations, placeholderRelation]

/-- The gap after a relation ends before no name, or before a relation. -/
theorem gap_end (relation : List Char → List Char) (hrest : Trailing placeholder rest rest')
    (hstand : AllStandAlone tables placeholder (name ++ between) relations rest)
    (hempty : between = [] →
      renderRelations (placeholderRelation placeholder) relations ++ rest = []) :
    (relations ≠ [] → ∃ last ∈ between.getLast?, isIdentifierCharacter tables last = false) ∧
    (renderRelations relation relations ++ rest' = [] ∨
      (∃ last ∈ between.getLast?, isIdentifierCharacter tables last = false) ∨
        ∃ more, renderRelations relation relations ++ rest' = placeholder ++ '.' :: more) := by
  cases relations with
  | nil =>
    refine ⟨fun h => absurd rfl h, ?_⟩
    exact hrest.elim (fun h => Or.inl h.2) fun h => Or.inr (Or.inr h.2)
  | cons entry relations =>
    have hne : between ≠ [] := by
      intro hnil
      have h := hempty hnil
      simp [renderRelations, placeholderRelation] at h
    have hlast : ∃ last ∈ between.getLast?, isIdentifierCharacter tables last = false := by
      obtain ⟨last, hlast⟩ := Option.isSome_iff_exists.mp (getLast?_isSome.mpr hne)
      refine ⟨last, hlast, hstand.1.last last ?_⟩
      rw [getLast?_append_of_ne_nil _ hne]
      exact hlast
    exact ⟨fun _ => hlast, Or.inr (Or.inl hlast)⟩

theorem bounded_of_not_continuesName (hlast : ∀ c ∈ last, isIdentifierCharacter tables c = false)
    (hrest : ¬ ContinuesName tables rest) :
    bounded (isIdentifierCharacter tables) last rest.head? = true := by
  have hhead : ∀ c ∈ rest.head?, isIdentifierCharacter tables c = false :=
    not_continuesName_iff.mp hrest
  cases last <;> cases hcase : rest.head? <;> simp_all [bounded]

/-- What ends a gap is not in the member it begins with. -/
theorem last_after_member {after : List Char} (hname : IsIdentifier tables name)
    (h : ∃ last ∈ ('.' :: name ++ after).getLast?, isIdentifierCharacter tables last = false) :
    ∃ last ∈ after.getLast?, isIdentifierCharacter tables last = false := by
  obtain ⟨last, hlast, hidentifier⟩ := h
  refine ⟨last, ?_, hidentifier⟩
  cases after with
  | nil =>
    have hne : name ≠ [] := ne_nil_of_length_pos hname.length_pos
    rw [append_nil, ← singleton_append, getLast?_append_of_ne_nil _ hne] at hlast
    have := hname.all last (mem_of_mem_getLast? hlast)
    rw [hidentifier] at this
    exact absurd this (by simp)
  | cons character after =>
    rw [getLast?_append_of_ne_nil _ (by simp)] at hlast
    exact hlast

theorem replaceFrom_relation {replacement follow : List Char}
    (hplaceholder : IsIdentifier tables placeholder) (hsource : IsIdentifier tables source)
    (hpending : Pending tables placeholder source relation) (hname : IsIdentifier tables name)
    (hnone : ¬ placeholder <:+: name) (hnone' : ¬ placeholder <:+: between)
    (hbefore : ∀ c ∈ before, isIdentifierCharacter tables c = false)
    (hseparated : ¬ ContinuesName tables (between ++ follow))
    (hmember : (∀ more, between ++ follow = '.' :: more →
        ¬ ∃ first ∈ more.head?, isIdentifierStart tables first = true) ∨
      ∃ after, between = '.' :: name ++ after ∧ ¬ ContinuesName tables (after ++ follow))
    (hend : follow = [] ∨ (∃ last ∈ between.getLast?, isIdentifierCharacter tables last = false) ∨
      ∃ more, follow = placeholder ++ '.' :: more) :
    replaceFrom (isIdentifierCharacter tables) (placeholderRelation placeholder source) replacement
        before (relation name ++ (between ++ follow)) =
      update relation source replacement name ++ (between ++
        replaceFrom (isIdentifierCharacter tables) (placeholderRelation placeholder source)
          replacement (lastOf (lastOf before (relation name)) between) follow) := by
  by_cases hcase : name = source
  · subst hcase
    have hgap := harmless_text name (lastOf before (relation name)) hplaceholder.all hnone' hend
    rw [update_self, hpending.self] at *
    rw [replaceFrom_token placeholderRelation_ne_nil, bounded_of_not_continuesName hbefore
      hseparated, replaceFrom_harmless placeholderRelation_ne_nil _ le_rfl hgap]
    rfl
  · rw [update_of_ne hcase]
    have hfresh := hpending.others name hname hnone hcase
    rcases hmember with hmember | ⟨after, rfl, hafter⟩
    · have htarget := harmless_target before hplaceholder hsource hfresh hseparated hmember
      have hgap := harmless_text source (lastOf before (relation name)) hplaceholder.all hnone' hend
      rw [replaceFrom_harmless placeholderRelation_ne_nil _ le_rfl htarget,
        replaceFrom_harmless placeholderRelation_ne_nil _ le_rfl hgap]
    · have htarget := harmless_target_member before hplaceholder hsource hname hcase hnone
        hfresh hafter
      have hnone : ¬ placeholder <:+: after := fun h => hnone' (h.trans ⟨'.' :: name, [], by simp⟩)
      have hgap := harmless_text source (lastOf before (relation name ++ '.' :: name))
        hplaceholder.all hnone
        (hend.imp_right fun h => h.imp_left (last_after_member hname))
      have hpiece :=
        @replaceFrom_harmless _ _ _ _ replacement _ placeholderRelation_ne_nil _ _ _ le_rfl
        htarget
      have h := hpiece.trans (congrArg _
        (replaceFrom_harmless placeholderRelation_ne_nil _ le_rfl hgap))
      have hlast : lastOf (lastOf before (relation name)) ('.' :: name ++ after) =
          lastOf (lastOf before (relation name ++ '.' :: name)) after := by
        simp only [← lastOf_append, append_assoc]
      rw [hlast]
      simpa using h

/-- A pass replaces the relations of its source and nothing else. -/
theorem replaceFrom_relations (replacement : List Char)
    (hplaceholder : IsIdentifier tables placeholder) (hsource : IsIdentifier tables source)
    (hpending : Pending tables placeholder source relation)
    (hrest : Trailing placeholder rest rest') :
    ∀ {text : List Char} (before : Option Char),
      PlainRelations tables placeholder relations →
      AllStandAlone tables placeholder text relations rest →
      (relations ≠ [] → ∀ c ∈ before, isIdentifierCharacter tables c = false) →
      replaceFrom (isIdentifierCharacter tables) (placeholderRelation placeholder source)
        replacement
          before (renderRelations relation relations ++ rest') =
        renderRelations (update relation source replacement) relations ++
          replaceFrom (isIdentifierCharacter tables) (placeholderRelation placeholder source)
            replacement (lastOf before (renderRelations relation relations)) rest' := by
  induction relations with
  | nil =>
    intro text before _ _ _
    rfl
  | cons entry relations ih =>
    intro text before hplain hstand hbefore
    obtain ⟨name, between⟩ := entry
    obtain ⟨halone, hmore⟩ := hstand
    obtain ⟨hname, hnone, hnone'⟩ := hplain (name, between) (by simp)
    have hplain' : PlainRelations tables placeholder relations :=
      fun entry hentry => hplain entry (mem_cons_of_mem _ hentry)
    rw [append_assoc] at halone
    obtain ⟨hseparated, hempty, hmember⟩ :=
      halone.following_cases hplaceholder hnone (hrest.renderRelations relation)
    obtain ⟨hlast, hend⟩ := gap_end relation hrest hmore hempty
    have hih := ih (lastOf (lastOf before (relation name)) between) hplain' hmore
      (fun hne c hc => by
        obtain ⟨last, hlast, hidentifier⟩ := hlast hne
        rw [lastOf, Option.mem_def.mp hlast] at hc
        cases hc
        exact hidentifier)
    have hstep : replaceFrom (isIdentifierCharacter tables) (placeholderRelation placeholder source)
          replacement before (relation name ++
            (between ++ (renderRelations relation relations ++ rest'))) =
        update relation source replacement name ++ (between ++
          replaceFrom (isIdentifierCharacter tables) (placeholderRelation placeholder source)
            replacement (lastOf (lastOf before (relation name)) between)
            (renderRelations relation relations ++ rest')) := by
      exact replaceFrom_relation hplaceholder hsource hpending hname hnone hnone'
        (hbefore (by simp)) hseparated hmember hend
    calc replaceFrom (isIdentifierCharacter tables) (placeholderRelation placeholder source)
          replacement before (renderRelations relation ((name, between) :: relations) ++ rest')
        = replaceFrom (isIdentifierCharacter tables) (placeholderRelation placeholder source)
          replacement before
          (relation name ++ (between ++ (renderRelations relation relations ++ rest'))) := by
          simp [renderRelations]
      _ = _ := by
          rw [hstep, hih]
          simp [renderRelations, lastOf_append]

/-- The text before the first relation, and no placeholder in any text between the relations. -/
structure Template.Plain (tables : PythonTables) (placeholder : List Char) (template : Template) :
    Prop where
  head : ¬ placeholder <:+: template.head
  relations : PlainRelations tables placeholder template.relations

variable {template : Template} {rewrites order : List RelationRewrite}

theorem replaceFrom_template {head : List Char} (replacement : List Char)
    (hplaceholder : IsIdentifier tables placeholder) (hsource : IsIdentifier tables source)
    (hhead : ¬ placeholder <:+: head) (hplain : PlainRelations tables placeholder relations)
    (hstand : AllStandAlone tables placeholder head relations rest)
    (hrest : Trailing placeholder rest rest')
    (hpending : Pending tables placeholder source relation) :
    replaceFrom (isIdentifierCharacter tables) (placeholderRelation placeholder source) replacement
        none (head ++ (renderRelations relation relations ++ rest')) =
      head ++ (renderRelations (update relation source replacement) relations ++
        replaceFrom (isIdentifierCharacter tables) (placeholderRelation placeholder source)
          replacement (lastOf head.getLast? (renderRelations relation relations)) rest') := by
  have hlast : relations ≠ [] → ∀ c ∈ head.getLast?, isIdentifierCharacter tables c = false := by
    intro hne
    cases relations with
    | nil => exact absurd rfl hne
    | cons entry relations => exact hstand.1.last
  have hharmless : Harmless (isIdentifierCharacter tables) (placeholderRelation placeholder source)
      none head (renderRelations relation relations ++ rest') := by
    by_cases hempty : head = []
    · rw [hempty]
      intro left right hpiece hright
      exact absurd (append_eq_nil_iff.mp hpiece.symm).2 hright
    · apply harmless_text _ _ hplaceholder.all hhead
      by_cases hne : relations = []
      · rw [hne]
        exact hrest.elim (fun h => Or.inl h.2) fun h => Or.inr (Or.inr h.2)
      · obtain ⟨last, hmem⟩ := Option.isSome_iff_exists.mp (getLast?_isSome.mpr hempty)
        exact Or.inr (Or.inl ⟨last, hmem, hlast hne last hmem⟩)
  have hpass := replaceFrom_relations replacement hplaceholder hsource hpending hrest
    head.getLast? hplain hstand hlast
  rw [replaceFrom_harmless placeholderRelation_ne_nil _ le_rfl hharmless, lastOf, Option.or_none,
    hpass]

theorem replaceBoundedToken_render (replacement : List Char)
    (hplaceholder : IsIdentifier tables placeholder) (hsource : IsIdentifier tables source)
    (hplain : template.Plain tables placeholder) (hstand : template.StandAlone tables placeholder)
    (hpending : Pending tables placeholder source relation) :
    replaceBoundedToken tables (template.render relation) (placeholderRelation placeholder source)
        replacement =
      template.render (update relation source replacement) := by
  have hpass := replaceFrom_template replacement hplaceholder hsource hplain.head
    hplain.relations hstand (Or.inl ⟨rfl, rfl⟩) hpending
  rw [append_nil] at hpass
  refine hpass.trans ?_
  simp [Template.render, replaceFrom, replaceLoop]

/-- What the relations are after the rewrites. -/
def updated (placeholder : List Char) (relation : List Char → List Char)
    (rewrites : List RelationRewrite) : List Char → List Char :=
  rewrites.foldl
    (fun relation rewrite =>
      update relation rewrite.sourceName (rewrite.replacement placeholder))
    relation

/-- Every rewrite leaves the relations of the later ones pending. -/
theorem Pending.update {replacement : List Char} (hne : source ≠ name)
    (h : Pending tables placeholder source relation)
    (hfresh : ¬ HasBounded tables (placeholderRelation placeholder source) replacement) :
    Pending tables placeholder source (update relation name replacement) := by
  constructor
  · rw [update_of_ne hne, h.self]
  · intro other hidentifier hnone hother
    by_cases hcase : other = name
    · rw [hcase, update_self]
      exact hfresh
    · rw [update_of_ne hcase]
      exact h.others other hidentifier hnone hother

theorem IsMapping.tail (h : IsMapping tables placeholder (rewrite :: rewrites)) :
    IsMapping tables placeholder rewrites where
  names other hother := h.names other (mem_cons_of_mem _ hother)
  nodup := (nodup_cons.mp h.nodup).2
  fresh other hother another hanother :=
    h.fresh other (mem_cons_of_mem _ hother) another (mem_cons_of_mem _ hanother)

theorem sourceName_ne {other : RelationRewrite}
    (hnodup : ((rewrite :: rewrites).map (·.sourceName)).Nodup) (hother : other ∈ rewrites) :
    other.sourceName ≠ rewrite.sourceName := by
  intro hsame
  have hmem : other.sourceName ∈ rewrites.map (·.sourceName) := mem_map_of_mem hother
  rw [hsame] at hmem
  exact (nodup_cons.mp hnodup).1 hmem

theorem rewriteTemplateRelations_updated (hplaceholder : IsIdentifier tables placeholder)
    (hplain : template.Plain tables placeholder) (hstand : template.StandAlone tables placeholder)
    (hmapping : IsMapping tables placeholder rewrites)
    (hpending : ∀ rewrite ∈ rewrites, Pending tables placeholder rewrite.sourceName relation) :
    rewriteTemplateRelations tables (template.render relation) rewrites placeholder =
      template.render (updated placeholder relation rewrites) := by
  induction rewrites generalizing relation with
  | nil => rfl
  | cons rewrite rewrites ih =>
    have hpass := replaceBoundedToken_render (rewrite.replacement placeholder) hplaceholder
      (hmapping.names rewrite (by simp)) hplain hstand (hpending rewrite (by simp))
    have hnext : ∀ other ∈ rewrites, Pending tables placeholder other.sourceName
        (update relation rewrite.sourceName (rewrite.replacement placeholder)) := by
      intro other hother
      exact (hpending other (mem_cons_of_mem _ hother)).update
        (sourceName_ne hmapping.nodup hother)
        (hmapping.fresh rewrite (by simp) other (mem_cons_of_mem _ hother))
    have hrest := ih hmapping.tail hnext
    unfold rewriteTemplateRelations at hrest ⊢
    rw [foldl_cons, hpass, hrest]
    rfl

theorem updated_of_not_mem (relation : List Char → List Char)
    (h : ∀ rewrite ∈ rewrites, rewrite.sourceName ≠ name) :
    updated placeholder relation rewrites name = relation name := by
  induction rewrites generalizing relation with
  | nil => rfl
  | cons rewrite rewrites ih =>
    have hrest := ih (update relation rewrite.sourceName (rewrite.replacement placeholder))
      fun other hother => h other (mem_cons_of_mem _ hother)
    refine hrest.trans (update_of_ne ?_ _ _)
    exact (h rewrite (by simp)).symm

theorem updated_eq_targetOf (hnodup : (rewrites.map (·.sourceName)).Nodup) :
    updated placeholder (placeholderRelation placeholder) rewrites name =
      targetOf rewrites placeholder name := by
  suffices h : ∀ relation : List Char → List Char, updated placeholder relation rewrites name =
      match rewrites.find? fun rewrite => rewrite.sourceName = name with
      | some rewrite => rewrite.replacement placeholder
      | none => relation name from h _
  induction rewrites with
  | nil => exact fun relation => rfl
  | cons rewrite rewrites ih =>
    intro relation
    by_cases hname : rewrite.sourceName = name
    · subst hname
      have hothers := @updated_of_not_mem placeholder _ rewrites (update relation
        rewrite.sourceName (rewrite.replacement placeholder)) fun _ => sourceName_ne hnodup
      rw [find?_cons_of_pos (by simp)]
      exact hothers.trans (update_self ..)
    · rw [find?_cons_of_neg (by simpa using hname)]
      have hrest := ih (nodup_cons.mp hnodup).2 (update relation rewrite.sourceName
        (rewrite.replacement placeholder))
      rw [update_of_ne (Ne.symm hname)] at hrest
      exact hrest

theorem targetOf_of_mem (hnodup : (rewrites.map (·.sourceName)).Nodup) (h : rewrite ∈ rewrites) :
    targetOf rewrites placeholder rewrite.sourceName = rewrite.replacement placeholder := by
  have hfind : rewrites.find? (fun other => other.sourceName = rewrite.sourceName) =
      some rewrite := by
    induction rewrites with
    | nil => simp at h
    | cons other rewrites ih =>
      rcases mem_cons.mp h with rfl | hmem
      · exact find?_cons_of_pos (by simp)
      · have hne := sourceName_ne hnodup hmem
        rw [find?_cons_of_neg (by simpa using hne.symm)]
        exact ih (nodup_cons.mp hnodup).2 hmem
  rw [targetOf, hfind]

theorem targetOf_of_not_mem (h : name ∉ rewrites.map (·.sourceName)) :
    targetOf rewrites placeholder name = placeholderRelation placeholder name := by
  have hfind : rewrites.find? (fun rewrite => rewrite.sourceName = name) = none := by
    rw [find?_eq_none]
    intro rewrite hrewrite hname
    rw [decide_eq_true_eq] at hname
    rw [← hname] at h
    exact h (mem_map_of_mem hrewrite)
  rw [targetOf, hfind]

theorem targetOf_perm (hperm : order.Perm rewrites) (hnodup : (rewrites.map (·.sourceName)).Nodup) :
    targetOf order placeholder = targetOf rewrites placeholder := by
  have hnodup' : (order.map (·.sourceName)).Nodup := (hperm.map _).nodup_iff.mpr hnodup
  funext name
  by_cases hmem : name ∈ rewrites.map (·.sourceName)
  · obtain ⟨rewrite, hrewrite, rfl⟩ := List.mem_map.mp hmem
    rw [targetOf_of_mem hnodup hrewrite, targetOf_of_mem hnodup' (hperm.mem_iff.mpr hrewrite)]
  · rw [targetOf_of_not_mem hmem, targetOf_of_not_mem fun h => hmem ((hperm.map _).mem_iff.mp h)]

theorem IsMapping.perm (h : IsMapping tables placeholder rewrites) (hperm : order.Perm rewrites) :
    IsMapping tables placeholder order where
  names rewrite hrewrite := h.names rewrite (hperm.mem_iff.mp hrewrite)
  nodup := (hperm.map _).nodup_iff.mpr h.nodup
  fresh rewrite hrewrite other hother :=
    h.fresh rewrite (hperm.mem_iff.mp hrewrite) other (hperm.mem_iff.mp hother)

/-- A relation of the placeholder's has no relation of another name in it. -/
theorem not_hasBounded_placeholderRelation (hplaceholder : IsIdentifier tables placeholder)
    (hname : IsIdentifier tables name) (hnone : ¬ placeholder <:+: name)
    (hsource : IsIdentifier tables source) (hne : name ≠ source) :
    ¬ HasBounded tables (placeholderRelation placeholder source)
      (placeholderRelation placeholder name) := by
  rintro ⟨left, after, hsplit, hbounded⟩
  have hrest : ¬ ContinuesName tables [] := by simp [ContinuesName]
  have h := harmless_relation none hplaceholder hname hnone hsource hne hrest left
    (placeholderRelation placeholder source ++ after)
    (by rw [hsplit, append_assoc]) (by simp [placeholderRelation]) ⟨after, by simp⟩
  obtain ⟨after', hafter, hbounded'⟩ := h
  obtain rfl := append_cancel_left hafter
  rw [append_nil, lastOf, Option.or_none, hbounded] at hbounded'
  exact absurd hbounded' (by simp)
/-- On a template whose relations all stand alone, every order of the rewrites substitutes the
targets of the mapping. -/
theorem rewriteTemplateRelations_eq (hplaceholder : IsIdentifier tables placeholder)
    (hplain : template.Plain tables placeholder) (hstand : template.StandAlone tables placeholder)
    (hmapping : IsMapping tables placeholder rewrites) (hperm : order.Perm rewrites) :
    rewriteTemplateRelations tables (template.render (placeholderRelation placeholder)) order
        placeholder =
      template.render (targetOf rewrites placeholder) := by
  have horder := hmapping.perm hperm
  have hpending : ∀ rewrite ∈ order, Pending tables placeholder rewrite.sourceName
      (placeholderRelation placeholder) := fun rewrite hrewrite =>
    ⟨rfl, fun name hname hnone hne => not_hasBounded_placeholderRelation hplaceholder hname hnone
      (horder.names rewrite hrewrite) hne⟩
  have hupdated : updated placeholder (placeholderRelation placeholder) order =
      targetOf order placeholder := funext fun name => updated_eq_targetOf horder.nodup
  rw [rewriteTemplateRelations_updated hplaceholder hplain hstand horder hpending, hupdated,
    targetOf_perm hperm hmapping.nodup]

end SqlTide.SqlText
