import SqlTide.Adapters.SecretResolution

/-!
# Literal resolution of secrets

Secrets without placeholders that stand for themselves between quotes are put in literally, where no
placeholder is a part of a later one. Any other secret shows in the result, or keeps the resolution
from ending.
-/

namespace SqlTide.Adapters

open Foundations ClickHouse List Transducer

variable {environ : List Char → Option (List Char)} {name text : List Char} {state : LexState}
  {secrets : List (List Char × List Char)} {value contents : List Char → List Char}
  {rendered : RenderedSql}

theorem fillSecrets_congr (h : ∀ secret ∈ secrets, contents secret.1 = value secret.1) :
    fillSecrets contents secrets = fillSecrets value secrets := by
  induction secrets with
  | nil => rfl
  | cons secret secrets ih =>
    rw [forall_mem_cons] at h
    rw [fillSecrets, fillSecrets, h.1, ih h.2]

theorem fillSecrets_append (first later : List (List Char × List Char)) :
    fillSecrets contents (first ++ later) =
      fillSecrets contents first ++ fillSecrets contents later := by
  induction first with
  | nil => rfl
  | cons secret first ih => simp [fillSecrets, ih]

/-- The first placeholder of a filled template is in its first secret that has one. -/
theorem searchPlaceholder_fillSecrets
    (hbare : ∀ secret ∈ secrets, searchPlaceholder secret.2 = none) (text : List Char) :
    searchPlaceholder (text ++ fillSecrets contents secrets) =
      (searchPlaceholder text).or
        (secrets.findSome? fun secret => searchPlaceholder (contents secret.1)) := by
  induction secrets generalizing text with
  | nil => simp [fillSecrets]
  | cons secret secrets ih =>
    rw [forall_mem_cons] at hbare
    have hshape : text ++ fillSecrets contents (secret :: secrets) =
        text ++ '\'' :: (contents secret.1 ++
          '\'' :: (secret.2 ++ fillSecrets contents secrets)) := by
      simp [fillSecrets]
    rw [hshape, searchPlaceholder_append_quote, searchPlaceholder_append_quote, ih hbare.2, hbare.1,
      Option.none_or, findSome?_cons]
    cases searchPlaceholder (contents secret.1) <;> simp

theorem searchPlaceholder_fill (rendered : RenderedSql) (contents : List Char → List Char) :
    searchPlaceholder (rendered.fill contents) =
      rendered.secrets.findSome? fun secret => searchPlaceholder (contents secret.1) := by
  rw [Template.fill, searchPlaceholder_fillSecrets rendered.bareFollowing, rendered.bareHead,
    Option.none_or]

theorem replaceAll_fillSecrets (hname : IsName name)
    (hbare : ∀ secret ∈ secrets, searchPlaceholder secret.2 = none) (text new : List Char) :
    replaceAll (placeholder name) new (text ++ fillSecrets contents secrets) =
      replaceAll (placeholder name) new text ++
        fillSecrets (fun other => replaceAll (placeholder name) new (contents other)) secrets := by
  have hquote := quote_not_mem_placeholder hname
  have hne := placeholder_ne_nil name
  induction secrets generalizing text with
  | nil => simp [fillSecrets]
  | cons secret secrets ih =>
    rw [forall_mem_cons] at hbare
    have hshape : ∀ (contents : List Char → List Char) (text : List Char),
        text ++ fillSecrets contents (secret :: secrets) =
          text ++ '\'' :: (contents secret.1 ++
            '\'' :: (secret.2 ++ fillSecrets contents secrets)) := by
      intro contents text
      simp [fillSecrets]
    have hsame : replaceAll (placeholder name) new secret.2 = secret.2 :=
      replaceAll_of_absent (not_infix_of_searchPlaceholder hname hbare.1)
    rw [hshape, hshape, replaceAll_append_separator hne hquote,
      replaceAll_append_separator hne hquote, ih hbare.2, hsame]

theorem replaceAll_fill (rendered : RenderedSql) (hname : IsName name)
    (contents : List Char → List Char) (new : List Char) :
    replaceAll (placeholder name) new (rendered.fill contents) =
      rendered.fill fun other => replaceAll (placeholder name) new (contents other) := by
  rw [Template.fill, replaceAll_fillSecrets hname rendered.bareFollowing,
    replaceAll_of_absent (not_infix_of_searchPlaceholder hname rendered.bareHead)]
  rfl

/-- The text in which the placeholders of some variables are replaced. -/
def filledFor (environ : List Char → Option (List Char)) (resolved : List (List Char))
    (variableName : List Char) : List Char :=
  if variableName ∈ resolved then secretOf environ variableName else placeholder variableName

variable {fuel : ℕ} {before after : List (List Char)} {template : Template}

theorem resolvedSecrets_step {secret : List Char} (rendered : RenderedSql)
    (hsearch : searchPlaceholder (rendered.fill contents) = some name)
    (hsecret : environ name = some secret) :
    resolvedSecrets environ (fuel + 1) (rendered.fill contents) =
      resolvedSecrets environ fuel
        (rendered.fill fun other => replaceAll (placeholder name) secret (contents other)) := by
  rw [resolvedSecrets, hsearch]
  dsimp only
  rw [hsecret]
  dsimp only
  rw [replaceAll_fill rendered (searchPlaceholder_isName hsearch)]

theorem searchPlaceholder_filledFor
    (hnames : rendered.secrets.map Prod.fst = before ++ name :: after) (hnew : name ∉ before)
    (hplain : PlainSecrets environ rendered) :
    searchPlaceholder (rendered.fill (filledFor environ before)) = some name := by
  rw [searchPlaceholder_fill]
  have hmap : (rendered.secrets.findSome? fun secret =>
      searchPlaceholder (filledFor environ before secret.1)) =
        (rendered.secrets.map Prod.fst).findSome? fun variableName =>
          searchPlaceholder (filledFor environ before variableName) := by
    rw [findSome?_map]
    rfl
  have hbefore : ∀ variableName ∈ before,
      searchPlaceholder (filledFor environ before variableName) = none := by
    intro variableName hmem
    obtain ⟨secret, hsecret, rfl⟩ := List.mem_map.mp
      (hnames ▸ List.mem_append_left _ hmem : variableName ∈ rendered.secrets.map Prod.fst)
    rw [filledFor, if_pos hmem]
    exact (hplain secret hsecret).1
  have hname : IsName name := by
    obtain ⟨secret, hsecret, rfl⟩ := List.mem_map.mp
      (hnames ▸ by simp : name ∈ rendered.secrets.map Prod.fst)
    exact rendered.names secret hsecret
  have hfirst : searchPlaceholder (filledFor environ before name) = some name := by
    rw [filledFor, if_neg hnew, searchPlaceholder_self hname]
  rw [hmap, hnames, findSome?_append, findSome?_eq_none_iff.mpr hbefore, findSome?_cons, hfirst]
  rfl

/-- One variable is resolved, unless its placeholder is a part of one of those that are left. -/
theorem replaceAll_filledFor (hnames : rendered.secrets.map Prod.fst = before ++ name :: after)
    (hnew : name ∉ before) (hplain : PlainSecrets environ rendered)
    (hapart : ∀ other ∈ after, other ∉ before → other ≠ name →
      ¬ placeholder name <:+: placeholder other) :
    (rendered.fill fun other => replaceAll (placeholder name) (secretOf environ name)
      (filledFor environ before other)) = rendered.fill (filledFor environ (before ++ [name])) := by
  have hname : IsName name := by
    obtain ⟨secret, hsecret, rfl⟩ := List.mem_map.mp
      (hnames ▸ by simp : name ∈ rendered.secrets.map Prod.fst)
    exact rendered.names secret hsecret
  refine congrArg (rendered.head ++ ·) (fillSecrets_congr fun secret hsecret => ?_)
  have hmem : secret.1 ∈ before ++ name :: after := hnames ▸ mem_map_of_mem hsecret
  by_cases hbefore : secret.1 ∈ before
  · rw [filledFor, filledFor, if_pos hbefore, if_pos (List.mem_append_left _ hbefore)]
    exact replaceAll_of_absent (not_infix_of_searchPlaceholder hname (hplain secret hsecret).1)
  · rw [filledFor, if_neg hbefore]
    by_cases hsame : secret.1 = name
    · rw [hsame, replaceAll_self (placeholder_ne_nil name), filledFor, if_pos (by simp)]
    · have hafter : secret.1 ∈ after := by simpa [hbefore, hsame] using hmem
      rw [filledFor, if_neg (by simp [hbefore, hsame])]
      exact replaceAll_of_absent (hapart _ hafter hbefore hsame)

variable {resolved : List (List Char)} {following : List Char} {other : List Char × List Char}

theorem filledFor_all (hall : ∀ secret ∈ rendered.secrets, secret.1 ∈ resolved) :
    rendered.fill (filledFor environ resolved) = rendered.fill (secretOf environ) := by
  refine congrArg (rendered.head ++ ·) (fillSecrets_congr fun secret hsecret => ?_)
  rw [filledFor, if_pos (hall secret hsecret)]

theorem filledFor_nil (environ : List Char → Option (List Char)) :
    filledFor environ [] = placeholder := by
  funext variableName
  simp [filledFor]

theorem filledFor_append_of_mem (h : name ∈ resolved) :
    filledFor environ (resolved ++ [name]) = filledFor environ resolved := by
  funext other
  have hiff : other ∈ resolved ++ [name] ↔ other ∈ resolved := by
    rw [mem_append, mem_singleton]
    exact ⟨fun hmem => hmem.elim id fun hsame => hsame ▸ h, .inl⟩
  simp only [filledFor, hiff]

/-- The loop goes on through the variables in the order in which they come up. -/
theorem resolvedSecrets_run (hset : SetsAll environ rendered)
    (hplain : PlainSecrets environ rendered) (hapart : Apart (rendered.secrets.map Prod.fst))
    (hnames : rendered.secrets.map Prod.fst = before ++ after) (hfuel : after.length < fuel) :
    resolvedSecrets environ fuel (rendered.fill (filledFor environ before)) =
      some (.ok (rendered.fill (secretOf environ))) := by
  induction after generalizing before fuel with
  | nil =>
    obtain ⟨fuel, rfl⟩ := Nat.exists_eq_succ_of_ne_zero (Nat.ne_zero_of_lt hfuel)
    have hall : ∀ secret ∈ rendered.secrets, secret.1 ∈ before := fun secret hsecret => by
      have hmem := mem_map_of_mem (f := Prod.fst) hsecret
      rwa [hnames, append_nil] at hmem
    have hnone : searchPlaceholder (rendered.fill (secretOf environ)) = none := by
      rw [searchPlaceholder_fill, findSome?_eq_none_iff]
      exact fun secret hsecret => (hplain secret hsecret).1
    rw [filledFor_all hall, resolvedSecrets, hnone]
  | cons name after ih =>
    have hrest : rendered.secrets.map Prod.fst = before ++ [name] ++ after := by simpa using hnames
    by_cases hold : name ∈ before
    · rw [← filledFor_append_of_mem hold]
      exact ih hrest (by simp only [length_cons] at hfuel; omega)
    · obtain ⟨fuel, rfl⟩ := Nat.exists_eq_succ_of_ne_zero (Nat.ne_zero_of_lt hfuel)
      obtain ⟨entry, hentry, hname⟩ := List.mem_map.mp
        (hnames ▸ by simp : name ∈ rendered.secrets.map Prod.fst)
      obtain ⟨secret, hsecret⟩ := Option.isSome_iff_exists.mp (hname ▸ hset entry hentry)
      have hvalue : secretOf environ name = secret := by simp [secretOf, hsecret]
      rw [resolvedSecrets_step rendered (searchPlaceholder_filledFor hnames hold hplain) hsecret,
        ← hvalue, replaceAll_filledFor hnames hold hplain (hapart _ _ _ hnames hold)]
      exact ih hrest (by simp only [length_cons] at hfuel; omega)

theorem replacesOnce (hset : SetsAll environ rendered) (hplain : PlainSecrets environ rendered)
    (hapart : Apart (rendered.secrets.map Prod.fst)) : ReplacesOnce environ rendered := by
  refine ⟨(rendered.secrets.map Prod.fst).length + 1, fun fuel hfuel => ?_⟩
  rw [RenderedSql.sql, ← filledFor_nil environ]
  exact resolvedSecrets_run hset hplain hapart (nil_append _).symm hfuel

theorem searchPlaceholder_resolved {sql resolved : List Char}
    (h : resolvedSecrets environ fuel sql = some (.ok resolved)) :
    searchPlaceholder resolved = none := by
  induction fuel generalizing sql with
  | zero => cases h
  | succ fuel ih =>
    rw [resolvedSecrets] at h
    split at h
    · cases h
      assumption
    · split at h
      · cases h
      · exact ih h

/-- The value of a literal does not matter for the literals behind it. -/
theorem Opens.of_value {contents contents' : List Char} (hhead : following.head? ≠ some '\'')
    (h : Opens (lexer.run (.closing '\'' contents) following).2 secrets) :
    Opens (lexer.run (.closing '\'' contents') following).2 secrets := by
  cases secrets with
  | nil => trivial
  | cons secret secrets =>
    cases hfollowing : following with
    | nil =>
      rw [hfollowing, run_nil, Opens] at h
      simp [lexer] at h
    | cons c rest =>
      have hne : following ≠ [] := hfollowing ▸ cons_ne_nil c rest
      rw [run_closing hhead hne] at h
      rw [← hfollowing, run_closing hhead hne]
      exact h

theorem run_fillSecrets (hopens : Opens state secrets)
    (hdenotes : ∀ secret ∈ secrets, Denotes '\'' (value secret.1) (value secret.1)) :
    lexer.run state (fillSecrets value secrets) = readSecrets value state secrets := by
  induction secrets generalizing state with
  | nil => rfl
  | cons secret secrets ih =>
    obtain ⟨variableName, following⟩ := secret
    obtain ⟨hstep, hhead, hmore⟩ := hopens
    rw [forall_mem_cons] at hdenotes
    have hshape : fillSecrets value ((variableName, following) :: secrets) =
        ('\'' :: value variableName ++ ['\'']) ++ (following ++ fillSecrets value secrets) := by
      simp [fillSecrets]
    have hliteral := run_literal (Prod.ext (by rfl) hstep) hdenotes.1
    rw [hshape, run_append, hliteral, run_append, ih (hmore.of_value hhead) hdenotes.2, readSecrets]
    simp only [append_assoc]

theorem Opens.append {first later : List (List Char × List Char)} (h : Opens state (first ++ later))
    (value : List Char → List Char) : Opens (readSecrets value state first).2 later := by
  induction first generalizing state with
  | nil => exact h
  | cons secret first ih =>
    obtain ⟨-, hhead, hmore⟩ := h
    exact ih (hmore.of_value hhead)

theorem Opens.first {first later : List (List Char × List Char)}
    (h : Opens state (first ++ later)) : Opens state first := by
  induction first generalizing state with
  | nil => trivial
  | cons secret first ih =>
    obtain ⟨hstep, hhead, hmore⟩ := h
    exact ⟨hstep, hhead, ih hmore⟩

section

variable (hopens : Opens (lexer.run .code template.head).2 template.secrets)

include hopens

theorem run_fill
    (hdenotes : ∀ secret ∈ template.secrets, Denotes '\'' (value secret.1) (value secret.1)) :
    lexer.run .code (template.fill value) = template.read value := by
  rw [Template.fill, run_append, run_fillSecrets hopens hdenotes]
  rfl

/-- The tokens up to the end of a literal, where the literals before it are read as they stand. -/
theorem tokens_literal {before after : List (List Char × List Char)} {variableName : List Char}
    (hsecrets : template.secrets = before ++ (variableName, following) :: after)
    (hdenotes : ∀ secret ∈ before, Denotes '\'' (value secret.1) (value secret.1)) :
    tokens ((template.before before).fill value ++ '\'' :: value variableName ++ ['\'']) =
      ((lexer.run (.quoted '\'' []) (value variableName ++ ['\''])).2.finish.map
        ((lexer.run (.quoted '\'' []) (value variableName ++ ['\''])).1 ++ ·)).map
        ((((template.before before).read value).1 ++
          (lexer.step ((template.before before).read value).2 '\'').1) ++ ·) := by
  rw [hsecrets] at hopens
  have hbefore : lexer.run .code ((template.before before).fill value) =
      (template.before before).read value := run_fill hopens.first hdenotes
  have hstep : (lexer.step ((template.before before).read value).2 '\'').2 = .quoted '\'' [] :=
    (hopens.append value).1
  rw [tokens, append_assoc, cons_append, run_append, hbefore, run_cons, hstep]
  simp [Option.map_map, Function.comp_def, append_assoc]

theorem keepsTokens
    (hdenotes : ∀ secret ∈ template.secrets, Denotes '\'' (value secret.1) (value secret.1)) :
    KeepsTokens value template where
  literal before variableName following after hsecrets := by
    have hbefore : ∀ secret ∈ before, Denotes '\'' (value secret.1) (value secret.1) :=
      fun secret hsecret => hdenotes secret (hsecrets ▸ List.mem_append_left _ hsecret)
    have hliteral : Denotes '\'' (value variableName) (value variableName) :=
      hdenotes (variableName, following) (hsecrets ▸ by simp)
    rw [tokens_literal hopens hsecrets hbefore, show lexer.run _ _ = _ from hliteral]
    simp [LexState.finish]
  whole := by
    rw [tokens, run_fill hopens hdenotes]

/-- If every literal has its value, the values stand for themselves. -/
theorem denotes_of_keepsTokens (h : KeepsTokens value template) :
    ∀ secret ∈ template.secrets, Denotes '\'' (value secret.1) (value secret.1) := by
  have hall : ∀ before after, template.secrets = before ++ after →
      (∀ secret ∈ before, Denotes '\'' (value secret.1) (value secret.1)) →
        ∀ secret ∈ after, Denotes '\'' (value secret.1) (value secret.1) := by
    intro before after
    induction after generalizing before with
    | nil => simp
    | cons secret after ih =>
      intro hsecrets hbefore
      obtain ⟨variableName, following⟩ := secret
      have hliteral := h.literal before variableName following after hsecrets
      rw [tokens_literal hopens hsecrets hbefore] at hliteral
      obtain ⟨read, hread, hsame⟩ := Option.map_eq_some_iff.mp hliteral
      rw [append_cancel_left_eq] at hsame
      have hdenotes : Denotes '\'' (value variableName) (value variableName) :=
        .of_read (hsame ▸ hread)
      rw [forall_mem_cons]
      refine ⟨hdenotes, ih (before ++ [(variableName, following)]) (by simpa using hsecrets) ?_⟩
      exact forall_mem_append.mpr ⟨hbefore, by simpa using hdenotes⟩
  exact hall [] template.secrets rfl (by simp)

end

theorem denotes_placeholder (h : IsName name) :
    Denotes '\'' (placeholder name) (placeholder name) := by
  apply Denotes.plain (by decide)
  intro c hc
  have hcharacter := placeholder_characters h c hc
  constructor
  · rintro rfl
    exact absurd hcharacter (by decide)
  · rintro rfl
    exact absurd hcharacter (by decide)

theorem plainSecrets_of_resolvesLiterally (h : ResolvesLiterally environ rendered) :
    PlainSecrets environ rendered := by
  obtain ⟨⟨bound, hbound⟩, htokens⟩ := h
  have hnone := searchPlaceholder_resolved (hbound bound le_rfl)
  rw [searchPlaceholder_fill, findSome?_eq_none_iff] at hnone
  exact fun secret hsecret =>
    ⟨hnone secret hsecret, denotes_of_keepsTokens rendered.literals htokens secret hsecret⟩

/-- A text in which a mark stands, and not alone. -/
def Marked (text : List Char) : Prop :=
  ∃ before after, text = before ++ '%' :: after ∧ (before ≠ [] ∨ after ≠ [])

theorem Marked.length (h : Marked text) : 2 ≤ text.length := by
  obtain ⟨before, after, rfl, hne⟩ := h
  rw [length_append, length_cons]
  rcases hne with hne | hne
  · have := length_pos_iff.mpr hne
    omega
  · have := length_pos_iff.mpr hne
    omega

theorem mark_not_mem_placeholder (h : IsName name) : '%' ∉ placeholder name := fun hmem =>
  absurd (placeholder_characters h _ hmem) (by decide)

theorem Marked.replaceAll (h : Marked text) (hname : IsName name) :
    Marked (replaceAll (placeholder name) ['%'] text) := by
  obtain ⟨before, after, rfl, hne⟩ := h
  rw [replaceAll_append_separator (placeholder_ne_nil name) (mark_not_mem_placeholder hname)]
  exact ⟨_, _, rfl, hne.imp (replaceAll_ne_nil (by simp)) (replaceAll_ne_nil (by simp))⟩

/-- A placeholder inside of another one leaves some of the other one. -/
theorem marked_of_infix {other : List Char} (hinside : placeholder name <:+: placeholder other)
    (hne : placeholder other ≠ placeholder name) :
    Marked (replaceAll (placeholder name) ['%'] (placeholder other)) := by
  obtain ⟨before, after, hother, hreplaced⟩ :=
    replaceAll_of_infix ['%'] (placeholder_ne_nil name) hinside
  rw [hreplaced, append_assoc]
  refine ⟨before, _, rfl, ?_⟩
  by_cases hbefore : before = []
  · right
    apply replaceAll_ne_nil (by simp)
    rintro rfl
    exact hne (by simpa [hbefore] using hother)
  · exact .inl hbefore

/-- Every variable is set to a mark. -/
def marks (_ : List Char) : Option (List Char) := some ['%']

theorem length_fillSecrets_le (hfilled : ∀ variableName, contents variableName ≠ [])
    (secrets : List (List Char × List Char)) :
    (fillSecrets (secretOf marks) secrets).length ≤ (fillSecrets contents secrets).length := by
  induction secrets with
  | nil => exact le_rfl
  | cons secret secrets ih =>
    have hone := length_pos_iff.mpr (hfilled secret.1)
    simp only [fillSecrets, secretOf, marks, Option.getD_some, length_append, length_cons,
      length_nil] at ih ⊢
    omega

theorem length_fillSecrets_lt (hother : other ∈ secrets)
    (hfilled : ∀ variableName, contents variableName ≠ []) (hmore : 2 ≤ (contents other.1).length) :
    (fillSecrets (secretOf marks) secrets).length < (fillSecrets contents secrets).length := by
  obtain ⟨before, after, rfl⟩ := append_of_mem hother
  have hbefore := length_fillSecrets_le hfilled before
  have hafter := length_fillSecrets_le hfilled after
  simp only [fillSecrets_append, fillSecrets, length_append, length_cons] at *
  have hone : (secretOf marks other.1).length = 1 := rfl
  omega

/-- What is left of a placeholder stays, whatever is replaced. -/
theorem resolvedSecrets_marked {resolved : List Char} (hother : other ∈ rendered.secrets)
    (hfilled : ∀ variableName, contents variableName ≠ []) (hmarked : Marked (contents other.1))
    (h : resolvedSecrets marks fuel (rendered.fill contents) = some (.ok resolved)) :
    resolved ≠ rendered.fill (secretOf marks) := by
  induction fuel generalizing contents with
  | zero => cases h
  | succ fuel ih =>
    cases hsearch : searchPlaceholder (rendered.fill contents) with
    | some name =>
      rw [resolvedSecrets_step rendered hsearch (rfl : marks name = some ['%'])] at h
      refine ih (fun variableName => replaceAll_ne_nil (by simp) (hfilled variableName)) ?_ h
      exact hmarked.replaceAll (searchPlaceholder_isName hsearch)
    | none =>
      rw [resolvedSecrets, hsearch] at h
      cases h
      have hlonger := length_fillSecrets_lt hother hfilled hmarked.length
      intro hsame
      have hlength := congrArg List.length hsame
      simp only [Template.fill, length_append] at hlength
      omega

theorem filledFor_marks_ne_nil (resolved : List (List Char)) (variableName : List Char) :
    filledFor marks resolved variableName ≠ [] := by
  unfold filledFor
  split_ifs
  · simp [secretOf, marks]
  · exact placeholder_ne_nil variableName

theorem plainSecrets_marks (rendered : RenderedSql) : PlainSecrets marks rendered := by
  have hplain : PlainSecret ['%'] := by
    refine ⟨by decide, ?_⟩
    exact Denotes.plain (by decide) (by simp)
  exact fun _ _ => hplain

theorem placeholder_injective : Function.Injective placeholder := fun name other h => by
  simpa [placeholder] using h

/-- Where all the marks are put in, the loop came by no placeholder inside a later one. -/
theorem apart_of_run (hnames : rendered.secrets.map Prod.fst = before ++ after)
    (h : resolvedSecrets marks fuel (rendered.fill (filledFor marks before)) =
      some (.ok (rendered.fill (secretOf marks)))) :
    ∀ middle name later, after = middle ++ name :: later → name ∉ before ++ middle →
      ∀ other ∈ later, other ∉ before ++ middle → other ≠ name →
        ¬ placeholder name <:+: placeholder other := by
  induction after generalizing before fuel with
  | nil => simp
  | cons first after ih =>
    have hrest : rendered.secrets.map Prod.fst = before ++ [first] ++ after := by simpa using hnames
    -- It is enough that the loop goes on behind the first variable, and that this one is apart.
    have hnext : ∀ fuel, resolvedSecrets marks fuel
        (rendered.fill (filledFor marks (before ++ [first]))) =
          some (.ok (rendered.fill (secretOf marks))) →
        (first ∉ before → ∀ other ∈ after, other ∉ before → other ≠ first →
          ¬ placeholder first <:+: placeholder other) →
        ∀ middle name later, first :: after = middle ++ name :: later → name ∉ before ++ middle →
          ∀ other ∈ later, other ∉ before ++ middle → other ≠ name →
            ¬ placeholder name <:+: placeholder other := by
      intro fuel hrun hfirst middle name later hsplit hnew other hlater hleft hne
      cases middle with
      | nil =>
        obtain ⟨rfl, rfl⟩ := List.cons.inj hsplit
        rw [append_nil] at hnew hleft
        exact hfirst hnew other hlater hleft hne
      | cons _ middle =>
        obtain ⟨rfl, hsplit'⟩ := List.cons.inj hsplit
        exact ih hrest hrun middle name later hsplit' (by simpa using hnew) other hlater
          (by simpa using hleft) hne
    by_cases hold : first ∈ before
    · have hsame : filledFor marks (before ++ [first]) = filledFor marks before :=
        filledFor_append_of_mem hold
      exact hnext fuel (hsame ▸ h) fun hnew => absurd hold hnew
    · cases fuel with
      | zero => cases h
      | succ fuel =>
        have hplain := plainSecrets_marks rendered
        rw [resolvedSecrets_step rendered (searchPlaceholder_filledFor hnames hold hplain)
          (rfl : marks first = some ['%'])] at h
        have hapart : ∀ other ∈ after, other ∉ before → other ≠ first →
            ¬ placeholder first <:+: placeholder other := by
          intro other hother hleft hne hinside
          obtain ⟨secret, hsecret, rfl⟩ := List.mem_map.mp
            (hnames ▸ by simp [hother] : other ∈ rendered.secrets.map Prod.fst)
          refine resolvedSecrets_marked hsecret ?_ ?_ h rfl
          · exact fun variableName => replaceAll_ne_nil (by simp) (filledFor_marks_ne_nil _ _)
          · rw [filledFor, if_neg hleft]
            exact marked_of_infix hinside fun hsame => hne (placeholder_injective hsame)
        have hfilled : (rendered.fill fun other => replaceAll (placeholder first) ['%']
            (filledFor marks before other)) = rendered.fill (filledFor marks (before ++ [first])) :=
          replaceAll_filledFor hnames hold hplain hapart
        rw [hfilled] at h
        exact hnext fuel h fun _ => hapart

/-- Resolution is literal only where the secrets have no placeholders and stand for themselves
between quotes. It is so for all these secrets just where no placeholder has another one inside that
comes up earlier. -/
theorem resolvedSecrets_literal (rendered : RenderedSql) :
    KeepsTokens placeholder rendered.toTemplate ∧
    (∀ environ, SetsAll environ rendered → ResolvesLiterally environ rendered →
      PlainSecrets environ rendered) ∧
    ((∀ environ, SetsAll environ rendered → PlainSecrets environ rendered →
      ResolvesLiterally environ rendered) ↔ Apart (rendered.secrets.map Prod.fst)) := by
  refine ⟨?_, fun environ _ h => plainSecrets_of_resolvesLiterally h, ?_, ?_⟩
  · exact keepsTokens rendered.literals fun secret hsecret =>
      denotes_placeholder (rendered.names secret hsecret)
  · intro h
    obtain ⟨⟨bound, hbound⟩, -⟩ := h marks (fun _ _ => rfl) (plainSecrets_marks rendered)
    have hrun := hbound bound le_rfl
    rw [RenderedSql.sql, ← filledFor_nil marks] at hrun
    have hapart := apart_of_run (nil_append _).symm hrun
    simpa only [Apart, nil_append] using hapart
  · intro hapart environ hset hplain
    refine ⟨replacesOnce hset hplain hapart, ?_⟩
    exact keepsTokens rendered.literals fun secret hsecret => (hplain secret hsecret).2

/-! A table function of a source with a password. -/

def postgresRelation : RenderedSql where
  head := "SELECT * FROM postgresql('db:5432', 'app', 'orders', 'reader', ".toList
  secrets := [("PG".toList, ")".toList)]
  names := by
    rintro _ (_ | ⟨_, ⟨⟩⟩)
    exact ⟨'P', ['G'], rfl, rfl, all_eq_true.mp (by decide)⟩
  bareHead := by decide
  bareFollowing := by
    rintro _ (_ | ⟨_, ⟨⟩⟩)
    decide
  literals := ⟨by decide, by decide, trivial⟩

/-- A quote in the password ends its literal. A password with its own placeholder is put in without
end. -/
theorem resolvedSecrets_not_literal :
    ¬ ResolvesLiterally (fun _ => some "it's".toList) postgresRelation ∧
      ∀ fuel, resolvedSecrets (fun name => some (placeholder name)) fuel postgresRelation.sql =
        none := by
  constructor
  · intro h
    have hplain := plainSecrets_of_resolvesLiterally h ("PG".toList, ")".toList) (by
      exact mem_singleton_self _)
    exact absurd hplain.2 (by decide)
  · intro fuel
    have hsearch : searchPlaceholder (postgresRelation.fill placeholder) = some "PG".toList := by
      decide
    have hsame : (postgresRelation.fill fun other =>
        replaceAll (placeholder "PG".toList) (placeholder "PG".toList) (placeholder other)) =
          postgresRelation.fill placeholder := by
      decide
    induction fuel with
    | zero => rfl
    | succ fuel ih =>
      have hsecret : (fun name => some (placeholder name)) "PG".toList =
          some (placeholder "PG".toList) := rfl
      rw [RenderedSql.sql, resolvedSecrets_step postgresRelation hsearch hsecret, hsame]
      exact ih

end SqlTide.Adapters
