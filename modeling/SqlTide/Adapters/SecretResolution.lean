import SqlTide.Foundations.ClickHouseTokens
import SqlTide.Foundations.Substrings

/-!
# Resolution of credential placeholders

A rendered statement has placeholders for credentials, each the contents of a string literal. They
are replaced by the text of environment variables right before execution: the first placeholder is
searched, its text is replaced wherever it occurs, and the resulting text is searched again.
-/

namespace SqlTide.Adapters

open Foundations ClickHouse List

structure AdapterCapabilityError where
  message : String
  deriving DecidableEq, Repr

def adapterSecretPlaceholderPrefix : List Char := "__sqltide_secret__".toList

def adapterSecretPlaceholderSuffix : List Char := "__".toList

def isNameStart (c : Char) : Bool := c.isAlpha || c = '_'

def isNameCharacter (c : Char) : Bool := c.isAlphanum || c = '_'

/-- The longest run of name characters, perhaps an empty one, that the suffix follows. -/
def nameBeforeSuffix : List Char → Option (List Char)
  | [] => none
  | c :: rest =>
    match if isNameCharacter c then nameBeforeSuffix rest else none with
    | some name => some (c :: name)
    | none => if adapterSecretPlaceholderSuffix <+: c :: rest then some [] else none

/-- The variable name, where `_SECRET_PLACEHOLDER_PATTERN` matches at the start of the text. -/
def matchPlaceholder (text : List Char) : Option (List Char) :=
  if adapterSecretPlaceholderPrefix <+: text then
    match text.drop adapterSecretPlaceholderPrefix.length with
    | [] => none
    | c :: rest => if isNameStart c then (nameBeforeSuffix rest).map (c :: ·) else none
  else none

/-- `_SECRET_PLACEHOLDER_PATTERN.search`: the variable name of the first match. -/
def searchPlaceholder : List Char → Option (List Char)
  | [] => none
  | c :: rest => (matchPlaceholder (c :: rest)).or (searchPlaceholder rest)

/-- `match.group(0)`. -/
def placeholder (variableName : List Char) : List Char :=
  adapterSecretPlaceholderPrefix ++ variableName ++ adapterSecretPlaceholderSuffix

def unsetCredential (variableName : List Char) : AdapterCapabilityError :=
  ⟨"Credential environment variable '" ++ String.ofList variableName ++ "' is not set"⟩

/-- `_resolved_secrets`, as far as the fuel goes. -/
def resolvedSecrets (environ : List Char → Option (List Char)) :
    ℕ → List Char → Option (Except AdapterCapabilityError (List Char))
  | 0, _ => none
  | fuel + 1, resolved =>
    match searchPlaceholder resolved with
    | none => some (.ok resolved)
    | some variableName =>
      match environ variableName with
      | none => some (.error (unsetCredential variableName))
      | some secret =>
        resolvedSecrets environ fuel (replaceAll (placeholder variableName) secret resolved)

/-- A text in front of the first secret, and for each secret the variable and the text behind its
literal. -/
structure Template where
  head : List Char
  secrets : List (List Char × List Char)

/-- The contents of the secrets' literals are filled in. -/
def fillSecrets (contents : List Char → List Char) : List (List Char × List Char) → List Char
  | [] => []
  | (variableName, following) :: secrets =>
    '\'' :: contents variableName ++ '\'' :: following ++ fillSecrets contents secrets

def Template.fill (template : Template) (contents : List Char → List Char) : List Char :=
  template.head ++ fillSecrets contents template.secrets

/-- What the texts of a template are read as, where each literal has its value. -/
def readSecrets (value : List Char → List Char) (state : LexState) :
    List (List Char × List Char) → List Token × LexState
  | [] => ([], state)
  | (variableName, following) :: secrets =>
    let opened := (lexer.step state '\'').1
    let behind := lexer.run (.closing '\'' (value variableName)) following
    let more := readSecrets value behind.2 secrets
    (opened ++ behind.1 ++ more.1, more.2)

def Template.read (template : Template) (value : List Char → List Char) : List Token × LexState :=
  let start := lexer.run .code template.head
  let more := readSecrets value start.2 template.secrets
  (start.1 ++ more.1, more.2)

/-- The secrets in front of one of them. -/
def Template.before (template : Template) (secrets : List (List Char × List Char)) : Template :=
  { template with secrets }

def IsName (variableName : List Char) : Prop :=
  ∃ c rest, variableName = c :: rest ∧ isNameStart c = true ∧
    ∀ c' ∈ rest, isNameCharacter c' = true

/-- Each secret is in a literal of its own. -/
def Opens (state : LexState) : List (List Char × List Char) → Prop
  | [] => True
  | (variableName, following) :: secrets =>
    (lexer.step state '\'').2 = .quoted '\'' [] ∧ following.head? ≠ some '\'' ∧
      Opens (lexer.run (.closing '\'' (placeholder variableName)) following).2 secrets

/-- A statement whose placeholders are the contents of string literals. -/
structure RenderedSql extends Template where
  names : ∀ secret ∈ secrets, IsName secret.1
  bareHead : searchPlaceholder head = none
  bareFollowing : ∀ secret ∈ secrets, searchPlaceholder secret.2 = none
  literals : Opens (lexer.run .code head).2 secrets

def RenderedSql.sql (rendered : RenderedSql) : List Char := rendered.fill placeholder

/-- The environment sets all the named variables. -/
def SetsAll (environ : List Char → Option (List Char)) (rendered : RenderedSql) : Prop :=
  ∀ secret ∈ rendered.secrets, (environ secret.1).isSome

def secretOf (environ : List Char → Option (List Char)) (variableName : List Char) : List Char :=
  (environ variableName).getD []

/-- The resolution ends with the text in which every placeholder is replaced once. -/
def ReplacesOnce (environ : List Char → Option (List Char)) (rendered : RenderedSql) : Prop :=
  ∃ bound, ∀ fuel ≥ bound, resolvedSecrets environ fuel rendered.sql =
    some (.ok (rendered.fill (secretOf environ)))

/-- Up to the end of any literal, the tokens are those of the template, and the literal has its
value. So are the tokens of the whole text. -/
structure KeepsTokens (value : List Char → List Char) (template : Template) : Prop where
  literal : ∀ before variableName following after,
    template.secrets = before ++ (variableName, following) :: after →
      tokens ((template.before before).fill value ++ '\'' :: value variableName ++ ['\'']) =
        some (((template.before before).read value).1 ++
          (lexer.step ((template.before before).read value).2 '\'').1 ++
          [.quoted '\'' (value variableName)])
  whole : tokens (template.fill value) =
    (template.read value).2.finish.map ((template.read value).1 ++ ·)

/-- Resolution is literal. -/
def ResolvesLiterally (environ : List Char → Option (List Char)) (rendered : RenderedSql) : Prop :=
  ReplacesOnce environ rendered ∧ KeepsTokens (secretOf environ) rendered.toTemplate

/-- A secret without placeholders that stands for itself between quotes. -/
def PlainSecret (secret : List Char) : Prop :=
  searchPlaceholder secret = none ∧ Denotes '\'' secret secret

def PlainSecrets (environ : List Char → Option (List Char)) (rendered : RenderedSql) : Prop :=
  ∀ secret ∈ rendered.secrets, PlainSecret (secretOf environ secret.1)

/-- No placeholder has another one inside that comes up earlier in the statement. -/
def Apart (names : List (List Char)) : Prop :=
  ∀ before name after, names = before ++ name :: after → name ∉ before →
    ∀ other ∈ after, other ∉ before → other ≠ name → ¬ placeholder name <:+: placeholder other

variable {environ : List Char → Option (List Char)} {name text before after : List Char}
  {state : LexState} {secrets : List (List Char × List Char)} {value : List Char → List Char}

theorem isNameCharacter_of_start {c : Char} (h : isNameStart c = true) :
    isNameCharacter c = true := by
  simp only [isNameStart, isNameCharacter, Char.isAlphanum, Bool.or_eq_true] at h ⊢
  tauto

theorem IsName.characters (h : IsName name) : ∀ c ∈ name, isNameCharacter c = true := by
  obtain ⟨c, rest, rfl, hstart, hrest⟩ := h
  exact forall_mem_cons.mpr ⟨isNameCharacter_of_start hstart, hrest⟩

theorem placeholder_characters (h : IsName name) :
    ∀ c ∈ placeholder name, isNameCharacter c = true := by
  have hprefixed : ∀ c ∈ adapterSecretPlaceholderPrefix, isNameCharacter c = true :=
    all_eq_true.mp (by decide)
  have hsuffixed : ∀ c ∈ adapterSecretPlaceholderSuffix, isNameCharacter c = true :=
    all_eq_true.mp (by decide)
  simp only [placeholder, forall_mem_append]
  exact ⟨⟨hprefixed, h.characters⟩, hsuffixed⟩

theorem quote_not_mem_placeholder (h : IsName name) : '\'' ∉ placeholder name := fun hmem =>
  absurd (placeholder_characters h _ hmem) (by decide)

theorem placeholder_ne_nil (name : List Char) : placeholder name ≠ [] := by
  simp [placeholder, adapterSecretPlaceholderSuffix]

/-- A name is followed by the suffix. -/
theorem nameBeforeSuffix_eq_some (h : nameBeforeSuffix text = some name) :
    (∀ c ∈ name, isNameCharacter c = true) ∧ name ++ adapterSecretPlaceholderSuffix <+: text := by
  induction text generalizing name with
  | nil => simp [nameBeforeSuffix] at h
  | cons c text ih =>
    rw [nameBeforeSuffix] at h
    split at h
    · rename_i more hmore
      cases h
      split_ifs at hmore with hc
      obtain ⟨hcharacters, hsuffix⟩ := ih hmore
      exact ⟨forall_mem_cons.mpr ⟨hc, hcharacters⟩, by simpa using hsuffix⟩
    · split_ifs at h with hsuffix
      cases h
      exact ⟨by simp, hsuffix⟩

theorem nameBeforeSuffix_isSome (h : ∀ c ∈ name, isNameCharacter c = true)
    (hsuffix : name ++ adapterSecretPlaceholderSuffix <+: text) :
    (nameBeforeSuffix text).isSome = true := by
  induction name generalizing text with
  | nil =>
    cases text with
    | nil => simp [adapterSecretPlaceholderSuffix] at hsuffix
    | cons c text =>
      rw [nameBeforeSuffix]
      split
      · rfl
      · rw [if_pos (by simpa using hsuffix)]
        rfl
  | cons c name ih =>
    rw [forall_mem_cons] at h
    obtain ⟨more, rfl⟩ := hsuffix
    obtain ⟨found, hfound⟩ := Option.isSome_iff_exists.mp
      (ih h.2 (prefix_append (name ++ adapterSecretPlaceholderSuffix) more))
    rw [cons_append, cons_append, nameBeforeSuffix, if_pos h.1, hfound]
    rfl

theorem nameBeforeSuffix_self (h : ∀ c ∈ name, isNameCharacter c = true) :
    nameBeforeSuffix (name ++ adapterSecretPlaceholderSuffix) = some name := by
  induction name with
  | nil => decide
  | cons c name ih =>
    rw [forall_mem_cons] at h
    rw [cons_append, nameBeforeSuffix, if_pos h.1, ih h.2]

theorem nameBeforeSuffix_append_quote (before after : List Char) :
    nameBeforeSuffix (before ++ '\'' :: after) = nameBeforeSuffix before := by
  have hquote : '\'' ∉ adapterSecretPlaceholderSuffix := by decide
  induction before with
  | nil =>
    have hsuffix := prefix_append_separator hquote [] after
    have hnone : ¬ adapterSecretPlaceholderSuffix <+: '\'' :: after := fun hstart =>
      absurd (hsuffix.mp hstart) (by decide)
    have hcharacter : isNameCharacter '\'' = false := by decide
    simp [nameBeforeSuffix, hcharacter, hnone]
  | cons c before ih =>
    have hsuffix := prefix_append_separator hquote (c :: before) after
    rw [cons_append] at hsuffix
    rw [cons_append, nameBeforeSuffix, nameBeforeSuffix, ih]
    simp only [hsuffix]

theorem matchPlaceholder_eq_some (h : matchPlaceholder text = some name) :
    IsName name ∧ placeholder name <+: text := by
  unfold matchPlaceholder at h
  split_ifs at h with hstart
  obtain ⟨rest, rfl⟩ := hstart
  rw [drop_left] at h
  split at h
  · cases h
  · rename_i c rest
    split_ifs at h with hc
    obtain ⟨more, hmore, rfl⟩ := Option.map_eq_some_iff.mp h
    obtain ⟨hcharacters, hsuffix⟩ := nameBeforeSuffix_eq_some hmore
    refine ⟨⟨c, more, rfl, hc, hcharacters⟩, ?_⟩
    rw [placeholder, append_assoc, prefix_append_right_inj]
    simpa using hsuffix

theorem matchPlaceholder_isSome (h : IsName name) (hstart : placeholder name <+: text) :
    (matchPlaceholder text).isSome = true := by
  obtain ⟨c, rest, rfl, hc, hrest⟩ := h
  obtain ⟨more, rfl⟩ := hstart
  have hname := nameBeforeSuffix_isSome hrest
    (prefix_append (rest ++ adapterSecretPlaceholderSuffix) more)
  have hshape : placeholder (c :: rest) ++ more = adapterSecretPlaceholderPrefix ++
      c :: (rest ++ adapterSecretPlaceholderSuffix ++ more) := by
    simp [placeholder]
  rw [matchPlaceholder, hshape, if_pos (prefix_append _ _), drop_left]
  simpa [hc] using hname

theorem matchPlaceholder_self (h : IsName name) :
    matchPlaceholder (placeholder name) = some name := by
  obtain ⟨c, rest, rfl, hc, hrest⟩ := h
  have hshape : placeholder (c :: rest) = adapterSecretPlaceholderPrefix ++
      c :: (rest ++ adapterSecretPlaceholderSuffix) := by
    simp [placeholder]
  rw [matchPlaceholder, hshape, if_pos (prefix_append _ _), drop_left]
  simp [hc, nameBeforeSuffix_self hrest]

theorem matchPlaceholder_append_quote (before after : List Char) :
    matchPlaceholder (before ++ '\'' :: after) = matchPlaceholder before := by
  have hquote : '\'' ∉ adapterSecretPlaceholderPrefix := by decide
  have hstart := prefix_append_separator hquote before after
  unfold matchPlaceholder
  simp only [hstart]
  split_ifs with hbefore
  · obtain ⟨rest, rfl⟩ := hbefore
    rw [append_assoc, drop_left, drop_left]
    cases rest with
    | nil => simp [isNameStart]
    | cons c rest => simp [nameBeforeSuffix_append_quote]
  · rfl

theorem searchPlaceholder_isSome (h : IsName name) (hinside : placeholder name <:+: text) :
    (searchPlaceholder text).isSome = true := by
  induction text with
  | nil => simp [placeholder_ne_nil] at hinside
  | cons c text ih =>
    rw [searchPlaceholder, Option.isSome_or, Bool.or_eq_true]
    rcases infix_cons_iff.mp hinside with hstart | hrest
    · exact .inl (matchPlaceholder_isSome h hstart)
    · exact .inr (ih hrest)

theorem searchPlaceholder_isName (h : searchPlaceholder text = some name) : IsName name := by
  induction text with
  | nil => simp [searchPlaceholder] at h
  | cons c text ih =>
    rw [searchPlaceholder, Option.or_eq_some_iff] at h
    rcases h with hmatch | ⟨-, hrest⟩
    · exact (matchPlaceholder_eq_some hmatch).1
    · exact ih hrest

theorem not_infix_of_searchPlaceholder (h : IsName name) (hnone : searchPlaceholder text = none) :
    ¬ placeholder name <:+: text := fun hinside => by
  have hsome := searchPlaceholder_isSome h hinside
  rw [hnone] at hsome
  cases hsome

theorem searchPlaceholder_self (h : IsName name) :
    searchPlaceholder (placeholder name) = some name := by
  have hmatch := matchPlaceholder_self h
  cases hplaceholder : placeholder name with
  | nil => exact absurd hplaceholder (placeholder_ne_nil name)
  | cons c rest =>
    rw [hplaceholder] at hmatch
    rw [searchPlaceholder, hmatch]
    rfl

theorem searchPlaceholder_append_quote (before after : List Char) :
    searchPlaceholder (before ++ '\'' :: after) =
      (searchPlaceholder before).or (searchPlaceholder after) := by
  induction before with
  | nil =>
    have hmatch := matchPlaceholder_append_quote [] after
    rw [nil_append] at hmatch
    simp only [nil_append, searchPlaceholder, hmatch]
    rfl
  | cons c before ih =>
    have hmatch := matchPlaceholder_append_quote (c :: before) after
    rw [cons_append] at hmatch ⊢
    rw [searchPlaceholder, searchPlaceholder, hmatch, ih, Option.or_assoc]

end SqlTide.Adapters
