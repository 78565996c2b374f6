import SqlTide.Foundations.ClickHouseTokens
import SqlTide.Foundations.DecimalText
import SqlTide.Foundations.Failures

/-!
# Token shapes

What a part of a statement is read as, whatever stands behind it, and how two statements with the
same parts compare when their numbers or the contents of their string literals differ.
-/

namespace SqlTide.Foundations.ClickHouse

open List Transducer

variable {text text' more more' : List Char} {read read' moreRead moreRead' : List Token}

/-- A text before which a quote is closed. -/
def ClosesQuotes (text : List Char) : Prop := text.head?.all (!isQuote ·) = true

instance : Decidable (ClosesQuotes text) := inferInstanceAs (Decidable (_ = true))

/-- A text outside of quotes, without comments. -/
def IsCode (text : List Char) : Prop := lexer.run .code text = (text.map .plain, .code)

instance : Decidable (IsCode text) := inferInstanceAs (Decidable (_ = _))

/-- Where no quote follows directly, the text has its own tokens. -/
def ReadsAs (text : List Char) (read : List Token) : Prop :=
  ∀ rest, ClosesQuotes rest → tokens (text ++ rest) = (tokens rest).map (read ++ ·)

theorem ClosesQuotes.append (hne : text ≠ []) (h : ClosesQuotes text) (more : List Char) :
    ClosesQuotes (text ++ more) := by
  cases text with
  | nil => exact absurd rfl hne
  | cons c text => exact h

theorem ReadsAs.tokens_eq (h : ReadsAs text read) : tokens text = some read := by
  have hall := h [] (by simp [ClosesQuotes])
  rw [append_nil] at hall
  simpa [tokens, LexState.finish] using hall

theorem ReadsAs.nil : ReadsAs [] [] := by
  intro rest _
  simp

theorem tokens_code (h : IsCode text) (rest : List Char) :
    tokens (text ++ rest) = (tokens rest).map (text.map .plain ++ ·) := by
  simp only [tokens, run_append, show lexer.run .code text = _ from h]
  simp [Option.map_map, Function.comp_def]

theorem ReadsAs.code (h : IsCode text) : ReadsAs text (text.map .plain) :=
  fun rest _ => tokens_code h rest

theorem ReadsAs.code_append (h : IsCode text) (hmore : ReadsAs more moreRead) :
    ReadsAs (text ++ more) (text.map .plain ++ moreRead) := by
  intro rest hrest
  rw [append_assoc, tokens_code h, hmore rest hrest, Option.map_map]
  simp [Function.comp_def]

theorem ReadsAs.append (h : ReadsAs text read) (hmore : ReadsAs more moreRead)
    (hcloses : ClosesQuotes more) : ReadsAs (text ++ more) (read ++ moreRead) := by
  intro rest hrest
  have hnext : ClosesQuotes (more ++ rest) := by
    cases more with
    | nil => exact hrest
    | cons c more => exact hcloses
  rw [append_assoc, h _ hnext, hmore rest hrest, Option.map_map]
  simp [Function.comp_def]

theorem ReadsAs.quoted {quote : Char} {contents value : List Char} (hquote : isQuote quote = true)
    (h : Denotes quote contents value) :
    ReadsAs (quote :: contents ++ [quote]) [.quoted quote value] := by
  intro rest hrest
  have hopen : lexer.step .code quote = ([], .quoted quote []) := if_pos hquote
  cases rest with
  | nil =>
    simp only [append_nil, tokens, run_literal hopen h, run_nil]
    rfl
  | cons c rest =>
    have hne : (c :: rest).head? ≠ some quote := by
      rintro ⟨⟩
      simp [ClosesQuotes, hquote] at hrest
    simp only [tokens, lexer.run_append .code (quote :: contents ++ [quote]) (c :: rest),
      run_literal hopen h, run_closing hne (cons_ne_nil c rest)]
    simp [Option.map_map, Function.comp_def]

def isSimple (c : Char) : Bool := !isQuote c && c ≠ '-' && c ≠ '/' && c ≠ '#'

theorem stepCode_simple {c : Char} (h : isSimple c = true) : stepCode c = ([.plain c], .code) := by
  simp only [isSimple, Bool.and_eq_true, Bool.not_eq_true', decide_eq_true_eq] at h
  obtain ⟨⟨⟨hquote, hdash⟩, hslash⟩, hhash⟩ := h
  rw [stepCode, if_neg (by simp [hquote]), if_neg (by simp [hdash, hslash, hhash])]

theorem IsCode.of_simple (h : text.all isSimple = true) : IsCode text := by
  induction text with
  | nil => rfl
  | cons c text ih =>
    rw [all_cons, Bool.and_eq_true] at h
    have hrest : lexer.run .code text = _ := ih h.2
    rw [IsCode, run_cons, show lexer.step .code c = _ from stepCode_simple h.1, hrest]
    rfl

theorem IsCode.append (h : IsCode text) (h' : IsCode text') : IsCode (text ++ text') := by
  rw [IsCode, run_append, show lexer.run .code text = _ from h,
    show lexer.run .code text' = _ from h', map_append]

theorem IsCode.minus (hne : text ≠ []) (h : text.all isSimple = true) : IsCode ('-' :: text) := by
  cases text with
  | nil => exact absurd rfl hne
  | cons c text =>
    rw [all_cons, Bool.and_eq_true] at h
    have hdash : c ≠ '-' := by
      rintro rfl
      cases h.1
    have hrest : lexer.run .code text = _ := IsCode.of_simple h.2
    have hstep : lexer.step (.pending '-') c = ([.plain '-', .plain c], .code) := by
      simp [lexer, stepPending, hdash, stepCode_simple h.1]
    rw [IsCode, run_cons, show lexer.step .code '-' = ([], .pending '-') from rfl,
      run_cons, hstep, hrest]
    rfl

theorem isSimple_of_isDigit {c : Char} (h : c.isDigit = true) : isSimple c = true := by
  simp only [isSimple, isQuote, Bool.and_eq_true, Bool.not_eq_true', decide_eq_true_eq,
    Bool.or_eq_false_iff, decide_eq_false_iff_not]
  refine ⟨⟨⟨⟨⟨?_, ?_⟩, ?_⟩, ?_⟩, ?_⟩, ?_⟩ <;>
  · rintro rfl
    cases h

theorem isCode_digits (n : ℕ) : IsCode (Nat.toDigits 10 n) := by
  apply IsCode.of_simple
  rw [all_eq_true]
  intro c hc
  exact isSimple_of_isDigit (all_eq_true.mp (all_isDigit_toDigits n) c hc)

/-- A backslash before each backslash and each single quote. -/
def escapeLiteral (text : List Char) : List Char :=
  text.flatMap fun c => if c = '\\' ∨ c = '\'' then ['\\', c] else [c]

theorem run_escapeLiteral (value : List Char) :
    lexer.run (.quoted '\'' value) (escapeLiteral text) = ([], .quoted '\'' (value ++ text)) := by
  induction text generalizing value with
  | nil => simp [escapeLiteral]
  | cons c text ih =>
    have hstep : lexer.run (.quoted '\'' value) (if c = '\\' ∨ c = '\'' then ['\\', c] else [c]) =
        ([], .quoted '\'' (value ++ [c])) := by
      split_ifs with hescape
      · rcases hescape with rfl | rfl <;> simp [run, lexer, stepQuoted, escapedText]
      · rw [not_or] at hescape
        exact run_quoted_plain (by simpa using hescape) value
    have hrest := ih (value ++ [c])
    rw [escapeLiteral] at hrest
    rw [escapeLiteral, flatMap_cons, run_append, hstep, hrest]
    simp

theorem denotes_escapeLiteral (text : List Char) : Denotes '\'' (escapeLiteral text) text := by
  rw [Denotes, run_append, run_escapeLiteral]
  rfl

/-- The contents of the string literals, in their order. -/
def literals (read : List Token) : List (List Char) :=
  read.filterMap fun token => match token with
    | .quoted '\'' value => some value
    | _ => none

@[simp] theorem literals_append (read read' : List Token) :
    literals (read ++ read') = literals read ++ literals read' := filterMap_append

@[simp] theorem literals_plain (text : List Char) : literals (text.map .plain) = [] := by
  simp [literals]

/-- A token without the contents of a string literal. -/
def Token.blank : Token → Token
  | .plain c => .plain c
  | .quoted quote value => .quoted quote (if quote = '\'' then [] else value)

/-- Any digit stands for all of them. -/
def Token.kind : Token → Token
  | .plain c => .plain (if c.isDigit then '0' else c)
  | token => token.blank

/-- A run of digits is written as one digit. -/
def addKind (token : Token) (kinds : List Token) : List Token :=
  if token.kind = .plain '0' ∧ kinds.head? = some (.plain '0') then kinds else token.kind :: kinds

/-- The tokens without the contents of string literals and the values of numbers. -/
def shape (read : List Token) : List Token := read.foldr addKind []

/-- A comparison of tokens, part by part, that says nothing of string literals. -/
structure TokenRelation (numbers : ℕ → ℕ → Prop) where
  Related : List Token → List Token → Prop
  refl : ∀ read, Related read read
  append : ∀ {read read' moreRead moreRead' : List Token}, Related read read' →
    Related moreRead moreRead' → Related (read ++ moreRead) (read' ++ moreRead')
  literal : ∀ value value', Related [.quoted '\'' value] [.quoted '\'' value']
  number : ∀ {n m : ℕ}, numbers n m →
    Related ((Nat.toDigits 10 n).map .plain) ((Nat.toDigits 10 m).map .plain)

/-- The statements differ at most in the contents of string literals. -/
def sameOutsideLiterals : TokenRelation (· = ·) where
  Related read read' := read.map Token.blank = read'.map Token.blank
  refl _ := rfl
  append h h' := by rw [map_append, map_append, h, h']
  literal _ _ := rfl
  number h := by rw [h]

theorem kind_kind (token : Token) : token.kind.kind = token.kind := by
  cases token with
  | plain c => by_cases hdigit : c.isDigit = true <;> simp [Token.kind, hdigit]
  | quoted quote value => by_cases hquote : quote = '\'' <;> simp [Token.kind, Token.blank, hquote]

theorem addKind_kind (token : Token) (kinds : List Token) :
    addKind token.kind kinds = addKind token kinds := by rw [addKind, addKind, kind_kind]

theorem addKind_digit_twice {token token' : Token} (h : token.kind = .plain '0')
    (h' : token'.kind = .plain '0') (kinds : List Token) :
    addKind token (addKind token' kinds) = addKind token' kinds := by
  rw [addKind, if_pos]
  refine ⟨h, ?_⟩
  rw [addKind, h']
  split_ifs with hhead
  · exact hhead.2
  · rfl

theorem foldr_addKind_shape (read : List Token) (kinds : List Token) :
    (shape read).foldr addKind kinds = read.foldr addKind kinds := by
  induction read with
  | nil => rfl
  | cons token read ih =>
    rw [shape, foldr_cons, foldr_cons, ← ih, ← shape, addKind]
    split_ifs with hdigits
    · obtain ⟨hkind, hhead⟩ := hdigits
      obtain ⟨rest, hrest⟩ := head?_eq_some_iff.mp hhead
      rw [hrest, foldr_cons, addKind_digit_twice hkind rfl]
    · rw [foldr_cons, addKind_kind]

theorem shape_append (read read' : List Token) :
    shape (read ++ read') = (shape read).foldr addKind (shape read') := by
  rw [foldr_addKind_shape, shape, foldr_append, ← shape]

theorem shape_digits {digits : List Char} (hne : digits ≠ [])
    (h : digits.all Char.isDigit = true) : shape (digits.map .plain) = [.plain '0'] := by
  induction digits with
  | nil => exact absurd rfl hne
  | cons d digits ih =>
    rw [all_cons, Bool.and_eq_true] at h
    have hkind : (Token.plain d).kind = .plain '0' := by simp [Token.kind, h.1]
    rw [map_cons, shape, foldr_cons, ← shape, addKind, hkind]
    cases digits with
    | nil => rfl
    | cons d' digits =>
      rw [ih (cons_ne_nil _ _) h.2]
      rfl

/-- The statements differ at most in the contents of string literals and the values of numbers. -/
def sameShape : TokenRelation (fun _ _ => True) where
  Related read read' := shape read = shape read'
  refl _ := rfl
  append h h' := by rw [shape_append, shape_append, h, h']
  literal _ _ := rfl
  number _ := by
    rw [shape_digits Nat.toDigits_ne_nil (all_isDigit_toDigits _),
      shape_digits Nat.toDigits_ne_nil (all_isDigit_toDigits _)]

variable {numbers : ℕ → ℕ → Prop}

/-- Two parts of statements, with the values of their string literals. -/
structure Paired (relation : TokenRelation numbers) (text text' : List Char)
    (values values' : List (List Char)) : Prop where
  reads : ∃ read read', ReadsAs text read ∧ ReadsAs text' read' ∧ relation.Related read read' ∧
    literals read = values ∧ literals read' = values'

variable {relation : TokenRelation numbers} {values values' moreValues moreValues' : List
  (List Char)}

theorem Paired.nil : Paired relation [] [] [] [] :=
  ⟨[], [], .nil, .nil, relation.refl [], rfl, rfl⟩

theorem Paired.code (h : IsCode text) : Paired relation text text [] [] :=
  ⟨_, _, .code h, .code h, relation.refl _, literals_plain _, literals_plain _⟩

theorem Paired.number {n m : ℕ} (h : numbers n m) :
    Paired relation (Nat.toDigits 10 n) (Nat.toDigits 10 m) [] [] :=
  ⟨_, _, .code (isCode_digits n), .code (isCode_digits m), relation.number h, literals_plain _,
    literals_plain _⟩

theorem Paired.literal {contents contents' value value' : List Char}
    (h : Denotes '\'' contents value) (h' : Denotes '\'' contents' value') :
    Paired relation ('\'' :: contents ++ ['\'']) ('\'' :: contents' ++ ['\'']) [value] [value'] :=
  ⟨_, _, .quoted rfl h, .quoted rfl h', relation.literal value value', rfl, rfl⟩

/-- A name between backticks that needs no escapes. -/
theorem Paired.backticked (h : ∀ c ∈ text, c ≠ '\\' ∧ c ≠ '`') :
    Paired relation ('`' :: text ++ ['`']) ('`' :: text ++ ['`']) [] [] := by
  have hdenotes : Denotes '`' text text := .plain (by decide) h
  exact ⟨_, _, .quoted rfl hdenotes, .quoted rfl hdenotes, relation.refl _, rfl, rfl⟩

theorem Paired.code_append (h : IsCode text) (hmore : Paired relation more more' values values') :
    Paired relation (text ++ more) (text ++ more') values values' := by
  obtain ⟨read, read', hread, hread', hrelated, rfl, rfl⟩ := hmore.reads
  exact ⟨_, _, .code_append h hread, .code_append h hread',
    relation.append (relation.refl _) hrelated, by simp, by simp⟩

theorem Paired.append (h : Paired relation text text' values values')
    (hmore : Paired relation more more' moreValues moreValues') (hcloses : ClosesQuotes more)
    (hcloses' : ClosesQuotes more') :
    Paired relation (text ++ more) (text' ++ more') (values ++ moreValues)
      (values' ++ moreValues') := by
  obtain ⟨read, read', hread, hread', hrelated, rfl, rfl⟩ := h.reads
  obtain ⟨moreRead, moreRead', hmoreRead, hmoreRead', hmoreRelated, rfl, rfl⟩ := hmore.reads
  exact ⟨_, _, .append hread hmoreRead hcloses, .append hread' hmoreRead' hcloses',
    relation.append hrelated hmoreRelated, literals_append _ _, literals_append _ _⟩

theorem Paired.append_code (h : Paired relation text text' values values') (hcode : IsCode more)
    (hcloses : ClosesQuotes more) :
    Paired relation (text ++ more) (text' ++ more) values values' := by
  simpa using h.append (.code hcode) hcloses hcloses

theorem Paired.between {before after : List Char} (h : Paired relation text text' values values')
    (hbefore : IsCode before) (hafter : IsCode after) (hcloses : ClosesQuotes after) :
    Paired relation (before ++ text ++ after) (before ++ text' ++ after) values values' :=
  (h.code_append hbefore).append_code hafter hcloses

inductive PairedAll (relation : TokenRelation numbers) :
    List (List Char) → List (List Char) → List (List Char) → List (List Char) → Prop
  | nil : PairedAll relation [] [] [] []
  | cons {text text' : List Char} {texts texts' values values' moreValues moreValues' :
      List (List Char)} : Paired relation text text' values values' →
      PairedAll relation texts texts' moreValues moreValues' →
      PairedAll relation (text :: texts) (text' :: texts') (values ++ moreValues)
        (values' ++ moreValues')

variable {texts texts' moreTexts moreTexts' : List (List Char)}

theorem PairedAll.singleton (h : Paired relation text text' values values') :
    PairedAll relation [text] [text'] values values' := by
  simpa using PairedAll.cons h .nil

theorem PairedAll.append (h : PairedAll relation texts texts' values values')
    (hmore : PairedAll relation moreTexts moreTexts' moreValues moreValues') :
    PairedAll relation (texts ++ moreTexts) (texts' ++ moreTexts') (values ++ moreValues)
      (values' ++ moreValues') := by
  induction h with
  | nil => exact hmore
  | cons hfirst _ ih =>
    rw [append_assoc, append_assoc]
    exact .cons hfirst ih

theorem PairedAll.eq_nil_iff (h : PairedAll relation texts texts' values values') :
    texts = [] ↔ texts' = [] := by
  cases h <;> simp

theorem PairedAll.values_eq_nil (h : PairedAll relation [] [] values values') :
    values = [] ∧ values' = [] := by
  cases h
  exact ⟨rfl, rfl⟩

theorem PairedAll.intercalate {separator : List Char} (hcode : IsCode separator)
    (hne : separator ≠ []) (hcloses : ClosesQuotes separator)
    (h : PairedAll relation texts texts' values values') :
    Paired relation (intercalate separator texts) (intercalate separator texts') values
      values' := by
  induction h with
  | nil => exact .nil
  | cons hfirst hrest ih =>
    cases hrest with
    | nil => simpa using hfirst
    | cons hsecond hmore =>
      rw [intercalate_cons_cons, intercalate_cons_cons, append_assoc, append_assoc]
      exact hfirst.append (ih.code_append hcode) (hcloses.append hne _) (hcloses.append hne _)

theorem PairedAll.flatMap {before : List Char} (hcode : IsCode before) (hne : before ≠ [])
    (hcloses : ClosesQuotes before) (h : PairedAll relation texts texts' values values') :
    Paired relation (texts.flatMap (before ++ ·)) (texts'.flatMap (before ++ ·)) values
      values' := by
  induction h with
  | nil => exact .nil
  | @cons text text' texts texts' values values' moreValues moreValues' hfirst hrest ih =>
    have hcloses' : ∀ texts : List (List Char), ClosesQuotes (texts.flatMap (before ++ ·)) := by
      intro texts
      cases texts with
      | nil => simp [ClosesQuotes]
      | cons text texts =>
        rw [flatMap_cons, append_assoc]
        exact hcloses.append hne _
    exact (hfirst.code_append hcode).append ih (hcloses' _) (hcloses' _)

theorem PairedAll.of_mapM {α ε : Type} {f : α → Except ε (List Char)} {R : α → α → Prop}
    {strings : α → List (List Char)} {items items' : List α}
    (hitem : ∀ a a', R a a' → ∀ text text', f a = .ok text → f a' = .ok text' →
      Paired relation text text' (strings a) (strings a')) (hall : List.Forall₂ R items items')
    (h : items.mapM f = .ok texts) (h' : items'.mapM f = .ok texts') :
    PairedAll relation texts texts' (items.flatMap strings) (items'.flatMap strings) := by
  induction hall generalizing texts texts' with
  | nil =>
    obtain rfl : [] = texts := by simpa [pure, Except.pure] using h
    obtain rfl : [] = texts' := by simpa [pure, Except.pure] using h'
    exact .nil
  | cons hfirst _ ih =>
    simp only [mapM_cons, bind_eq_ok, pure, Except.pure, Except.ok.injEq] at h h'
    obtain ⟨text, htext, rest, hrest, rfl⟩ := h
    obtain ⟨text', htext', rest', hrest', rfl⟩ := h'
    exact .cons (hitem _ _ hfirst text text' htext htext') (ih hrest hrest')

end SqlTide.Foundations.ClickHouse
