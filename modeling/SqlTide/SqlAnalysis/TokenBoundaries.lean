import SqlTide.SqlAnalysis.ReferenceSubstitution

/-!
# Token boundaries of a substitution

The call of a reference ends in a parenthesis, which no relation does. The tokens around the
references stay apart from the relations just where no call is followed by a character of an
identifier.
-/

namespace SqlTide.SqlAnalysis

open Foundations List SqlText

/-- From the cursor on, the tokens between the references and those of what replaces each. -/
def replacedTokens (tables : PythonTables) (sql : List Char)
    (replacement : SqlReference → List Char) : ℕ → List SqlReference → Option (List Lexeme)
  | cursor, [] => tokens tables (sql.drop cursor)
  | cursor, reference :: references => do
    let before ← tokens tables ((sql.take reference.span.start).drop cursor)
    let replaced ← tokens tables (replacement reference)
    let more ← replacedTokens tables sql replacement reference.span.stop references
    some (before ++ replaced ++ more)

/-- No reference is followed by a character of an identifier. -/
def CallsSeparated (tables : PythonTables) (sql : List Char) (references : List SqlReference) :
    Prop :=
  ∀ reference ∈ references, ¬ ContinuesName tables (sql.drop reference.span.stop)

instance {tables : PythonTables} {sql : List Char} {references : List SqlReference} :
    Decidable (CallsSeparated tables sql references) :=
  inferInstanceAs
    (Decidable (∀ reference ∈ references, ¬ ContinuesName tables (sql.drop reference.span.stop)))

variable {tables : PythonTables} {sql text rest : List Char} {cursor : ℕ} {ls : List Lexeme}
  {reference : SqlReference} {references : List SqlReference} {resolver : String → Option String}
  {render : String → AnalysisResult (List Char)} {relation : SqlReference → List Char}

/-- What is before a call can be read on its own, before the call and before a name. -/
theorem exists_reads_gap {start : ℕ} (hread : CodeRead tables sql cursor start)
    (hlast : ∀ character ∈ ((sql.take start).drop cursor).getLast?,
      isIdentifierCharacter tables character = false) (hhead : (sql.drop start).head? = some '_')
    (hrest : ∃ first ∈ rest.head?, isIdentifierStart tables first = true) :
    ∃ ls, Reads tables ((sql.take start).drop cursor) ls (sql.drop start) ∧
      Reads tables ((sql.take start).drop cursor) ls rest := by
  have hends := hread.code.endsBefore_of_getLast hlast
  refine ⟨_, ⟨rfl, hends⟩, rfl, ?_⟩
  obtain ⟨call, hcall⟩ := head?_eq_some_iff.mp hhead
  obtain ⟨first, hfirst, hstart⟩ := hrest
  obtain ⟨rest, rfl⟩ := head?_eq_some_iff.mp hfirst
  rw [hcall] at hends
  exact endsBefore_word hends delimiter_run_code rfl hstart

theorem replacedTokens_callOf (h : ReferencesRead tables sql cursor references) :
    ∃ ls, tokens tables (sql.drop cursor) = some ls ∧
      replacedTokens tables sql (callOf sql) cursor references = some ls := by
  induction references generalizing cursor with
  | nil =>
    have hcode : CodeRead tables sql cursor sql.length := h
    have hends := hcode.code.endsBefore_of_head (by simp)
    rw [take_length] at hends
    have htokens := Reads.tokens_eq ⟨rfl, hends⟩
    exact ⟨_, htokens, htokens⟩
  | cons reference references ih =>
    obtain ⟨hread, hlast, hcall, hrest⟩ := h
    obtain ⟨more, hmore, hreplaced⟩ := ih hrest
    obtain ⟨before, hbefore, -⟩ := @exists_reads_gap tables _ ['_'] _ _ hread hlast hcall.head
      ⟨'_', rfl, rfl⟩
    obtain ⟨called, hrun⟩ := hcall.read
    have hreads : Reads tables (callOf sql reference) called (sql.drop reference.span.stop) := by
      rw [Reads, callOf, hrun]
      exact ⟨append_nil _, code_endsBefore⟩
    have hjoin : callOf sql reference ++ sql.drop reference.span.stop =
        sql.drop reference.span.start :=
      Splice.range_append_drop hcall.lt.le hcall.stop
    have hsplit : (sql.take reference.span.start).drop cursor ++ sql.drop reference.span.start =
        sql.drop cursor :=
      Splice.range_append_drop hread.le hread.stop
    have htokens := hbefore.tokens_append
    rw [hsplit, ← hjoin, hreads.tokens_append, hmore] at htokens
    refine ⟨_, htokens, ?_⟩
    rw [replacedTokens, hbefore.tokens_eq, hreads.tokens_eq, hreplaced]
    simp

section

variable (h : ReferencesRead tables sql cursor references)
  (hnames : ∀ reference ∈ references, IsQualifiedName tables (relation reference))

include h hnames

/-- After a call, the substituted text goes on as the authored one does. -/
theorem continuesName_forward :
    ContinuesName tables (Splice.forward sql cursor (references.map (spliceOf relation))) ↔
      ContinuesName tables (sql.drop cursor) := by
  cases references with
  | nil => rfl
  | cons reference references =>
    obtain ⟨hread, -, hcall, -⟩ := h
    have hsplit := Splice.range_append_drop hread.le hread.stop
    obtain ⟨call, hhead⟩ := head?_eq_some_iff.mp hcall.head
    rw [map_cons, Splice.forward, append_assoc, ← hsplit]
    show ContinuesName tables ((sql.take reference.span.start).drop cursor ++ _) ↔ _
    cases (sql.take reference.span.start).drop cursor with
    | nil =>
      have hname := hnames reference (by simp)
      rw [nil_append, nil_append, hhead]
      exact iff_of_true hname.continuesName ⟨'_', rfl, rfl⟩
    | cons character gap => exact Iff.rfl

/-- The tokens of a substituted text, and those of the authored text with the calls replaced: none
is gained, and one is lost just where a call is not separated from what follows it. -/
theorem substituted_tokens :
    ∃ actual expected,
      tokens tables (Splice.forward sql cursor (references.map (spliceOf relation))) = some actual ∧
      replacedTokens tables sql relation cursor references = some expected ∧
      actual.length ≤ expected.length ∧ (CallsSeparated tables sql references → actual = expected) ∧
      (¬ CallsSeparated tables sql references → actual.length < expected.length) := by
  induction references generalizing cursor with
  | nil =>
    obtain ⟨ls, htokens, -⟩ := replacedTokens_callOf h
    have hseparated : CallsSeparated tables sql [] := by simp [CallsSeparated]
    exact ⟨ls, ls, htokens, htokens, le_rfl, fun _ => rfl, fun hnot => absurd hseparated hnot⟩
  | cons reference references ih =>
    have hrelations := fun r hr => hnames r (mem_cons_of_mem _ hr)
    obtain ⟨hread, hlast, hcall, hrest⟩ := h
    obtain ⟨actual, expected, hactual, hexpected, hle, hsame, hlost⟩ := ih hrest hrelations
    have hcontinues := continuesName_forward hrest hrelations
    have hname := hnames reference (by simp)
    generalize hafter :
      Splice.forward sql reference.span.stop (references.map (spliceOf relation)) =
      after at hactual hcontinues
    obtain ⟨first, hfirst, hstart⟩ := hname.head
    have hhead : ∃ first ∈ (relation reference ++ after).head?,
        isIdentifierStart tables first = true := by
      obtain ⟨name, hname'⟩ := head?_eq_some_iff.mp hfirst
      exact ⟨first, by rw [hname']; rfl, hstart⟩
    obtain ⟨gap, hgap, hgap'⟩ := exists_reads_gap hread hlast hcall.head hhead
    have hall := hgap'.tokens_append
    have hforward : Splice.forward sql cursor ((reference :: references).map (spliceOf relation)) =
        (sql.take reference.span.start).drop cursor ++ (relation reference ++ after) := by
      rw [← hafter, ← append_assoc]
      rfl
    rw [hforward, replacedTokens, hgap.tokens_eq, hexpected]
    by_cases hseparated : ContinuesName tables (sql.drop reference.span.stop)
    · -- the relation takes the first name of what follows
      obtain ⟨own, together, hown, htogether, hlength⟩ :=
        hname.fuses (hcontinues.mpr hseparated) hactual
      have hnot : ¬ CallsSeparated tables sql (reference :: references) :=
        fun hall => hall reference (by simp) hseparated
      have hshort : ((gap.filter fun l => !l.isComment) ++ together).length <
          ((gap.filter fun l => !l.isComment) ++ own ++ expected).length := by
        simp only [length_append] at hlength ⊢
        omega
      rw [htogether] at hall
      refine ⟨_, _, hall, ?_, hshort.le, fun hyes => absurd hyes hnot, fun _ => hshort⟩
      rw [hown]
      rfl
    · obtain ⟨own, hown, hreads⟩ := hname.reads (fun hfuse => hseparated (hcontinues.mp hfuse))
      rw [hreads.tokens_append, hactual] at hall
      rw [hreads.tokens_eq]
      refine ⟨_, _, hall, rfl, ?_, ?_, ?_⟩
      · simp only [length_append]
        omega
      · intro hyes
        have hmore : CallsSeparated tables sql references :=
          fun r hr => hyes r (mem_cons_of_mem _ hr)
        simp [hsame hmore, append_assoc]
      · intro hnot
        have hmore : ¬ CallsSeparated tables sql references := by
          intro hmore
          refine hnot fun r hr => ?_
          rcases mem_cons.mp hr with rfl | hr
          · exact hseparated
          · exact hmore r hr
        have := hlost hmore
        simp only [length_append]
        omega

end

/-- The tokens of a substituted text are those of the authored one, with the calls replaced, just if
no call is followed by a character of an identifier. -/
theorem substituted_preservesTokens_iff (hextract : extractReferences tables sql = .ok references)
    (hassigns : Assigns resolver render references relation)
    (hnames : ∀ reference ∈ references, IsQualifiedName tables (relation reference)) :
    ∃ text, substituted sql references resolver render = .ok text ∧
      tokens tables sql = replacedTokens tables sql (callOf sql) 0 references ∧
      (tokens tables text = replacedTokens tables sql relation 0 references ↔
        CallsSeparated tables sql references) := by
  have hread := extractReferences_read hextract
  obtain ⟨ls, hauthored, hcalls⟩ := replacedTokens_callOf hread
  obtain ⟨actual, expected, hactual, hexpected, -, hsame, hlost⟩ :=
    substituted_tokens hread hnames
  rw [drop_zero] at hauthored
  refine ⟨_, substituted_eq hassigns (hread.inOrder relation), hauthored.trans hcalls.symm, ?_⟩
  rw [hactual, hexpected, Option.some_inj]
  constructor
  · intro heq
    by_contra hnot
    have := hlost hnot
    rw [heq] at this
    exact absurd this (lt_irrefl _)
  · exact hsame

def ordersResolver (name : String) : Option String :=
  if name = "orders" then some "orders" else none

def ordersRender (target : String) : AnalysisResult (List Char) := .ok target.toList

def spacedAlias : List Char := "FROM __ref(orders) AS o".toList

def unspacedAlias : List Char := "FROM __ref(orders)AS o".toList

/-- The reference of both texts. -/
def ordersReference (sql : List Char) : SqlReference := ⟨"orders", .ref, none, sourceSpan sql 5 18⟩

theorem ordersReference_assigns (sql : List Char) : Assigns ordersResolver ordersRender
    [ordersReference sql] fun _ => "orders".toList := by
  intro reference hreference
  obtain rfl := mem_singleton.mp hreference
  rfl

theorem isIdentifier_orders : IsIdentifier asciiTables "orders".toList :=
  ⟨⟨'o', rfl, rfl⟩, all_eq_true.mp (by decide)⟩

theorem substituted_preservesTokens_iff_spaced : ∃ text,
    substituted spacedAlias [ordersReference spacedAlias] ordersResolver ordersRender = .ok text ∧
      tokens asciiTables text = replacedTokens asciiTables spacedAlias
        (fun _ => "orders".toList) 0 [ordersReference spacedAlias] := by
  have hextract : extractReferences asciiTables spacedAlias =
    .ok [ordersReference spacedAlias] := by
    decide +kernel
  obtain ⟨text, htext, -, hiff⟩ := substituted_preservesTokens_iff hextract
    (ordersReference_assigns _) fun _ _ => .identifier isIdentifier_orders
  exact ⟨text, htext, hiff.mpr (by decide +kernel)⟩

/-- The relation takes the keyword of an alias that follows its call without a space. -/
theorem not_substituted_preservesTokens :
    ¬ ∀ (tables : PythonTables) (sql : List Char) (references : List SqlReference)
      (resolver : String → Option String) (render : String → AnalysisResult (List Char))
      (relation : SqlReference → List Char),
      extractReferences tables sql = .ok references → Assigns resolver render references relation →
      (∀ reference ∈ references, IsIdentifier tables (relation reference)) →
      ∃ text, substituted sql references resolver render = .ok text ∧
        tokens tables text = replacedTokens tables sql relation 0 references := by
  intro h
  obtain ⟨text, htext, htokens⟩ := h asciiTables unspacedAlias [ordersReference unspacedAlias]
    ordersResolver ordersRender (fun _ => "orders".toList) (by decide +kernel)
    (ordersReference_assigns _) fun _ _ => isIdentifier_orders
  have hfused : substituted unspacedAlias [ordersReference unspacedAlias] ordersResolver
      ordersRender = .ok "FROM ordersAS o".toList := by decide +kernel
  obtain rfl := Except.ok.inj (hfused.symm.trans htext)
  revert htokens
  decide +kernel

end SqlTide.SqlAnalysis
