import SqlTide.SqlAnalysis.TokenBoundaries

/-!
# The two substitutions agree

Resolving a model and rewriting a query replace the same spans by the same relations. The texts are
the same up to the delimiter of the statement.
-/

namespace SqlTide.SqlAnalysis

open Foundations SqlText

variable {tables : PythonTables} {sql : List Char} {references : List SqlReference}

/-- The same text between the calls, and between what replaces them. -/
def OutsidePreserved (sql : List Char) (references : List SqlReference)
    (relation : SqlReference → List Char) (text : List Char) : Prop :=
  ∃ gaps : List (List Char), gaps.length = references.length + 1 ∧
    sql = Splice.interleave gaps (references.map (callOf sql)) ∧
    text = Splice.interleave gaps (references.map relation)

theorem outsidePreserved (h : ReferencesRead tables sql 0 references)
    (relation : SqlReference → List Char) : OutsidePreserved sql references relation
      (Splice.forward sql 0 (references.map (spliceOf relation))) := by
  have horder := h.inOrder relation
  refine ⟨Splice.gaps sql 0 (references.map (spliceOf relation)), ?_, ?_, ?_⟩
  · rw [Splice.length_gaps, List.length_map]
  · have htaken := Splice.interleave_taken horder
    rw [Splice.taken, List.map_map, List.drop_zero] at htaken
    exact htaken.symm
  · rw [Splice.forward_eq_interleave, List.map_map]
    rfl

theorem exists_normalized {relation : SqlReference → List Char}
    (h : ReferencesRead tables sql 0 references)
    (hnames : ∀ reference ∈ references, IsQualifiedName tables (relation reference)) :
    ∃ normalized, normalizedStatementSql
      (Splice.forward sql 0 (references.map (spliceOf relation))) = .ok normalized := by
  obtain ⟨actual, expected, hactual, -⟩ := substituted_tokens h hnames
  obtain ⟨ls, hls, -⟩ := Option.map_eq_some_iff.mp hactual
  exact exists_normalizedStatementSql (by rw [hls]; simp)

/-- The spans of the references are in the text and follow each other. Replacing them from the left
and from the right gives the same text, but for the delimiter at its end, and keeps everything
outside of them. -/
theorem substitutions_agree (hextract : extractReferences tables sql = .ok references) :
    ((∀ reference ∈ references, reference.span.start < reference.span.stop ∧
        reference.span.stop ≤ sql.length) ∧
      references.Pairwise fun before after => before.span.stop ≤ after.span.start) ∧
    (∀ resolver render text, substituted sql references resolver render = .ok text →
      ∃ relation, Assigns resolver render references relation ∧
        OutsidePreserved sql references relation text ∧
        rewrite tables (.ok ()) render sql resolver =
          (normalizedStatementSql text).mapError scanError ∧
        (∀ normalized, normalizedStatementSql text = .ok normalized →
          NormalForm tables text normalized) ∧
        ((∀ reference ∈ references, IsQualifiedName tables (relation reference)) →
          ∃ normalized, normalizedStatementSql text = .ok normalized)) ∧
    ∀ checked resolver render rewritten,
      rewrite tables checked render sql resolver = .ok rewritten →
        ∃ text, substituted sql references resolver render = .ok text ∧
          normalizedStatementSql text = .ok rewritten := by
  have hread := extractReferences_read hextract
  refine ⟨⟨fun reference hreference => (hread.spans.1 reference hreference).2,
    hread.spans.2⟩, ?_, ?_⟩
  · intro resolver render text htext
    obtain ⟨relation, hassigns⟩ := exists_assigns (assigns_of_substitutedLoop htext)
    have hforward := substituted_eq hassigns (hread.inOrder relation)
    obtain rfl := Except.ok.inj (hforward.symm.trans htext)
    exact ⟨relation, hassigns, outsidePreserved hread relation, rewrite_eq hextract hassigns,
      fun normalized => normalizedStatementSql_ok, exists_normalized hread⟩
  · intro checked resolver render rewritten hrewrite
    obtain ⟨rfl, relation, hassigns⟩ := assigns_of_rewrite hextract hrewrite
    refine ⟨_, substituted_eq hassigns (hread.inOrder relation), ?_⟩
    rw [rewrite_eq hextract hassigns] at hrewrite
    cases hnormalized : normalizedStatementSql
        (Splice.forward sql 0 (references.map (spliceOf relation))) with
    | error error => simp [hnormalized, Except.mapError] at hrewrite
    | ok normalized => simpa [hnormalized, Except.mapError] using hrewrite

/-- With the delimiter of the statement. -/
def delimitedAlias : List Char := "FROM __ref(orders) AS o; -- all".toList

theorem substitutions_agree_delimited : ∃ text,
    substituted delimitedAlias [ordersReference delimitedAlias] ordersResolver ordersRender =
        .ok text ∧
      rewrite asciiTables (.ok ()) ordersRender delimitedAlias ordersResolver =
        (normalizedStatementSql text).mapError scanError ∧
      rewrite asciiTables (.ok ()) ordersRender delimitedAlias ordersResolver =
        .ok "FROM orders AS o -- all".toList := by
  have hextract : extractReferences asciiTables delimitedAlias =
      .ok [ordersReference delimitedAlias] := by decide +kernel
  have htext : substituted delimitedAlias [ordersReference delimitedAlias] ordersResolver
      ordersRender = .ok "FROM orders AS o; -- all".toList := by decide +kernel
  obtain ⟨-, hagree, -⟩ := substitutions_agree hextract
  obtain ⟨relation, -, -, hrewrite, -⟩ := hagree _ _ _ htext
  exact ⟨_, htext, hrewrite, by rw [hrewrite]; decide +kernel⟩

end SqlTide.SqlAnalysis
