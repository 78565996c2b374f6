import SqlTide.SqlText.References
import SqlTide.SqlText.Statements

/-!
# The two substitutions of references

The references of an authored text are replaced by relations from the left, when a model is
resolved, and from the right, when a query is rewritten. The relations come from a cache of parsed
targets, and a rewrite is validated on the parsed query first.
-/

namespace SqlTide.SqlAnalysis

open Foundations List SqlText

structure AnalysisError where
  message : String
  deriving DecidableEq, Repr

abbrev AnalysisResult (α : Type) := Except AnalysisError α

def unresolvedRef (name : String) : String := "Unresolved ref: " ++ name

/-- The loop of `RelationCache::substituted`: the pieces so far, and the cursor. -/
def substitutedLoop (authored : List Char) (resolver : String → Option String)
    (render : String → AnalysisResult (List Char)) :
    List Char → ℕ → List SqlReference → AnalysisResult (List Char)
  | pieces, cursor, [] => .ok (pieces ++ authored.drop (min cursor authored.length))
  | pieces, cursor, reference :: references =>
    match resolver reference.name with
    | none => .error ⟨unresolvedRef reference.name⟩
    | some target => do
      let relation ← render target
      let between := (authored.take (min reference.span.start authored.length)).drop
        (min cursor authored.length)
      substitutedLoop authored resolver render (pieces ++ between ++ relation) reference.span.stop
        references

/-- `RelationCache::substituted`. -/
def substituted (authored : List Char) (references : List SqlReference)
    (resolver : String → Option String) (render : String → AnalysisResult (List Char)) :
    AnalysisResult (List Char) :=
  substitutedLoop authored resolver render [] 0 references

/-- The canonical relation of one reference's target joins the others, once. -/
def cacheRelation (resolver : String → Option String)
    (canonical : String → AnalysisResult (List Char)) (relations : List (String × List Char))
    (reference : SqlReference) : AnalysisResult (List (String × List Char)) :=
  match resolver reference.name with
  | none => .error ⟨unresolvedRef reference.name⟩
  | some target =>
    if relations.any fun cached => cached.1 = target then .ok relations
    else do
      let relation ← canonical target
      .ok (relations ++ [(target, relation)])

/-- The canonical relations of the targets. -/
def canonicalRelations (references : List SqlReference) (resolver : String → Option String)
    (canonical : String → AnalysisResult (List Char)) :
    AnalysisResult (List (String × List Char)) :=
  references.foldlM (cacheRelation resolver canonical) []

/-- `validated_relation_rewrite`, where the parsed query is checked first. -/
def validatedRelationRewrite (checked : AnalysisResult Unit) (references : List SqlReference)
    (resolver : String → Option String) (canonical : String → AnalysisResult (List Char)) :
    AnalysisResult (List (String × List Char)) := do
  checked
  canonicalRelations references resolver canonical

inductive RewriteError
  | analysis (message : String) (span : Option SourceSpan)
  | keyError (key : String)
  deriving DecidableEq, Repr

def scanError (error : ScanError) : RewriteError := .analysis error.message error.span

def sqlTreeError (error : AnalysisError) : RewriteError := .analysis error.message none

/-- The relation of a reference, in the mappings of a rewrite. -/
def rewriteRelation (resolver : String → Option String) (relations : List (String × List Char))
    (reference : SqlReference) : Except RewriteError (List Char) :=
  match resolver reference.name with
  | none => .error (.keyError reference.name)
  | some target =>
    match relations.lookup target with
    | none => .error (.keyError target)
    | some relation => .ok relation

/-- The loop of `SqlReferenceRewriter.rewrite`, over the references in reverse. -/
def rewriteLoop (resolver : String → Option String) (relations : List (String × List Char))
    (sql : List Char) (references : List SqlReference) : Except RewriteError (List Char) :=
  references.reverse.foldlM
    (fun rewritten reference => do
      let relation ← rewriteRelation resolver relations reference
      .ok (rewritten.take reference.span.start ++ relation ++ rewritten.drop reference.span.stop))
    sql

section
variable (tables : PythonTables)

def rewrite (checked : AnalysisResult Unit) (canonical : String → AnalysisResult (List Char))
    (sql : List Char) (resolver : String → Option String) : Except RewriteError (List Char) := do
  let references ← (extractReferences tables sql).mapError scanError
  match references.find? fun reference => (resolver reference.name).isNone with
  | some reference =>
    .error (.analysis (unresolvedRef reference.name) (some reference.span))
  | none =>
    let relations ←
      (validatedRelationRewrite checked references resolver canonical).mapError sqlTreeError
    let rewritten ← rewriteLoop resolver relations sql references
    (normalizedStatementSql rewritten).mapError scanError

end

/-- What a reference is replaced by. -/
def relationOf (resolver : String → Option String) (render : String → AnalysisResult (List Char))
    (reference : SqlReference) : AnalysisResult (List Char) :=
  match resolver reference.name with
  | none => .error ⟨unresolvedRef reference.name⟩
  | some target => render target

/-- Every reference has its relation. -/
def Assigns (resolver : String → Option String) (render : String → AnalysisResult (List Char))
    (references : List SqlReference) (relation : SqlReference → List Char) : Prop :=
  ∀ reference ∈ references, relationOf resolver render reference = .ok (relation reference)

variable {tables : PythonTables} {sql text pieces : List Char} {cursor : ℕ}
  {reference : SqlReference} {references : List SqlReference} {resolver : String → Option String}
  {render : String → AnalysisResult (List Char)} {relation : SqlReference → List Char}
  {checked : AnalysisResult Unit} {relations : List (String × List Char)}

theorem relationOf_ok {rendered : List Char}
    (h : relationOf resolver render reference = .ok rendered) :
    ∃ target, resolver reference.name = some target ∧ render target = .ok rendered := by
  unfold relationOf at h
  cases htarget : resolver reference.name with
  | none => simp [htarget] at h
  | some target => exact ⟨target, rfl, by simpa [htarget] using h⟩

theorem exists_assigns (h : ∀ reference ∈ references, ∃ rendered,
    relationOf resolver render reference = .ok rendered) :
    ∃ relation, Assigns resolver render references relation := by
  choose! relation hrelation using h
  exact ⟨relation, hrelation⟩

theorem substitutedLoop_eq (hassigns : Assigns resolver render references relation)
    (horder : Splice.InOrder sql.length cursor (references.map (spliceOf relation)))
    (pieces : List Char) :
    substitutedLoop sql resolver render pieces cursor references =
      .ok (pieces ++ Splice.forward sql cursor (references.map (spliceOf relation))) := by
  induction references generalizing cursor pieces with
  | nil =>
    have hcursor : cursor ≤ sql.length := horder
    rw [substitutedLoop, Nat.min_eq_left hcursor]
    rfl
  | cons reference references ih =>
    obtain ⟨hstart, hstop, hrest⟩ := horder
    have hle := hrest.cursor_le
    obtain ⟨target, htarget, hrender⟩ := relationOf_ok (hassigns reference (by simp))
    have hmore := ih (fun r hr => hassigns r (mem_cons_of_mem _ hr)) hrest
    have hcursor : min cursor sql.length = cursor :=
      Nat.min_eq_left ((hstart.trans hstop).trans hle)
    have hbetween : min reference.span.start sql.length = reference.span.start :=
      Nat.min_eq_left (hstop.trans hle)
    rw [substitutedLoop, htarget]
    dsimp only
    rw [hrender, hcursor, hbetween]
    refine (hmore _).trans (congrArg Except.ok ?_)
    rw [map_cons, Splice.forward]
    simp only [spliceOf, append_assoc]

theorem substituted_eq (hassigns : Assigns resolver render references relation)
    (horder : Splice.InOrder sql.length 0 (references.map (spliceOf relation))) :
    substituted sql references resolver render =
      .ok (Splice.forward sql 0 (references.map (spliceOf relation))) :=
  substitutedLoop_eq hassigns horder []

theorem assigns_of_substitutedLoop
    (h : substitutedLoop sql resolver render pieces cursor references = .ok text) :
    ∀ reference ∈ references, ∃ rendered, relationOf resolver render reference = .ok rendered := by
  induction references generalizing cursor pieces with
  | nil => simp
  | cons reference references ih =>
    rw [substitutedLoop] at h
    cases htarget : resolver reference.name with
    | none => simp [htarget] at h
    | some target =>
      rw [htarget] at h
      obtain ⟨rendered, hrendered, h⟩ := bind_eq_ok.mp h
      intro other hother
      rcases mem_cons.mp hother with rfl | hother
      · exact ⟨rendered, by rw [relationOf, htarget]; exact hrendered⟩
      · exact ih h other hother

/-- What has been cached is the canonical relation of its target. -/
def Cached (render : String → AnalysisResult (List Char)) (relations : List (String × List Char)) :
    Prop :=
  ∀ cached ∈ relations, render cached.1 = .ok cached.2

theorem Cached.lookup {target : String} (h : Cached render relations)
    (hmem : target ∈ relations.map Prod.fst) :
    ∃ rendered, relations.lookup target = some rendered ∧ render target = .ok rendered := by
  obtain ⟨⟨cached, rendered⟩, hcached, rfl⟩ := mem_map.mp hmem
  cases hlookup : relations.lookup cached with
  | none =>
    have := lookup_eq_none_iff.mp hlookup (cached, rendered) hcached
    simp at this
  | some found =>
    obtain ⟨before, after, rfl, -⟩ := lookup_eq_some_iff.mp hlookup
    exact ⟨found, rfl, h (cached, found) (by simp)⟩

theorem cacheRelation_ok {relations' : List (String × List Char)}
    (h : cacheRelation resolver render relations reference = .ok relations')
    (hcached : Cached render relations) :
    Cached render relations' ∧ relations.map Prod.fst ⊆ relations'.map Prod.fst ∧
      ∃ target, resolver reference.name = some target ∧ target ∈ relations'.map Prod.fst := by
  unfold cacheRelation at h
  cases htarget : resolver reference.name with
  | none => simp [htarget] at h
  | some target =>
    rw [htarget] at h
    dsimp only at h
    split_ifs at h with hany
    · cases h
      refine ⟨hcached, List.Subset.refl _, target, rfl, ?_⟩
      simpa using hany
    · obtain ⟨rendered, hrendered, h⟩ := bind_eq_ok.mp h
      cases h
      refine ⟨fun cached hmem => ?_, by simp, target, rfl, by simp⟩
      rcases mem_append.mp hmem with hmem | hmem
      · exact hcached cached hmem
      · obtain rfl := mem_singleton.mp hmem
        exact hrendered

theorem cacheLoop_ok {relations' : List (String × List Char)}
    (h : references.foldlM (cacheRelation resolver render) relations = .ok relations')
    (hcached : Cached render relations) :
    Cached render relations' ∧ relations.map Prod.fst ⊆ relations'.map Prod.fst ∧
      ∀ reference ∈ references, ∃ target,
        resolver reference.name = some target ∧ target ∈ relations'.map Prod.fst := by
  induction references generalizing relations with
  | nil =>
    cases h
    exact ⟨hcached, List.Subset.refl _, by simp⟩
  | cons reference references ih =>
    rw [foldlM_cons] at h
    obtain ⟨middle, hmiddle, h⟩ := bind_eq_ok.mp h
    obtain ⟨hcached', hsubset, target, htarget, hmem⟩ := cacheRelation_ok hmiddle hcached
    obtain ⟨hcached'', hsubset', hall⟩ := ih h hcached'
    refine ⟨hcached'', List.Subset.trans hsubset hsubset', fun other hother => ?_⟩
    rcases mem_cons.mp hother with rfl | hother
    · exact ⟨target, htarget, hsubset' hmem⟩
    · exact hall other hother

theorem exists_cacheLoop (hassigns : Assigns resolver render references relation)
    (relations : List (String × List Char)) :
    ∃ relations', references.foldlM (cacheRelation resolver render) relations = .ok relations' := by
  induction references generalizing relations with
  | nil => exact ⟨relations, rfl⟩
  | cons reference references ih =>
    obtain ⟨target, htarget, hrender⟩ := relationOf_ok (hassigns reference (by simp))
    obtain ⟨middle, hmiddle⟩ : ∃ middle,
        cacheRelation resolver render relations reference = .ok middle := by
      unfold cacheRelation
      rw [htarget]
      dsimp only
      split_ifs
      · exact ⟨_, rfl⟩
      · rw [hrender]
        exact ⟨_, rfl⟩
    obtain ⟨relations', hrest⟩ := ih (fun r hr => hassigns r (mem_cons_of_mem _ hr)) middle
    refine ⟨relations', ?_⟩
    rw [foldlM_cons, hmiddle]
    exact hrest

theorem rewriteRelation_eq (hassigns : Assigns resolver render references relation)
    (h : canonicalRelations references resolver render = .ok relations) :
    ∀ reference ∈ references,
      rewriteRelation resolver relations reference = .ok (relation reference) := by
  intro reference hreference
  obtain ⟨hcached, -, hall⟩ := cacheLoop_ok h (by simp [Cached])
  obtain ⟨target, htarget, hmem⟩ := hall reference hreference
  obtain ⟨rendered, hlookup, hrendered⟩ := hcached.lookup hmem
  obtain ⟨target', htarget', hrender⟩ := relationOf_ok (hassigns reference hreference)
  obtain rfl := Option.some.inj (htarget.symm.trans htarget')
  obtain rfl := Except.ok.inj (hrendered.symm.trans hrender)
  rw [rewriteRelation, htarget]
  dsimp only
  rw [hlookup]

theorem assigns_of_canonicalRelations
    (h : canonicalRelations references resolver render = .ok relations) :
    ∀ reference ∈ references, ∃ rendered, relationOf resolver render reference = .ok rendered := by
  intro reference hreference
  obtain ⟨hcached, -, hall⟩ := cacheLoop_ok h (by simp [Cached])
  obtain ⟨target, htarget, hmem⟩ := hall reference hreference
  obtain ⟨rendered, -, hrendered⟩ := hcached.lookup hmem
  exact ⟨rendered, by rw [relationOf, htarget]; exact hrendered⟩

theorem rewriteLoop_eq (h : ∀ reference ∈ references,
      rewriteRelation resolver relations reference = .ok (relation reference)) :
    rewriteLoop resolver relations sql references =
      .ok (Splice.backward sql (references.map (spliceOf relation))) := by
  unfold rewriteLoop
  rw [foldlM_eq_ok_foldl (f := fun text reference => (spliceOf relation reference).apply text)]
  · rw [Splice.backward, ← map_reverse, foldl_map]
  · intro reference hreference text
    rw [h reference (mem_reverse.mp hreference)]
    rfl

/-- A rewrite gives the resolved text, normalized, where the parsed query is valid. -/
theorem rewrite_eq (hextract : extractReferences tables sql = .ok references)
    (hassigns : Assigns resolver render references relation) :
    rewrite tables (.ok ()) render sql resolver =
      (normalizedStatementSql
        (Splice.forward sql 0 (references.map (spliceOf relation)))).mapError scanError := by
  have horder := (extractReferences_read hextract).inOrder relation
  obtain ⟨relations, hrelations⟩ := exists_cacheLoop hassigns []
  have hresolved : references.find? (fun reference => (resolver reference.name).isNone) = none := by
    rw [find?_eq_none]
    intro reference hreference
    obtain ⟨target, htarget, -⟩ := relationOf_ok (hassigns reference hreference)
    simp [htarget]
  have hvalidated : validatedRelationRewrite (.ok ()) references resolver render = .ok relations :=
    hrelations
  have hloop := @rewriteLoop_eq sql _ _ _ _ (rewriteRelation_eq hassigns hrelations)
  rw [Splice.backward_eq_forward horder] at hloop
  have hextracted : (extractReferences tables sql).mapError scanError = .ok references := by
    rw [hextract]
    rfl
  unfold rewrite
  rw [hextracted]
  show (match references.find? _ with | some _ => _ | none => _) = _
  rw [hresolved]
  dsimp only
  rw [hvalidated]
  show (rewriteLoop resolver relations sql references >>= _) = _
  rw [hloop]
  rfl

theorem assigns_of_rewrite {rewritten : List Char}
    (hextract : extractReferences tables sql = .ok references)
    (h : rewrite tables checked render sql resolver = .ok rewritten) :
    checked = .ok () ∧ ∃ relation, Assigns resolver render references relation := by
  have hextracted : (extractReferences tables sql).mapError scanError = .ok references := by
    rw [hextract]
    rfl
  unfold rewrite at h
  rw [hextracted] at h
  replace h : (match references.find? fun reference => (resolver reference.name).isNone with
      | some reference => _ | none => _) = Except.ok rewritten := h
  cases hfound : references.find? (fun reference => (resolver reference.name).isNone) with
  | some reference => simp [hfound] at h
  | none =>
    rw [hfound] at h
    obtain ⟨relations, hvalidated, -⟩ := bind_eq_ok.mp h
    cases hrelations : validatedRelationRewrite checked references resolver render with
    | error error => simp [hrelations, Except.mapError] at hvalidated
    | ok relations' =>
      obtain ⟨_, hchecked, hcanonical⟩ := bind_eq_ok.mp hrelations
      exact ⟨hchecked, exists_assigns (assigns_of_canonicalRelations hcanonical)⟩

/-- The text of a reference's call. -/
def callOf (sql : List Char) (reference : SqlReference) : List Char :=
  (sql.take reference.span.stop).drop reference.span.start

end SqlTide.SqlAnalysis
