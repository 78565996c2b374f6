import SqlTide.Testing.AssembledOrder

/-!
# Assembled SQL tests

Every query of an assembled test has its common table expressions before it, and each of these
reads only earlier ones. The targets come in the order of their dependencies, and the mocks that
are warned of are those that nothing reaches.
-/

namespace SqlTide.Testing.SqlTestChainAssembler

open Baselines Foundations Foundations.StackSearch Relation List

variable {assembler : SqlTestChainAssembler} {chain chain' : AssembledChain}
  {roots names finished met : List String} {name : String}

/-- All that is needed is known and can be rewritten, and none of it needs itself. -/
structure Resolvable (assembler : SqlTestChainAssembler) (roots : List String) : Prop where
  known : ∀ name, assembler.referenceGraph.Reached roots name →
    dictGet assembler.mockCteByName name = none → (dictGet assembler.registry name).isSome
  acyclic : ∀ name, assembler.referenceGraph.Reached roots name →
    ¬ TransGen assembler.referenceGraph.DependsOn name name
  rewritten : ∀ name, assembler.referenceGraph.Reached roots name →
    dictGet assembler.mockCteByName name = none → ∃ cte, assembler.modelCte name = .ok cte

theorem Blocked.mono {roots' : List String} {error : AssemblyFailure}
    (h : assembler.Blocked roots error) (hsub : roots ⊆ roots') :
    assembler.Blocked roots' error := by
  cases h with
  | cyclic hreach hcycle => exact .cyclic (hreach.mono hsub) hcycle
  | unresolved hreach hmock hentry => exact .unresolved (hreach.mono hsub) hmock hentry
  | analysis hreach hmock hentry hmodel => exact .analysis (hreach.mono hsub) hmock hentry hmodel

theorem Blocked.not_resolvable {error : AssemblyFailure} (h : assembler.Blocked roots error) :
    ¬ assembler.Resolvable roots := by
  intro hresolvable
  cases h with
  | cyclic hreach hcycle => exact hresolvable.acyclic _ hreach hcycle
  | unresolved hreach hmock hentry =>
    have hknown := hresolvable.known _ hreach hmock
    rw [hentry] at hknown
    cases hknown
  | analysis hreach hmock _ hmodel =>
    obtain ⟨cte, hcte⟩ := hresolvable.rewritten _ hreach hmock
    rw [hmodel] at hcte
    cases hcte

theorem Assembled.resolvable (h : assembler.Assembled roots chain) :
    assembler.Resolvable roots := by
  obtain ⟨finished, met, hcomplete, hrepresents⟩ := h
  have hmem : ∀ name, assembler.referenceGraph.Reached roots name →
      dictGet assembler.mockCteByName name = none → name ∈ finished :=
    fun name hreach hmock => hcomplete.mem_finished.mpr ⟨hreach, not_leaf_iff.mpr hmock⟩
  constructor
  · intro name hreach hmock
    simpa [referenceGraph] using hcomplete.ordered.deps_isSome (hmem name hreach hmock)
  · intro name hreach hcycle
    obtain ⟨next, hnext, -⟩ := TransGen.head'_iff.mp hcycle
    have hfinished := hmem name hreach (not_leaf_iff.mp hnext.1)
    exact hcomplete.ordered.acyclic hfinished hcycle
  · intro name hreach hmock
    obtain ⟨cte, -, hcte⟩ := exists_of_mapM_eq_ok hrepresents.ctes (hmem name hreach hmock)
    exact ⟨cte, hcte⟩

/-- `resolve`, one name after the other. -/
def resolveAll (assembler : SqlTestChainAssembler) (chain : AssembledChain) (names : List String) :
    Except AssemblyFailure AssembledChain :=
  names.foldlM (fun chain name => do return (← assembler.resolve chain name).2) chain

theorem resolveAll_cases (h : assembler.Assembled roots chain) (names : List String) :
    assembler.Resolves (roots ++ names) chain (assembler.resolveAll chain names) := by
  induction names generalizing roots chain with
  | nil => exact ⟨by simpa using h, prefix_refl _⟩
  | cons name names ih =>
    have hfirst := resolve_cases h name
    rw [resolveAll, foldlM_cons]
    cases hresult : assembler.resolve chain name with
    | error error =>
      rw [hresult] at hfirst
      exact hfirst.mono (by simp)
    | ok result =>
      obtain ⟨cteName, chain'⟩ := result
      rw [hresult] at hfirst
      obtain ⟨-, hassembled, hcontinues⟩ := hfirst
      have hrest := (ih hassembled).trans hcontinues
      rw [append_assoc] at hrest
      exact hrest

theorem assembled_nil (assembler : SqlTestChainAssembler) : assembler.Assembled [] {} :=
  ⟨[], [], complete_nil _, assembler.represents_nil⟩

/-- A new assembler resolves names exactly when all that they need can be had, and then it has
assembled that. Otherwise it says what is wrong with something they need. -/
theorem resolveAll_exact (assembler : SqlTestChainAssembler) (names : List String) :
    match assembler.resolveAll {} names with
    | .ok chain => assembler.Resolvable names ∧ assembler.Assembled names chain
    | .error error => ¬ assembler.Resolvable names ∧ assembler.Blocked names error := by
  have hcases := resolveAll_cases assembler.assembled_nil names
  cases hresult : assembler.resolveAll {} names with
  | error error =>
    rw [hresult] at hcases
    exact ⟨hcases.not_resolvable, hcases⟩
  | ok chain =>
    rw [hresult] at hcases
    exact ⟨hcases.1.resolvable, hcases.1⟩

/-- Each expression is that of a model that is needed, and reads only what stands before it. -/
structure WellScoped (assembler : SqlTestChainAssembler) (wanted : List String)
    (models : List (String × String)) : Prop where
  nodup : (models.map (·.1)).Nodup
  reads_earlier : ∀ before cte after, models = before ++ cte :: after → ∃ name entry,
    assembler.referenceGraph.Reached wanted name ∧ dictGet assembler.mockCteByName name = none ∧
    dictGet assembler.registry name = some entry ∧ cte.1 = assembledModelCtePrefix ++ name ∧
    assembler.rewrite entry.authoredSql (assembler.resolverOf entry) = .ok cte.2 ∧
    ∀ parsedRef ∈ entry.references,
      assembler.cteNameOf parsedRef.name ∈ (assembler.authoredCtes ++ before).map (·.1)

theorem WellScoped.take {wanted : List String} {models models' : List (String × String)}
    (h : assembler.WellScoped wanted models) (hpart : models' <+: models) :
    assembler.WellScoped wanted models' where
  nodup := h.nodup.sublist (hpart.sublist.map _)
  reads_earlier before cte after hsplit := by
    obtain ⟨rest, rfl⟩ := hpart
    exact h.reads_earlier before cte (after ++ rest) (by simp [hsplit])

theorem cteNameOf_mem_authored (h : (dictGet assembler.mockCteByName name).isSome) :
    assembler.cteNameOf name ∈ assembler.authoredCtes.map (·.1) := by
  obtain ⟨cteName, hcte⟩ := Option.isSome_iff_exists.mp h
  obtain ⟨item, hfind, rfl⟩ := Option.map_eq_some_iff.mp hcte
  have hitem := mem_reverse.mp (mem_of_find?_eq_some hfind)
  obtain ⟨mock, hmock, rfl⟩ := List.mem_map.mp hitem
  rw [cteNameOf, hcte, Option.getD_some]
  have hauthored := assembler.loadedTest.mocks_authored mock hmock
  rw [authoredCtes, List.map_map]
  exact List.mem_map.mpr ⟨_, hauthored, rfl⟩

theorem modelCte_eq_ok {cte : String × String} (h : assembler.modelCte name = .ok cte) :
    cte.1 = assembledModelCtePrefix ++ name ∧ ∃ entry, dictGet assembler.registry name =
      some entry ∧
      assembler.rewrite entry.authoredSql (assembler.resolverOf entry) = .ok cte.2 := by
  unfold modelCte at h
  cases hentry : dictGet assembler.registry name with
  | none => simp [hentry] at h
  | some entry =>
    rw [hentry] at h
    obtain ⟨sql, hsql, hcte⟩ := bind_eq_ok.mp h
    cases hcte
    exact ⟨rfl, entry, rfl, hsql⟩

theorem Represents.map_fst (h : assembler.Represents chain finished met) :
    chain.assembledCtes.map (·.1) = finished.map (assembledModelCtePrefix ++ ·) := by
  have hpairs := forall₂_of_mapM_eq_ok h.ctes
  generalize chain.assembledCtes = ctes at hpairs ⊢
  clear h
  induction hpairs with
  | nil => rfl
  | cons hcte _ ih => rw [map_cons, map_cons, ih, (modelCte_eq_ok hcte).1]

theorem Assembled.wellScoped (h : assembler.Assembled roots chain) :
    assembler.WellScoped roots chain.assembledCtes := by
  obtain ⟨finished, met, hcomplete, hrepresents⟩ := h
  constructor
  · rw [hrepresents.map_fst]
    exact hcomplete.ordered.nodup.map (append_right_injective _)
  · intro before cte after hsplit
    have hnames := hrepresents.map_fst
    rw [hsplit, map_append] at hnames
    obtain ⟨earlier, rest, hfinished, hearlier, hrest⟩ := map_eq_append_iff.mp hnames.symm
    obtain ⟨name, later, rfl, hname, -⟩ := map_eq_cons_iff.mp hrest
    obtain ⟨name', -, hmodel⟩ := (mem_of_mapM_eq_ok hrepresents.ctes cte).mp (by simp [hsplit])
    obtain ⟨hname', entry, hentry, hsql⟩ := modelCte_eq_ok hmodel
    obtain rfl : name = name' := append_right_injective _ (hname.trans hname')
    obtain ⟨hreach, hleaf⟩ := hcomplete.mem_finished.mp (by simp [hfinished] : name ∈ finished)
    refine ⟨name, entry, hreach, not_leaf_iff.mp hleaf, hentry, hname', hsql, ?_⟩
    intro parsedRef href
    have hdeps : assembler.referenceGraph.deps name = some (entry.references.map (·.name)) := by
      simp [referenceGraph, hentry]
    rw [map_append]
    rcases hcomplete.ordered.settled_before hfinished hdeps (mem_map_of_mem href) with
      ⟨hmocked, -⟩ | ⟨hunmocked, hmem⟩
    · exact List.mem_append_left _ (cteNameOf_mem_authored hmocked)
    · rw [cteNameOf_of_none (not_leaf_iff.mp hunmocked), ← hearlier]
      exact List.mem_append_right _ (mem_map_of_mem hmem)

theorem Assembled.cteNameOf_mem (h : assembler.Assembled roots chain)
    (hname : assembler.referenceGraph.Reached roots name) :
    assembler.cteNameOf name ∈ (assembler.authoredCtes ++ chain.assembledCtes).map (·.1) := by
  obtain ⟨finished, met, hcomplete, hrepresents⟩ := h
  rw [map_append]
  rcases hcomplete.settled_iff.mpr hname with ⟨hmocked, -⟩ | ⟨hunmocked, hmem⟩
  · exact List.mem_append_left _ (cteNameOf_mem_authored hmocked)
  · rw [cteNameOf_of_none (not_leaf_iff.mp hunmocked), hrepresents.map_fst]
    exact List.mem_append_right _ (mem_map_of_mem hmem)

theorem Assembled.mem_used (h : assembler.Assembled roots chain) {cteName : String} :
    cteName ∈ chain.usedMockCteNames ↔ ∃ name, assembler.referenceGraph.Reached roots name ∧
      dictGet assembler.mockCteByName name = some cteName := by
  obtain ⟨finished, met, hcomplete, hrepresents⟩ := h
  rw [hrepresents.used]
  constructor
  · rintro ⟨name, hmem, hmock⟩
    exact ⟨name, (hcomplete.mem_met.mp hmem).1, hmock⟩
  · rintro ⟨name, hreach, hmock⟩
    have hleaf : assembler.referenceGraph.leaf name := by
      simp [referenceGraph, hmock]
    exact ⟨name, hcomplete.mem_met.mpr ⟨hreach, hleaf⟩, hmock⟩

/-- The model stands at the position among the assembled expressions. -/
def StandsAt (chain : AssembledChain) (name : String) (position : ℕ) : Prop :=
  (chain.assembledCtes[position]?).map (·.1) = some (assembledModelCtePrefix ++ name)

variable {position : ℕ} {expectedTarget assertion : SqlTestCte} {done : List SqlTestCte}

theorem StandsAt.continues (h : StandsAt chain name position)
    (hcontinues : Continues chain chain') : StandsAt chain' name position := by
  obtain ⟨rest, hrest⟩ := hcontinues
  have hlt : position < chain.assembledCtes.length := by
    by_contra hge
    rw [StandsAt, getElem?_eq_none (by omega)] at h
    cases h
  rw [StandsAt, ← hrest, getElem?_append_left hlt]
  exact h

theorem StandsAt.getElem? (hrepresents : assembler.Represents chain finished met)
    (h : StandsAt chain name position) : finished[position]? = some name := by
  rw [StandsAt, ← getElem?_map, hrepresents.map_fst, getElem?_map] at h
  obtain ⟨name', hname', heq⟩ := Option.map_eq_some_iff.mp h
  rw [hname', append_right_injective _ heq]

theorem Represents.standsAt (h : assembler.Represents chain finished met) (hnodup : finished.Nodup)
    (hposition : assembledPosition chain name = .ok position) : StandsAt chain name position := by
  unfold assembledPosition at hposition
  rw [h.position_by_name] at hposition
  cases hget : dictGet finished.zipIdx name with
  | none => simp [hget] at hposition
  | some found =>
    rw [hget] at hposition
    cases hposition
    have hkeys : (finished.zipIdx.map (·.1)).Nodup := by simpa using hnodup
    have hitem := (dictGet_eq_some_of_nodup hkeys).mp hget
    rw [StandsAt, ← getElem?_map, h.map_fst, getElem?_map, mem_zipIdx_iff_getElem?.mp hitem]
    rfl

theorem Assembled.position_lt {name' : String} {position' : ℕ} (h : assembler.Assembled roots chain)
    (hname : StandsAt chain name position) (hname' : StandsAt chain name' position')
    (hneeds : TransGen assembler.referenceGraph.DependsOn name name') : position' < position := by
  obtain ⟨finished, met, hcomplete, hrepresents⟩ := h
  have hat := hname.getElem? hrepresents
  have hat' := hname'.getElem? hrepresents
  obtain ⟨hlt, hget⟩ := List.getElem?_eq_some_iff.mp hat
  obtain ⟨hlt', hget'⟩ := List.getElem?_eq_some_iff.mp hat'
  have hsplit : finished = finished.take position ++ name :: finished.drop (position + 1) := by
    rw [← hget, cons_getElem_drop_succ, List.take_append_drop]
  have hleaf : ¬ assembler.referenceGraph.leaf name' :=
    hcomplete.ordered.not_leaf (hget' ▸ getElem_mem hlt')
  obtain ⟨i, hi, hbefore⟩ := mem_take_iff_getElem.mp
    (hcomplete.ordered.mem_before hsplit hneeds hleaf)
  have heq := (hcomplete.ordered.nodup.getElem_inj_iff).mp (hbefore.trans hget'.symm)
  omega

/-- What holds of a target step, and where its model stands. -/
structure TargetBuilt (assembler : SqlTestChainAssembler) (chain : AssembledChain)
    (item : ℕ × SqlTestChainStep) : Prop where
  stands : StandsAt chain item.2.targetModelName item.1
  scope : ∃ models, item.2.ctes = assembler.authoredCtes ++ models ∧
    models <+: chain.assembledCtes ∧
    assembledModelCtePrefix ++ item.2.targetModelName ∈ models.map (·.1)
  query : item.2.actualQuery = "SELECT " ++ ", ".intercalate item.2.expectedColumnNames ++
    " FROM " ++ assembledModelCtePrefix ++ item.2.targetModelName

theorem TargetBuilt.continues {item : ℕ × SqlTestChainStep}
    (h : assembler.TargetBuilt chain item) (hcontinues : Continues chain chain') :
    assembler.TargetBuilt chain' item where
  stands := h.stands.continues hcontinues
  scope := by
    obtain ⟨models, hctes, hpart, hmem⟩ := h.scope
    exact ⟨models, hctes, hpart.trans hcontinues, hmem⟩
  query := h.query

theorem buildChainStep_eq_ok {entry : CompiledModel}
    {targetModelName actualCteName : String} {step : SqlTestChainStep}
    (h : assembler.buildChainStep chain entry expectedTarget targetModelName actualCteName =
      .ok step) :
    step.targetModelName = targetModelName ∧
      step.ctes = assembler.authoredCtes ++ chain.assembledCtes ∧
      step.actualQuery = "SELECT " ++ ", ".intercalate step.expectedColumnNames ++ " FROM " ++
        actualCteName := by
  obtain ⟨expectedColumnNames, -, h⟩ := bind_eq_ok.mp h
  obtain ⟨-, -, h⟩ := bind_eq_ok.mp h
  obtain ⟨expectedQuery, -, h⟩ := bind_eq_ok.mp h
  cases h
  exact ⟨rfl, rfl, rfl⟩

/-- What holds between two turns of the loop over the targets. -/
structure TargetsBuilt (assembler : SqlTestChainAssembler) (done : List SqlTestCte)
    (progress : List (ℕ × SqlTestChainStep) × AssembledChain) : Prop where
  assembled : assembler.Assembled (done.map expectedTargetName) progress.2
  built : ∀ item ∈ progress.1, assembler.TargetBuilt progress.2 item
  names : progress.1.map (·.2.targetModelName) = done.map expectedTargetName

theorem TargetsBuilt.add {progress progress' : List (ℕ × SqlTestChainStep) × AssembledChain}
    (hadd : assembler.addChainStep progress expectedTarget = .ok progress')
    (h : assembler.TargetsBuilt done progress) :
    assembler.TargetsBuilt (done ++ [expectedTarget]) progress' := by
  unfold addChainStep at hadd
  dsimp only at hadd
  cases hentry : dictGet assembler.registry (expectedTargetName expectedTarget) with
  | none => simp [hentry] at hadd
  | some entry =>
    rw [hentry] at hadd
    obtain ⟨⟨actualCteName, chain'⟩, hresolve, hadd⟩ := bind_eq_ok.mp hadd
    obtain ⟨position, hposition, hadd⟩ := bind_eq_ok.mp hadd
    obtain ⟨step, hstep, hadd⟩ := bind_eq_ok.mp hadd
    cases hadd
    have hcases := resolve_cases h.assembled (expectedTargetName expectedTarget)
    rw [hresolve] at hcases
    obtain ⟨hcte, hassembled, hcontinues⟩ := hcases
    obtain ⟨hname, hctes, hquery⟩ := buildChainStep_eq_ok hstep
    obtain ⟨finished, met, hcomplete, hrepresents⟩ := id hassembled
    have hstands : StandsAt chain' (expectedTargetName expectedTarget) position :=
      hrepresents.standsAt hcomplete.ordered.nodup hposition
    have hmem : expectedTargetName expectedTarget ∈ finished :=
      mem_of_getElem? (hstands.getElem? hrepresents)
    have hunmocked := not_leaf_iff.mp (hcomplete.ordered.not_leaf hmem)
    refine ⟨by simpa using hassembled, ?_, ?_⟩
    · intro item hitem
      rcases mem_append.mp hitem with hitem | hitem
      · exact (h.built item hitem).continues hcontinues
      · obtain rfl := mem_singleton.mp hitem
        refine ⟨hname ▸ hstands, ⟨chain'.assembledCtes, hctes, prefix_refl _, ?_⟩, ?_⟩
        · rw [hname, hrepresents.map_fst]
          exact mem_map_of_mem hmem
        · rw [hquery, hcte, cteNameOf_of_none hunmocked, hname]
          simp only [String.append_assoc]
    · simp [h.names, hname]

/-- What holds of an assertion step. -/
def AssertionBuilt (assembler : SqlTestChainAssembler) (chain : AssembledChain)
    (assertion : SqlTestCte) (step : SqlTestAssertionStep) : Prop :=
  step.name = removePrefix assertion.name assertCtePrefix ∧
  ∃ references models, assembler.analysis.extractReferences assertion.query = .ok references ∧
    step.ctes = assembler.authoredCtes ++ models ∧ models <+: chain.assembledCtes ∧
    assembler.rewrite assertion.query
      (references.map fun name => (name, assembler.cteNameOf name)) = .ok step.query ∧
    ∀ name ∈ references, assembler.cteNameOf name ∈ step.ctes.map (·.1)

theorem AssertionBuilt.continues {step : SqlTestAssertionStep}
    (h : assembler.AssertionBuilt chain assertion step) (hcontinues : Continues chain chain') :
    assembler.AssertionBuilt chain' assertion step := by
  obtain ⟨hname, references, models, hreferences, hctes, hpart, hrest⟩ := h
  exact ⟨hname, references, models, hreferences, hctes, hpart.trans hcontinues, hrest⟩

/-- The references of an assertion, which are none where they cannot be read. -/
def assertionReferences (assembler : SqlTestChainAssembler) (assertion : SqlTestCte) :
    List String :=
  (assembler.analysis.extractReferences assertion.query).toOption.getD []

theorem resolveReferences_eq_ok {references : List String}
    {resolved : List (String × String) × AssembledChain} (h : assembler.Assembled roots chain)
    (hfold : references.foldlM assembler.resolveReference ([], chain) = .ok resolved) :
    assembler.Assembled (roots ++ references) resolved.2 ∧ Continues chain resolved.2 ∧
      resolved.1 = references.map fun name => (name, assembler.cteNameOf name) := by
  refine foldlM_invariant_done
    (I := fun done (progress : List (String × String) × AssembledChain) =>
    assembler.Assembled (roots ++ done) progress.2 ∧ Continues chain progress.2 ∧
      progress.1 = done.map fun name => (name, assembler.cteNameOf name)) ?_ ?_ hfold
  · rintro done name progress progress' hstep ⟨hassembled, hcontinues, hresolver⟩
    obtain ⟨⟨cteName, chain'⟩, hresolve, hstep⟩ := bind_eq_ok.mp hstep
    cases hstep
    have hcases := resolve_cases hassembled name
    rw [hresolve] at hcases
    obtain ⟨rfl, hassembled', hcontinues'⟩ := hcases
    refine ⟨by simpa using hassembled', hcontinues.trans hcontinues', ?_⟩
    simp [hresolver]
  · exact ⟨by simpa using h, prefix_refl _, rfl⟩

/-- What holds between two turns of the loop over the assertions. -/
structure AssertionsBuilt (assembler : SqlTestChainAssembler) (start : AssembledChain)
    (roots : List String) (done : List SqlTestCte)
    (progress : List SqlTestAssertionStep × AssembledChain) : Prop where
  assembled : assembler.Assembled (roots ++ done.flatMap assembler.assertionReferences) progress.2
  continues : Continues start progress.2
  built : List.Forall₂ (assembler.AssertionBuilt progress.2) done progress.1

theorem AssertionsBuilt.add {progress progress' : List SqlTestAssertionStep × AssembledChain}
    (hadd : assembler.addAssertionStep progress assertion = .ok progress')
    (h : assembler.AssertionsBuilt chain roots done progress) :
    assembler.AssertionsBuilt chain roots (done ++ [assertion]) progress' := by
  obtain ⟨references, hreferences, hadd⟩ := bind_eq_ok.mp hadd
  rw [mapError_eq_ok] at hreferences
  obtain ⟨⟨resolver, chain'⟩, hfold, hadd⟩ := bind_eq_ok.mp hadd
  obtain ⟨resolvedQuery, hquery, hadd⟩ := bind_eq_ok.mp hadd
  obtain ⟨columnNames, -, hadd⟩ := bind_eq_ok.mp hadd
  cases hadd
  obtain ⟨hassembled, hcontinues, rfl⟩ := resolveReferences_eq_ok h.assembled hfold
  have hown : assembler.assertionReferences assertion = references := by
    rw [assertionReferences, hreferences]
    rfl
  have hroots : roots ++ (done ++ [assertion]).flatMap assembler.assertionReferences =
      roots ++ done.flatMap assembler.assertionReferences ++ references := by
    simp [hown]
  refine ⟨hroots ▸ hassembled, h.continues.trans hcontinues, ?_⟩
  apply rel_append (h.built.imp fun _ _ hbuilt => hbuilt.continues hcontinues)
  refine .cons ⟨rfl, references, chain'.assembledCtes, hreferences, rfl, prefix_refl _, hquery,
    ?_⟩ .nil
  intro name hname
  exact hassembled.cteNameOf_mem (Graph.reached_of_mem (List.mem_append_right _ hname))

/-- The names that a test asks for. -/
def wantedNames (assembler : SqlTestChainAssembler) : List String :=
  assembler.payload.expectedTargets.map expectedTargetName ++
    assembler.payload.assertions.flatMap assembler.assertionReferences

def ReachesMock (assembler : SqlTestChainAssembler) (mock : SqlTestMock) : Prop :=
  ∃ name, assembler.referenceGraph.Reached assembler.wantedNames name ∧
    dictGet assembler.mockCteByName name = some mock.cteName

open scoped Classical in
/-- What an assembled test is. -/
structure TestAssembled (assembler : SqlTestChainAssembler) (testCase : SqlTestCase) : Prop where
  targets : ∀ step ∈ testCase.targetCases, ∃ models, step.ctes = assembler.authoredCtes ++ models ∧
    assembler.WellScoped assembler.wantedNames models ∧
    assembledModelCtePrefix ++ step.targetModelName ∈ models.map (·.1) ∧
    step.actualQuery = "SELECT " ++ ", ".intercalate step.expectedColumnNames ++ " FROM " ++
      assembledModelCtePrefix ++ step.targetModelName
  target_names : (testCase.targetCases.map (·.targetModelName)).Perm
    (assembler.payload.expectedTargets.map expectedTargetName)
  target_order : testCase.targetCases.Pairwise fun step step' =>
    ¬ TransGen assembler.referenceGraph.DependsOn step.targetModelName step'.targetModelName
  assertions : List.Forall₂ (fun (assertion : SqlTestCte) (step : SqlTestAssertionStep) =>
    ∃ references models, assembler.analysis.extractReferences assertion.query = .ok references ∧
      step.ctes = assembler.authoredCtes ++ models ∧
      assembler.WellScoped assembler.wantedNames models ∧
      assembler.rewrite assertion.query
        (references.map fun name => (name, assembler.cteNameOf name)) = .ok step.query ∧
      ∀ name ∈ references, assembler.cteNameOf name ∈ step.ctes.map (·.1))
    assembler.payload.assertions testCase.assertionCases
  warnings : testCase.warnings =
    (assembler.payload.mocks.filter fun mock => ¬ assembler.ReachesMock mock).map fun mock =>
      "SQL test '" ++ assembler.filePath ++ "' never reaches mock '" ++ mock.cteName ++ "'"

theorem buildModelTestCase_assembled
    {renderComparison : List Adapters.AdapterSetDifferenceTarget → String} {testCase : SqlTestCase}
    (h : assembler.buildModelTestCase renderComparison = .ok testCase) :
    assembler.TestAssembled testCase := by
  obtain ⟨⟨targetCases, chain⟩, htargets, h⟩ := bind_eq_ok.mp h
  obtain ⟨⟨assertionCases, chain'⟩, hassertions, h⟩ := bind_eq_ok.mp h
  cases h
  obtain ⟨⟨steps, chain''⟩, hsteps, htargets⟩ := bind_eq_ok.mp htargets
  obtain ⟨rfl, rfl⟩ := Prod.mk.inj (Except.ok.inj htargets)
  have hstart : assembler.TargetsBuilt [] ([], {}) := ⟨assembler.assembled_nil, by simp, rfl⟩
  have hbuilt : assembler.TargetsBuilt assembler.payload.expectedTargets (steps, chain'') :=
    foldlM_invariant_done (fun done target progress progress' => TargetsBuilt.add) hstart hsteps
  have hmiddle : assembler.AssertionsBuilt chain''
      (assembler.payload.expectedTargets.map expectedTargetName) [] ([], chain'') :=
    ⟨by simpa using hbuilt.assembled, prefix_refl _, .nil⟩
  have hasserted : assembler.AssertionsBuilt chain''
      (assembler.payload.expectedTargets.map expectedTargetName) assembler.payload.assertions
      (assertionCases, chain') :=
    foldlM_invariant_done (fun done assertion progress progress' => AssertionsBuilt.add) hmiddle
      hassertions
  have hscoped : assembler.WellScoped assembler.wantedNames chain'.assembledCtes :=
    hasserted.assembled.wellScoped
  let sorted := steps.insertionSort fun step step' => step.1 ≤ step'.1
  have hperm : sorted.Perm steps := List.perm_insertionSort _ _
  constructor
  · intro step hstep
    obtain ⟨item, hitem, rfl⟩ := List.mem_map.mp hstep
    have hitem' := (hbuilt.built item (hperm.subset hitem)).continues hasserted.continues
    obtain ⟨models, hctes, hpart, hmem⟩ := hitem'.scope
    exact ⟨models, hctes, hscoped.take hpart, hmem, hitem'.query⟩
  · rw [← hbuilt.names, List.map_map]
    exact hperm.map _
  · rw [pairwise_map]
    apply (pairwise_insertionSort _ steps).imp_of_mem
    intro item item' hitem hitem' hle hneeds
    have hstands := (hbuilt.built item (hperm.subset hitem)).stands
    have hstands' := (hbuilt.built item' (hperm.subset hitem')).stands
    have hlt := hbuilt.assembled.position_lt hstands hstands' hneeds
    omega
  · apply hasserted.built.imp
    rintro assertion step ⟨-, references, models, hreferences, hctes, hpart, hquery, hmem⟩
    exact ⟨references, models, hreferences, hctes, hscoped.take hpart, hquery, hmem⟩
  · change assembler.unreachableMockWarnings chain' = _
    rw [unreachableMockWarnings]
    congr 1
    apply filter_congr
    intro mock _
    rw [decide_eq_decide, not_iff_not]
    exact hasserted.assembled.mem_used

/-! A source is mocked, and two models are assembled behind it for a target and an assertion. -/

def chainedModel (name sql reference : String) : CompiledModel where
  key := ⟨.model, name⟩
  relationName := name
  authoredSql := sql
  outputColumns := [⟨"order_id", "String"⟩]
  references := [⟨reference, .ref, none, ⟨14, 27, 1, 15, 1, 28⟩⟩]
  definition := .view

/-- The analysis of the texts of the test. -/
def chainedAnalysis : SqlAnalysis where
  extractReferences sql := .ok (if sql = "SELECT * FROM __ref(items)" then ["items"] else [])
  replaceRefs sql resolver :=
    let reference := if sql = "SELECT * FROM __ref(items)" then "items" else "orders"
    match resolver reference with
    | some relation => .ok ("SELECT * FROM " ++ relation)
    | none => .error ("Unresolved ref: " ++ reference)
  inferProjectionNames _ := .ok ["order_id"]

def chainedTest : LoadedSqlTest where
  filePath := "tests/revenue.sql"
  authoredCtes := [⟨"__source__orders", "SELECT 1 AS order_id"⟩]
  payload :=
    { mocks := [⟨"__source__orders", "orders", .source, "SELECT 1 AS order_id"⟩]
      expectedTargets := [⟨"__expected__revenue", "SELECT 1 AS order_id"⟩]
      assertions := [⟨"__assert__none_lost", "SELECT * FROM __ref(items)"⟩] }
  mocks_authored := by simp [MocksAuthored]

def chainedAssembler : SqlTestChainAssembler where
  loadedTest := chainedTest
  compiledPipelines := [{
    name := "orders", mode := .direct
    models := [chainedModel "items" "SELECT * FROM __ref(orders)" "orders",
      chainedModel "revenue" "SELECT * FROM __ref(items)" "items"] }]
  analysis := chainedAnalysis

theorem buildModelTestCase_assembled_chain : ∃ testCase,
    chainedAssembler.buildModelTestCase (fun _ => "SELECT 1") = .ok testCase ∧
      chainedAssembler.TestAssembled testCase := by
  have hok : (chainedAssembler.buildModelTestCase fun _ => "SELECT 1").toOption.isSome = true := by
    decide +kernel
  exact ⟨_, eq_ok_get hok, buildModelTestCase_assembled (eq_ok_get hok)⟩

end SqlTide.Testing.SqlTestChainAssembler
