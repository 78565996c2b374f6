import SqlTide.Foundations.StackSearch
import SqlTide.Testing.ChainAssembly

/-!
# The order of assembled models

Resolution is a search over the references of the models that are not mocked. What is assembled for
a name are the models it needs, each behind those it reads. Resolution fails exactly when a name
that is needed is unknown, needs itself, or cannot be rewritten.
-/

namespace SqlTide.Testing.SqlTestChainAssembler

open Baselines Foundations Foundations.StackSearch Relation List

variable (assembler : SqlTestChainAssembler)

/-- Mocked names are leaves; the others depend on what they read, once they are registered. -/
def referenceGraph : Graph String where
  leaf name := (dictGet assembler.mockCteByName name).isSome
  deps name := (dictGet assembler.registry name).map fun entry => entry.references.map (·.name)

/-- The common table expression that stands for a relation. -/
def cteNameOf (name : String) : String :=
  (dictGet assembler.mockCteByName name).getD (assembledModelCtePrefix ++ name)

def resolverOf (entry : CompiledModel) : List (String × String) :=
  entry.references.map fun parsedRef => (parsedRef.name, assembler.cteNameOf parsedRef.name)

/-- The common table expression of a model, whatever has been assembled before. -/
def modelCte (name : String) : Except AssemblyFailure (String × String) :=
  match dictGet assembler.registry name with
  | none => .error (.keyError name)
  | some entry => do
    return (assembledModelCtePrefix ++ name,
      ← assembler.rewrite entry.authoredSql (assembler.resolverOf entry))

/-- The state of the assembler, for the models that are assembled and the mocks that are met. -/
structure Represents (chain : AssembledChain) (finished met : List String) : Prop where
  cte_by_name : chain.assembledCteByName =
    finished.map fun name => (name, assembledModelCtePrefix ++ name)
  position_by_name : chain.assembledPositionByName = finished.zipIdx
  ctes : finished.mapM assembler.modelCte = .ok chain.assembledCtes
  used : ∀ cteName, cteName ∈ chain.usedMockCteNames ↔
    ∃ name ∈ met, dictGet assembler.mockCteByName name = some cteName

theorem represents_nil : assembler.Represents {} [] [] := ⟨rfl, rfl, rfl, by simp⟩

/-- Why a resolution fails. -/
inductive Blocked (roots : List String) : AssemblyFailure → Prop
  | cyclic {name} : assembler.referenceGraph.Reached roots name →
      TransGen assembler.referenceGraph.DependsOn name name →
      Blocked roots (.assembly (assembler.cyclicMessage name))
  | unresolved {name} : assembler.referenceGraph.Reached roots name →
      dictGet assembler.mockCteByName name = none → dictGet assembler.registry name = none →
      Blocked roots (.assembly (assembler.unresolvedMessage name))
  | analysis {name error} : assembler.referenceGraph.Reached roots name →
      dictGet assembler.mockCteByName name = none →
      (dictGet assembler.registry name).isSome → assembler.modelCte name = .error error →
      Blocked roots error

section

variable {assembler} {chain : AssembledChain} {finished met roots active : List String}
  {pending : List (String × Bool)} {name : String} {entry : CompiledModel}

theorem not_leaf_iff : ¬ assembler.referenceGraph.leaf name ↔
    dictGet assembler.mockCteByName name = none := by
  rw [referenceGraph, Option.not_isSome_iff_eq_none]

theorem cteNameOf_of_none (h : dictGet assembler.mockCteByName name = none) :
    assembler.cteNameOf name = assembledModelCtePrefix ++ name := by
  rw [cteNameOf, h, Option.getD_none]

theorem Represents.dictGet_assembled (h : assembler.Represents chain finished met) :
    dictGet chain.assembledCteByName name =
      if name ∈ finished then some (assembledModelCtePrefix ++ name) else none := by
  rw [h.cte_by_name]
  split_ifs with hmem
  · obtain ⟨cteName, hsome⟩ : ∃ cteName, dictGet
        (finished.map fun name => (name, assembledModelCtePrefix ++ name)) name = some cteName := by
      rw [← Option.ne_none_iff_exists', ne_eq, dictGet_eq_none]
      simpa using hmem
    have hitem := mem_of_find?_eq_some (Option.map_eq_some_iff.mp hsome).choose_spec.1
    have hvalue := (Option.map_eq_some_iff.mp hsome).choose_spec
    obtain ⟨name', -, hname'⟩ := List.mem_map.mp (mem_reverse.mp hitem)
    have hkey : name' = name := by simpa [← hname'] using find?_some hvalue.1
    rw [hsome, ← hvalue.2, ← hname', hkey]
  · rw [dictGet_eq_none]
    simpa using hmem

theorem Represents.resolvedCteName (h : assembler.Represents chain finished met)
    (hname : Settled assembler.referenceGraph finished met name) :
    assembler.resolvedCteName chain name = .ok (assembler.cteNameOf name) := by
  unfold SqlTestChainAssembler.resolvedCteName cteNameOf
  cases hmock : dictGet assembler.mockCteByName name with
  | some mockCteName => rfl
  | none =>
    rcases hname with ⟨hleaf, -⟩ | ⟨-, hmem⟩
    · exact absurd hleaf (not_leaf_iff.mpr hmock)
    · rw [h.dictGet_assembled, if_pos hmem]
      rfl

/-- What assembling a model adds. -/
def extend (chain : AssembledChain) (name : String) (cte : String × String) : AssembledChain :=
  { chain with
    assembledPositionByName := chain.assembledPositionByName ++ [(name, chain.assembledCtes.length)]
    assembledCtes := chain.assembledCtes ++ [cte]
    assembledCteByName := chain.assembledCteByName ++ [(name, assembledModelCtePrefix ++ name)] }

theorem Represents.assemble_eq (h : assembler.Represents chain finished met)
    (hentry : dictGet assembler.registry name = some entry)
    (hrefs : ∀ ref ∈ entry.references.map (·.name),
      Settled assembler.referenceGraph finished met ref) :
    assembler.assemble chain name entry = (assembler.modelCte name).map (extend chain name) := by
  have hresolver : (entry.references.mapM fun parsedRef => do
      return (parsedRef.name, ← assembler.resolvedCteName chain parsedRef.name)) =
      .ok (assembler.resolverOf entry) := by
    apply mapM_eq_ok_map
    intro parsedRef hmem
    rw [h.resolvedCteName (hrefs parsedRef.name (mem_map_of_mem hmem))]
    rfl
  rw [assemble, hresolver, modelCte, hentry]
  change (assembler.rewrite entry.authoredSql (assembler.resolverOf entry) >>= fun sql => _) =
    (assembler.rewrite entry.authoredSql (assembler.resolverOf entry) >>= fun sql => _).map _
  cases assembler.rewrite entry.authoredSql (assembler.resolverOf entry) <;> rfl

theorem Represents.extend {cte : String × String} (h : assembler.Represents chain finished met)
    (hmodel : assembler.modelCte name = .ok cte) :
    assembler.Represents (extend chain name cte) (finished ++ [name]) met where
  cte_by_name := by
    rw [SqlTestChainAssembler.extend, h.cte_by_name, map_append]
    rfl
  position_by_name := by
    have hlength : chain.assembledCtes.length = finished.length :=
      (forall₂_of_mapM_eq_ok h.ctes).length_eq.symm
    rw [SqlTestChainAssembler.extend, h.position_by_name, hlength, zipIdx_append]
    simp
  ctes := by
    rw [mapM_append, h.ctes, mapM_cons, hmodel]
    rfl
  used := h.used

theorem Represents.useMock {mockCteName : String} (h : assembler.Represents chain finished met)
    (hmock : dictGet assembler.mockCteByName name = some mockCteName) :
    assembler.Represents
      { chain with usedMockCteNames := mockCteName :: chain.usedMockCteNames } finished
      (name :: met) where
  cte_by_name := h.cte_by_name
  position_by_name := h.position_by_name
  ctes := h.ctes
  used cteName := by
    rw [mem_cons, h.used]
    simp [hmock, eq_comm]

/-- A chain that goes on another keeps its expressions in front. -/
def Continues (chain chain' : AssembledChain) : Prop :=
  chain.assembledCtes <+: chain'.assembledCtes

theorem continues_extend (chain : AssembledChain) (name : String) (cte : String × String) :
    Continues chain (extend chain name cte) := prefix_append _ _

/-- What is assembled for some names is all they need and no more. -/
def Assembled (assembler : SqlTestChainAssembler) (roots : List String)
    (chain : AssembledChain) : Prop :=
  ∃ finished met, Complete assembler.referenceGraph roots finished met ∧
    assembler.Represents chain finished met

def registeredNames (assembler : SqlTestChainAssembler) : Finset String :=
  ((dictItems assembler.registry).map (·.1)).toFinset

theorem mem_registeredNames (h : (assembler.referenceGraph.deps name).isSome) :
    name ∈ registeredNames assembler := by
  obtain ⟨entry, hentry⟩ := Option.isSome_iff_exists.mp (by simpa [referenceGraph] using h)
  rw [registeredNames, mem_toFinset]
  exact List.mem_map.mpr ⟨(name, entry), mem_dictItems.mpr hentry, rfl⟩

theorem resolutionBound_eq : assembler.resolutionBound = 1 + ∑ name ∈ registeredNames assembler,
    ((assembler.referenceGraph.deps name).elim 0 List.length + 1) := by
  rw [resolutionBound, registeredNames,
    sum_toFinset _ (nodup_map_fst_dictItems assembler.registry), List.map_map]
  congr 2
  apply List.map_congr_left
  intro item hitem
  have hentry : dictGet assembler.registry item.1 = some item.2 := mem_dictItems.mp hitem
  simp [referenceGraph, hentry]

/-- A chain is continued to what some names need, or there is a reason why it is not. -/
def Resolves (assembler : SqlTestChainAssembler) (roots : List String) (chain : AssembledChain) :
    Except AssemblyFailure AssembledChain → Prop
  | .ok chain' => assembler.Assembled roots chain' ∧ Continues chain chain'
  | .error error => assembler.Blocked roots error

theorem Resolves.trans {chain' : AssembledChain} {result : Except AssemblyFailure AssembledChain}
    (h : assembler.Resolves roots chain' result) (hcontinues : Continues chain chain') :
    assembler.Resolves roots chain result := by
  cases result with
  | error error => exact h
  | ok chain'' => exact ⟨h.1, hcontinues.trans h.2⟩

/-- With enough turns the loop ends by itself. -/
theorem resolveLoop_cases (fuel : ℕ) (hrepresents : assembler.Represents chain finished met)
    (hsearch : Searching assembler.referenceGraph roots ⟨pending, active, finished, met⟩)
    (hfuel : potential assembler.referenceGraph (registeredNames assembler)
      ⟨pending, active, finished, met⟩ ≤ fuel) :
    assembler.Resolves roots chain (assembler.resolveLoop fuel pending active chain) := by
  induction fuel generalizing chain finished met pending active with
  | zero =>
    cases pending with
    | nil =>
      unfold resolveLoop
      exact ⟨⟨finished, met, hsearch.complete, hrepresents⟩, prefix_refl _⟩
    | cons task pending => simp [potential] at hfuel
  | succ fuel ih =>
    cases pending with
    | nil =>
      unfold resolveLoop
      exact ⟨⟨finished, met, hsearch.complete, hrepresents⟩, prefix_refl _⟩
    | cons task pending =>
      obtain ⟨name, expanded⟩ := task
      have hnext : ∀ {pending' active' finished' met' chain'},
          Step assembler.referenceGraph ⟨(name, expanded) :: pending, active, finished, met⟩
            ⟨pending', active', finished', met'⟩ →
          assembler.Represents chain' finished' met' → Continues chain chain' →
          assembler.Resolves roots chain (assembler.resolveLoop fuel pending' active' chain') := by
        intro pending' active' finished' met' chain' hstep hrepresents' hcontinues
        have hless := hstep.potential_lt fun _ => mem_registeredNames
        exact (ih hrepresents' (hsearch.step hstep) (by omega)).trans hcontinues
      rw [resolveLoop]
      cases hmock : dictGet assembler.mockCteByName name with
      | some mockCteName =>
        have hleaf : assembler.referenceGraph.leaf name := by
          simp [referenceGraph, hmock]
        exact hnext (.leaf hleaf) (hrepresents.useMock hmock) (prefix_refl _)
      | none =>
        have hleaf : ¬ assembler.referenceGraph.leaf name := not_leaf_iff.mpr hmock
        by_cases hfinished : name ∈ finished
        · simp only [hrepresents.dictGet_assembled, hfinished, if_true, Option.isSome_some]
          exact hnext (.skip hleaf hfinished) hrepresents (prefix_refl _)
        · simp only [hrepresents.dictGet_assembled, hfinished, if_false, Option.isSome_none,
            Bool.false_eq_true]
          cases expanded with
          | true =>
            obtain ⟨-, -, hactive, ds, hdeps, hds⟩ := hsearch.closing
            obtain ⟨entry, hentry, rfl⟩ := Option.map_eq_some_iff.mp hdeps
            simp only [if_true, hentry, hrepresents.assemble_eq hentry hds]
            cases hmodel : assembler.modelCte name with
            | error error =>
              exact .analysis hsearch.head_reached hmock (by simp [hentry]) hmodel
            | ok cte =>
              change assembler.Resolves roots chain (if name ∈ active then _ else _)
              rw [if_pos hactive]
              exact hnext (.close hleaf hfinished) (hrepresents.extend hmodel)
                (continues_extend chain name cte)
          | false =>
            simp only [Bool.false_eq_true, if_false]
            by_cases hactive : name ∈ active
            · rw [if_pos hactive]
              exact .cyclic hsearch.head_reached (hsearch.cyclic hactive)
            · rw [if_neg hactive]
              cases hentry : dictGet assembler.registry name with
              | none => exact .unresolved hsearch.head_reached hmock hentry
              | some entry =>
                have hdeps : assembler.referenceGraph.deps name =
                    some (entry.references.map (·.name)) := by
                  simp [referenceGraph, hentry]
                have hpush := hnext (.enter hleaf hfinished hactive hdeps) hrepresents
                  (prefix_refl _)
                rw [List.map_map] at hpush
                exact hpush

theorem resolve_cases (h : assembler.Assembled roots chain) (name : String) :
    match assembler.resolve chain name with
    | .ok (cteName, chain') => cteName = assembler.cteNameOf name ∧
        assembler.Assembled (roots ++ [name]) chain' ∧ Continues chain chain'
    | .error error => assembler.Blocked (roots ++ [name]) error := by
  obtain ⟨finished, met, hcomplete, hrepresents⟩ := h
  have hloop := resolveLoop_cases assembler.resolutionBound hrepresents (hcomplete.start name)
    (resolutionBound_eq ▸ potential_le_of_start name finished met)
  unfold resolve
  cases hresult : assembler.resolveLoop assembler.resolutionBound [(name, false)] [] chain with
  | error error =>
    rw [hresult] at hloop
    exact hloop
  | ok chain' =>
    rw [hresult] at hloop
    obtain ⟨⟨finished', met', hcomplete', hrepresents'⟩, hcontinues⟩ := hloop
    have hsettled := hcomplete'.roots_settled name (by simp)
    change match (assembler.resolvedCteName chain' name >>= fun cteName =>
        pure (cteName, chain') : Except AssemblyFailure (String × AssembledChain)) with
      | .ok (cteName, chain') => _
      | .error error => _
    rw [hrepresents'.resolvedCteName hsettled]
    exact ⟨rfl, ⟨finished', met', hcomplete', hrepresents'⟩, hcontinues⟩

end

end SqlTide.Testing.SqlTestChainAssembler
