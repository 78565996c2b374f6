import SqlTide.Authorization.PreparedBuilds

/-!
# What an authorized build passes to its child

The scopes that the child is checked against name what is written and read, and its pipelines. They
do not say which part of a build writes a model, nor the project and the target it is for.
-/

namespace SqlTide.Authorization

open Compiler Foundations List

variable {analysis A B : CompileAnalysis} {preparation P Q : WorkflowPreparation}
  {authenticated : Auth.AuthenticatedRequest} {context : OperationAuthorizationContext}
  {keys : List LogicalResourceKey} {pipeline name : String} {permission : Permission}

/-- A model of the pipeline is among the keys. -/
def WritesPipeline (analysis : CompileAnalysis) (keys : List LogicalResourceKey)
    (pipeline : String) :
    Prop :=
  ∃ model ∈ analysis.compiledProject.models, model.key ∈ keys ∧ model.pipelineName = pipeline

/-- Every model among the keys is in the project. -/
def Resolved (analysis : CompileAnalysis) (keys : List LogicalResourceKey) : Prop :=
  ∀ key ∈ keys, key.resourceType = .model →
    ∃ model ∈ analysis.compiledProject.models, model.key = key

variable {model : CompiledModel} {pipelines : List String} {message : String}
  {key : LogicalResourceKey}

theorem model_key_eq (h : model ∈ analysis.compiledProject.models) :
    model.key = ⟨.model, model.key.name⟩ := by
  have htype := analysis.compiledProject.model_key model h
  cases hkey : model.key with
  | mk resourceType name =>
    rw [hkey] at htype
    obtain rfl : resourceType = .model := htype
    rfl

theorem pipelineByModel_eq_some : pipelineByModel analysis name = some pipeline ↔
    ∃ model ∈ analysis.compiledProject.models, model.key = ⟨.model, name⟩ ∧
      model.pipelineName = pipeline := by
  simp only [pipelineByModel, Option.map_eq_some_iff]
  constructor
  · rintro ⟨model, hfind, rfl⟩
    have hmodel := mem_reverse.mp (mem_of_find?_eq_some hfind)
    have hname : model.key.name = name := by simpa using find?_some hfind
    exact ⟨model, hmodel, by rw [model_key_eq hmodel, hname], rfl⟩
  · rintro ⟨model, hmodel, hkey, rfl⟩
    refine ⟨model, find?_eq_some_of_unique (mem_reverse.mpr hmodel) (by simp [hkey]) ?_, rfl⟩
    intro other hother hname
    rw [mem_reverse] at hother
    apply CompiledProject.model_unique hother hmodel
    rw [model_key_eq hother, hkey]
    simpa using hname

theorem pipelineByModel_isNone : (pipelineByModel analysis name).isNone = true ↔
    ¬ ∃ model ∈ analysis.compiledProject.models, model.key = ⟨.model, name⟩ := by
  rw [Option.isNone_iff_eq_none, Option.eq_none_iff_forall_not_mem]
  constructor
  · rintro h ⟨model, hmodel, hkey⟩
    exact h model.pipelineName (pipelineByModel_eq_some.mpr ⟨model, hmodel, hkey, rfl⟩)
  · intro h pipeline hpipeline
    obtain ⟨model, hmodel, hkey, -⟩ := pipelineByModel_eq_some.mp hpipeline
    exact h ⟨model, hmodel, hkey⟩

theorem mem_modelNames : name ∈ modelNames keys ↔ ⟨.model, name⟩ ∈ keys := by
  simp only [modelNames, mem_map, mem_filter, decide_eq_true_eq]
  constructor
  · rintro ⟨⟨resourceType, name⟩, ⟨hkey, rfl⟩, rfl⟩
    exact hkey
  · intro hkey
    exact ⟨⟨.model, name⟩, ⟨hkey, rfl⟩, rfl⟩

theorem resolved_iff : Resolved analysis keys ↔ ∀ name,
    ⟨.model, name⟩ ∈ keys → ∃ model ∈ analysis.compiledProject.models,
      model.key = ⟨.model, name⟩ := by
  constructor
  · intro h name hkey
    exact h ⟨.model, name⟩ hkey rfl
  · rintro h ⟨resourceType, name⟩ hkey rfl
    exact h name hkey

/-- The pipelines of keys are those of the models, where all of them are in the project. -/
theorem pipelinesForKeys_of_resolved (h : Resolved analysis keys) :
    ∃ pipelines, pipelinesForKeys analysis keys = .ok pipelines ∧
      ∀ pipeline, pipeline ∈ pipelines ↔ WritesPipeline analysis keys pipeline := by
  have hresolved :
      ¬ (modelNames keys).any fun name => (pipelineByModel analysis name).isNone := by
    rw [any_eq_true]
    rintro ⟨name, hname, hnone⟩
    exact pipelineByModel_isNone.mp hnone (resolved_iff.mp h name (mem_modelNames.mp hname))
  refine ⟨sortedNames ((modelNames keys).filterMap (pipelineByModel analysis)).toFinset, ?_,
    fun pipeline => ?_⟩
  · rw [pipelinesForKeys, pipelinesForModelNames, if_neg hresolved]
  · rw [mem_sortedNames, mem_toFinset, mem_filterMap]
    constructor
    · rintro ⟨name, hname, hpipeline⟩
      obtain ⟨model, hmodel, hkey, hpipeline⟩ := pipelineByModel_eq_some.mp hpipeline
      exact ⟨model, hmodel, hkey ▸ mem_modelNames.mp hname, hpipeline⟩
    · rintro ⟨model, hmodel, hkey, hpipeline⟩
      rw [model_key_eq hmodel] at hkey
      exact ⟨model.key.name, mem_modelNames.mpr hkey,
        pipelineByModel_eq_some.mpr ⟨model, hmodel, model_key_eq hmodel, hpipeline⟩⟩

theorem pipelinesForKeys_of_not_resolved (h : ¬ Resolved analysis keys) :
    ∃ error, pipelinesForKeys analysis keys = .error error := by
  rw [resolved_iff] at h
  push Not at h
  obtain ⟨name, hkey, hmodel⟩ := h
  have hunresolved :
      (modelNames keys).any fun name => (pipelineByModel analysis name).isNone := by
    rw [any_eq_true]
    refine ⟨name, mem_modelNames.mpr hkey, pipelineByModel_isNone.mpr ?_⟩
    rintro ⟨model, hmem, hsame⟩
    exact hmodel model hmem hsame
  exact ⟨_, by rw [pipelinesForKeys, pipelinesForModelNames, if_pos hunresolved]⟩

theorem directPipelines_eq (analysis : CompileAnalysis) (preparation : WorkflowPreparation) :
    directPipelines analysis preparation = pipelinesForKeys analysis preparation.directWrites := by
  cases preparation <;> rfl

theorem virtualPipelines_eq (analysis : CompileAnalysis) (preparation : WorkflowPreparation) :
    virtualPipelines analysis preparation = pipelinesForKeys analysis
      preparation.virtualWrites := by
  cases preparation <;> rfl

/-- A role of the user's covers a pipeline for the project and the target of the analysis. -/
def MayRun (analysis : CompileAnalysis) (authenticated : Auth.AuthenticatedRequest)
    (context : OperationAuthorizationContext) (permission : Permission)
    (pipeline : String) : Prop :=
  ∃ policy, analysis.accessPolicy = some policy ∧
    RoleCovers context.store
      (operationRequest analysis authenticated context permission none [pipeline]) policy pipeline

theorem requireScoped_ok :
    requireScoped analysis authenticated context permission pipelines message = .ok () ↔
      adminRole ∈ authenticated.roles ∨ pipelines ≠ [] ∧
        ∀ pipeline ∈ pipelines, MayRun analysis authenticated context permission pipeline := by
  have hdecide := @decide_allowed_iff context.store
    (operationRequest analysis authenticated context permission none pipelines) rfl
  have hpolicy : (pipelines ≠ [] ∧ ∃ policy, analysis.accessPolicy = some policy ∧
      ∀ pipeline ∈ pipelines, RoleCovers context.store
        (operationRequest analysis authenticated context permission none pipelines) policy
          pipeline) ↔
      pipelines ≠ [] ∧
        ∀ pipeline ∈ pipelines, MayRun analysis authenticated context permission pipeline := by
    apply and_congr_right
    intro hne
    constructor
    · rintro ⟨policy, hpolicy, hcovers⟩ pipeline hpipeline
      exact ⟨policy, hpolicy, hcovers pipeline hpipeline⟩
    · intro h
      obtain ⟨first, hfirst⟩ := exists_mem_of_ne_nil _ hne
      obtain ⟨policy, hpolicy, -⟩ := h first hfirst
      refine ⟨policy, hpolicy, fun pipeline hpipeline => ?_⟩
      obtain ⟨other, hother, hcovers⟩ := h pipeline hpipeline
      obtain rfl := Option.some.inj (hpolicy.symm.trans hother)
      exact hcovers
  rw [← hpolicy]
  refine Iff.trans ?_ hdecide
  unfold requireScoped requireOperationAuthorization
  cases hallowed : (decide context.store
      (operationRequest analysis authenticated context permission none pipelines)).allowed <;>
    simp [hallowed, Except.map]

theorem requireScopedIfAny_ok :
    requireScopedIfAny analysis authenticated context permission pipelines message = .ok () ↔
      adminRole ∈ authenticated.roles ∨
        ∀ pipeline ∈ pipelines, MayRun analysis authenticated context permission pipeline := by
  unfold requireScopedIfAny
  cases pipelines with
  | nil => simp
  | cons pipeline pipelines =>
    rw [if_pos (cons_ne_nil _ _), requireScoped_ok]
    simp

/-- Who is allowed to build a preparation. -/
def MayBuild (analysis : CompileAnalysis) (authenticated : Auth.AuthenticatedRequest)
    (context : OperationAuthorizationContext) (preparation : WorkflowPreparation) : Prop :=
  requirePreparedBuildAuthorization analysis authenticated context preparation = .ok ()

theorem resolved_writes : Resolved analysis preparation.writes ↔
    Resolved analysis preparation.directWrites ∧ Resolved analysis preparation.virtualWrites := by
  simp only [Resolved, WorkflowPreparation.writes, mem_append, or_imp, forall_and]

theorem writesPipeline_writes : WritesPipeline analysis preparation.writes pipeline ↔
    WritesPipeline analysis preparation.directWrites pipeline ∨
      WritesPipeline analysis preparation.virtualWrites pipeline := by
  simp only [WritesPipeline, WorkflowPreparation.writes, mem_append]
  constructor
  · rintro ⟨model, hmodel, hkey | hkey, hpipeline⟩
    · exact Or.inl ⟨model, hmodel, hkey, hpipeline⟩
    · exact Or.inr ⟨model, hmodel, hkey, hpipeline⟩
  · rintro (⟨model, hmodel, hkey, hpipeline⟩ | ⟨model, hmodel, hkey, hpipeline⟩)
    · exact ⟨model, hmodel, Or.inl hkey, hpipeline⟩
    · exact ⟨model, hmodel, Or.inr hkey, hpipeline⟩

/-- A build is allowed to an administrator, and to whoever may run its direct writes and create
deployments of its virtual writes, if it writes a pipeline at all. -/
theorem mayBuild_iff : MayBuild analysis authenticated context preparation ↔
    Resolved analysis preparation.writes ∧ (adminRole ∈ authenticated.roles ∨
      (∃ pipeline, WritesPipeline analysis preparation.writes pipeline) ∧
      (∀ pipeline, WritesPipeline analysis preparation.directWrites pipeline →
        MayRun analysis authenticated context .buildDirectRun pipeline) ∧
      ∀ pipeline, WritesPipeline analysis preparation.virtualWrites pipeline →
        MayRun analysis authenticated context .deploymentCreate pipeline) := by
  unfold MayBuild requirePreparedBuildAuthorization
  rw [directPipelines_eq, virtualPipelines_eq, resolved_writes]
  by_cases hdirect : Resolved analysis preparation.directWrites
  · by_cases hvirtual : Resolved analysis preparation.virtualWrites
    · obtain ⟨direct, hdirectEq, hdirectMem⟩ := pipelinesForKeys_of_resolved hdirect
      obtain ⟨virtual, hvirtualEq, hvirtualMem⟩ := pipelinesForKeys_of_resolved hvirtual
      rw [hdirectEq, hvirtualEq]
      simp only [hdirect, hvirtual, true_and, writesPipeline_writes, ← hdirectMem, ← hvirtualMem]
      show (if direct = [] ∧ virtual = [] then _ else _) = _ ↔ _
      by_cases hempty : direct = [] ∧ virtual = []
      · obtain ⟨rfl, rfl⟩ := hempty
        rw [if_pos ⟨rfl, rfl⟩, requireScoped_ok]
        simp
      · have hsome : ∃ pipeline, pipeline ∈ direct ∨ pipeline ∈ virtual := by
          rcases not_and_or.mp hempty with hne | hne
          · exact (exists_mem_of_ne_nil _ hne).imp fun _ => Or.inl
          · exact (exists_mem_of_ne_nil _ hne).imp fun _ => Or.inr
        rw [if_neg hempty, bind_eq_ok]
        simp only [hsome, true_and, or_and_left]
        rw [← requireScopedIfAny_ok, ← requireScopedIfAny_ok]
        exact ⟨fun ⟨_, hdirect, hvirtual⟩ => ⟨hdirect, hvirtual⟩,
          fun ⟨hdirect, hvirtual⟩ => ⟨(), hdirect, hvirtual⟩⟩
    · obtain ⟨direct, hdirectEq, -⟩ := pipelinesForKeys_of_resolved hdirect
      obtain ⟨error, herror⟩ := pipelinesForKeys_of_not_resolved hvirtual
      rw [hdirectEq, herror]
      simp [hvirtual, bind, Except.bind]
  · obtain ⟨error, herror⟩ := pipelinesForKeys_of_not_resolved hdirect
    rw [herror]
    simp [hdirect, bind, Except.bind]

theorem scopeFromJson_scopeToJson (scope : Finset String) :
    scopeFromJson (some (scopeToJson scope)) = .ok scope := by
  have hall : ((sortedNames scope).map Json.str).all fun item => (stringItem? item).isSome := by
    simp [all_eq_true, stringItem?]
  have hitems : ((sortedNames scope).map Json.str).filterMap stringItem? = sortedNames scope := by
    rw [filterMap_map]
    exact filterMap_some
  rw [scopeToJson, scopeFromJson, if_pos hall, hitems]
  congr 1
  ext name
  rw [mem_toFinset, mem_sortedNames]

theorem validateExpected_ok : validateExpected (childEnvironment P A) Q B = .ok () ↔
    (preparedLogicalScopes Q).1 = (preparedLogicalScopes P).1 ∧
      (preparedLogicalScopes Q).2 = (preparedLogicalScopes P).2 ∧
      preparedPipelineScope Q B = preparedPipelineScope P A := by
  unfold validateExpected childEnvironment
  simp only [scopeFromJson_scopeToJson]
  show (if _ then _ else _) = _ ↔ _
  split_ifs with h <;> simp [h]

theorem logicalResourceIdentity_injective : Function.Injective logicalResourceIdentity := by
  rintro ⟨type, name⟩ ⟨type', name'⟩ h
  have hlist := congrArg String.toList h
  simp only [logicalResourceIdentity, String.toList_append] at hlist
  cases type <;> cases type' <;> simp_all [LogicalResourceType.value, String.toList_inj]

theorem mem_writes_of_accepted (h : validateExpected (childEnvironment P A) Q B = .ok ())
    (key : LogicalResourceKey) : key ∈ Q.writes ↔ key ∈ P.writes := by
  have hwrites := (validateExpected_ok.mp h).1
  have hmem : ∀ preparation : WorkflowPreparation,
      logicalResourceIdentity key ∈ (preparedLogicalScopes preparation).1 ↔
        key ∈ preparation.writes := by
    intro preparation
    rw [preparedLogicalScopes, mem_toFinset, logicalResourceIdentities,
      mem_map_of_injective logicalResourceIdentity_injective]
  rw [← hmem Q, ← hmem P, hwrites]

/-- The analysis with another policy. -/
def CompileAnalysis.withPolicy (analysis : CompileAnalysis) (policy : Option CompiledAccessPolicy) :
    CompileAnalysis := { analysis with accessPolicy := policy }

def OperationAuthorizationContext.withStore (context : OperationAuthorizationContext)
    (store : ControlStore) : OperationAuthorizationContext := { context with store := store }

/-- Whoever may build the one preparation may build the other, under every policy and with all
assignments. -/
def Transfers (context : OperationAuthorizationContext) (A : CompileAnalysis)
    (P : WorkflowPreparation)
    (B : CompileAnalysis) (Q : WorkflowPreparation) : Prop :=
  ∀ policy store authenticated,
    MayBuild (A.withPolicy policy) authenticated (context.withStore store) P →
      MayBuild (B.withPolicy policy) authenticated (context.withStore store) Q

/-- The second build is for the same project and for a target of the first one's, it writes models
of the project, and neither part of it writes a pipeline that the same part of the first one does
not write. -/
structure Within (context : OperationAuthorizationContext) (A : CompileAnalysis)
    (P : WorkflowPreparation) (B : CompileAnalysis) (Q : WorkflowPreparation) : Prop where
  resolved : Resolved B Q.writes
  project : operationProject B context = operationProject A context
  target : operationTarget A context = none ∨ operationTarget B context = operationTarget A context
  direct : ∀ pipeline, WritesPipeline B Q.directWrites pipeline →
    WritesPipeline A P.directWrites pipeline
  virtual : ∀ pipeline, WritesPipeline B Q.virtualWrites pipeline →
    WritesPipeline A P.virtualWrites pipeline

theorem MayRun.transfer (hproject : operationProject B context = operationProject A context)
    (htarget : operationTarget A context = none ∨
      operationTarget B context = operationTarget A context)
    (hpolicy : B.accessPolicy = A.accessPolicy)
    (h : MayRun A authenticated context permission pipeline) :
    MayRun B authenticated context permission pipeline := by
  obtain ⟨policy, hsome, assignment, hassignment, role, hrole, hgrant⟩ := h
  refine ⟨policy, hpolicy.trans hsome, assignment, ?_, role, hrole, hgrant⟩
  obtain ⟨hstore, huser, hsame, hrevoked, hmatches⟩ := mem_matchingAssignments.mp hassignment
  refine mem_matchingAssignments.mpr ⟨hstore, huser, hsame.trans hproject.symm, hrevoked, ?_⟩
  rcases hmatches with hall | hmatches
  · exact Or.inl hall
  · exact htarget.imp hmatches.trans fun heq => hmatches.trans heq.symm

/-- A build within an authorized one is authorized, if the same models are written. -/
theorem mayBuild_of_within (hwrites : ∀ key, key ∈ Q.writes ↔ key ∈ P.writes)
    (hwithin : (∃ pipeline, WritesPipeline A P.writes pipeline) → Within context A P B Q)
    (hpolicy : B.accessPolicy = A.accessPolicy) (h : MayBuild A authenticated context P) :
    MayBuild B authenticated context Q := by
  rw [mayBuild_iff] at h ⊢
  obtain ⟨hresolved, hallowed⟩ := h
  by_cases hsome : ∃ pipeline, WritesPipeline A P.writes pipeline
  · obtain hwithin := hwithin hsome
    refine ⟨hwithin.resolved, hallowed.imp_right ?_⟩
    rintro ⟨⟨pipeline, model, hmodel, hkey, -⟩, hdirect, hvirtual⟩
    refine ⟨?_, fun pipeline hpipeline => ?_, fun pipeline hpipeline => ?_⟩
    · have htype := A.compiledProject.model_key model hmodel
      obtain ⟨other, hother, hsame⟩ := hwithin.resolved model.key ((hwrites _).mpr hkey) htype
      exact ⟨other.pipelineName, other, hother, hsame ▸ (hwrites _).mpr hkey, rfl⟩
    · exact (hdirect pipeline (hwithin.direct pipeline hpipeline)).transfer hwithin.project
        hwithin.target hpolicy
    · exact (hvirtual pipeline (hwithin.virtual pipeline hpipeline)).transfer hwithin.project
        hwithin.target hpolicy
  · -- no model is written, and only an administrator may build
    have hadmin : adminRole ∈ authenticated.roles :=
      hallowed.resolve_right fun hothers => hsome hothers.1
    refine ⟨fun key hkey htype => ?_, Or.inl hadmin⟩
    obtain ⟨model, hmodel, hsame⟩ := hresolved key ((hwrites key).mp hkey) htype
    exact absurd ⟨model.pipelineName, model, hmodel, hsame ▸ (hwrites key).mp hkey, rfl⟩ hsome

/-- A role with the pipelines of a direct and of a virtual part. -/
def builderPolicy (direct virtual : List String) : CompiledAccessPolicy :=
  ⟨[⟨"builder", none, [⟨[.buildDirectRun], direct, none⟩, ⟨[.deploymentCreate], virtual, none⟩]⟩],
    "builder"⟩

/-- The role, for the project and the target of one build. -/
def builderStore (analysis : CompileAnalysis) (context : OperationAuthorizationContext) :
    ControlStore :=
  ⟨[⟨"assignment", "builder", operationProject analysis context, "builder",
    operationTarget analysis context, none, 0, none, none⟩]⟩

def builder : Auth.AuthenticatedRequest :=
  ⟨⟨"builder", "builder", none, none, .local⟩, [], none⟩

theorem mayRun_builder {direct virtual : List String} : MayRun
      (B.withPolicy (some (builderPolicy direct virtual))) builder
      (context.withStore (builderStore A context)) permission pipeline ↔
    (operationProject A context = operationProject B context ∧
      (operationTarget A context = none ∨ operationTarget A context = operationTarget B context)) ∧
      (permission = .buildDirectRun ∧ pipeline ∈ direct ∨
        permission = .deploymentCreate ∧ pipeline ∈ virtual) := by
  have hrole : (builderPolicy direct virtual).roleByName "builder" =
      some ⟨"builder", none,
        [⟨[.buildDirectRun], direct, none⟩, ⟨[.deploymentCreate], virtual, none⟩]⟩ :=
    rfl
  constructor
  · rintro ⟨policy, hpolicy, assignment, hassignment, role, hname, grant, hgrant, hcovers⟩
    cases hpolicy
    obtain ⟨hstore, -, hproject, -, htarget⟩ := mem_matchingAssignments.mp hassignment
    obtain rfl := mem_singleton.mp hstore
    obtain rfl := Option.some.inj (hrole.symm.trans hname)
    refine ⟨⟨hproject, htarget⟩, ?_⟩
    rcases mem_cons.mp hgrant with rfl | hgrant
    · exact Or.inl (by simpa [GrantCovers, operationRequest] using hcovers)
    · obtain rfl := mem_singleton.mp hgrant
      exact Or.inr (by simpa [GrantCovers, operationRequest] using hcovers)
  · rintro ⟨⟨hproject, htarget⟩, hgrant⟩
    refine ⟨_, rfl, _, mem_matchingAssignments.mpr ⟨mem_singleton_self _, rfl, hproject, rfl,
      htarget⟩, _, hrole, ?_⟩
    rcases hgrant with ⟨rfl, hpipeline⟩ | ⟨rfl, hpipeline⟩
    · exact ⟨_, mem_cons_self, mem_singleton_self _, Or.inl ⟨rfl, hpipeline⟩⟩
    · exact ⟨_, mem_cons_of_mem _ (mem_singleton_self _), mem_singleton_self _,
        Or.inl ⟨rfl, hpipeline⟩⟩

/-- An authorized build's child is authorized, whatever the policy and the assignments, if and only
if its build is within the authorized one, in case that one writes a pipeline of the project. -/
theorem transfers_iff (haccept : validateExpected (childEnvironment P A) Q B = .ok ()) :
    Transfers context A P B Q ↔
      (Resolved A P.writes → (∃ pipeline, WritesPipeline A P.writes pipeline) →
        Within context A P B Q) := by
  constructor
  · intro h hresolved hsome
    obtain ⟨hdirectResolved, hvirtualResolved⟩ := resolved_writes.mp hresolved
    obtain ⟨direct, -, hdirect⟩ := pipelinesForKeys_of_resolved hdirectResolved
    obtain ⟨virtual, -, hvirtual⟩ := pipelinesForKeys_of_resolved hvirtualResolved
    have hbuilder : adminRole ∉ builder.roles := by simp [builder]
    have hallowed : MayBuild (A.withPolicy (some (builderPolicy direct virtual))) builder
        (context.withStore (builderStore A context)) P := by
      refine mayBuild_iff.mpr ⟨hresolved, Or.inr ⟨hsome, fun pipeline hpipeline => ?_,
        fun pipeline hpipeline => ?_⟩⟩
      · exact mayRun_builder.mpr ⟨⟨rfl, Or.inr rfl⟩, Or.inl ⟨rfl, (hdirect pipeline).mpr hpipeline⟩⟩
      · exact mayRun_builder.mpr ⟨⟨rfl, Or.inr rfl⟩,
          Or.inr ⟨rfl, (hvirtual pipeline).mpr hpipeline⟩⟩
    obtain ⟨hresolved', hothers⟩ := mayBuild_iff.mp (h _ _ _ hallowed)
    obtain ⟨⟨pipeline, hpipeline⟩, hdirect', hvirtual'⟩ := hothers.resolve_left hbuilder
    have hscope : operationProject A context = operationProject B context ∧
        (operationTarget A context = none ∨ operationTarget A context =
          operationTarget B context) := by
      rcases writesPipeline_writes.mp hpipeline with hpipeline | hpipeline
      · exact (mayRun_builder.mp (hdirect' pipeline hpipeline)).1
      · exact (mayRun_builder.mp (hvirtual' pipeline hpipeline)).1
    refine ⟨hresolved', hscope.1.symm, hscope.2.imp_right Eq.symm, fun pipeline hpipeline => ?_,
      fun pipeline hpipeline => ?_⟩
    · have hgrant := (mayRun_builder.mp (hdirect' pipeline hpipeline)).2
      exact (hdirect pipeline).mp (by simpa using hgrant)
    · have hgrant := (mayRun_builder.mp (hvirtual' pipeline hpipeline)).2
      exact (hvirtual pipeline).mp (by simpa using hgrant)
  · intro h policy store authenticated hallowed
    have hresolved : Resolved A P.writes := (mayBuild_iff.mp hallowed).1
    have hwithin := h hresolved
    have hpolicy : (B.withPolicy policy).accessPolicy = (A.withPolicy policy).accessPolicy := rfl
    refine mayBuild_of_within (mem_writes_of_accepted haccept) (fun hsome => ?_) hpolicy hallowed
    obtain ⟨hresolved', hproject, htarget, hdirect, hvirtual⟩ := hwithin hsome
    exact ⟨hresolved', hproject, htarget, hdirect, hvirtual⟩

/-- What is before the first equals sign of two equal texts is equal. -/
theorem append_equals_inj {before before' after after' : List Char} (h : '=' ∉ before)
    (h' : '=' ∉ before') (heq : before ++ '=' :: after = before' ++ '=' :: after') :
    before = before' ∧ after = after' := by
  induction before generalizing before' with
  | nil =>
    cases before' with
    | nil => exact ⟨rfl, (List.cons.inj heq).2⟩
    | cons c before' => simp [← (List.cons.inj heq).1] at h'
  | cons c before ih =>
    cases before' with
    | nil => simp [(List.cons.inj heq).1] at h
    | cons c' before' =>
      obtain ⟨rfl, hrest⟩ := List.cons.inj heq
      rw [mem_cons, not_or] at h h'
      obtain ⟨hbefore, hafter⟩ := ih h.2 h'.2 hrest
      exact ⟨congrArg _ hbefore, hafter⟩

theorem equals_not_mem_identity (h : '=' ∉ key.name.toList) :
    '=' ∉ (logicalResourceIdentity key).toList := by
  cases hkey : key.resourceType <;>
    simp_all [logicalResourceIdentity, LogicalResourceType.value, String.toList_append]

theorem pipelineByKey_eq_some :
    pipelineByKey analysis key = some pipeline ↔
      ∃ model ∈ analysis.compiledProject.models, model.key = key ∧
        model.pipelineName = pipeline := by
  simp only [pipelineByKey, Option.map_eq_some_iff]
  constructor
  · rintro ⟨model, hfind, rfl⟩
    exact ⟨model, mem_reverse.mp (mem_of_find?_eq_some hfind),
      by simpa using find?_some hfind, rfl⟩
  · rintro ⟨model, hmodel, rfl, rfl⟩
    refine ⟨model, find?_eq_some_of_unique (mem_reverse.mpr hmodel) (by simp) ?_, rfl⟩
    intro other hother hkey
    exact CompiledProject.model_unique (mem_reverse.mp hother) hmodel (by simpa using hkey)

/-- A model that is written belongs to the same pipeline when the build is prepared again. -/
theorem pipeline_of_accepted (haccept : validateExpected (childEnvironment P A) Q B = .ok ())
    (hnames : ∀ key ∈ Q.writes ++ Q.reads, '=' ∉ key.name.toList)
    (hmodel : model ∈ A.compiledProject.models) (hkey : model.key ∈ P.writes) :
    ∃ other ∈ B.compiledProject.models,
      other.key = model.key ∧ other.pipelineName = model.pipelineName := by
  have hscope : logicalResourceIdentity model.key ++ "=" ++ model.pipelineName ∈
      preparedPipelineScope P A := by
    rw [preparedPipelineScope, mem_toFinset, mem_filterMap]
    refine ⟨model.key, mem_append_left _ hkey, ?_⟩
    rw [pipelineByKey_eq_some.mpr ⟨model, hmodel, rfl, rfl⟩]
    rfl
  rw [← (validateExpected_ok.mp haccept).2.2, preparedPipelineScope, mem_toFinset,
    mem_filterMap] at hscope
  obtain ⟨key, hmem, hsome⟩ := hscope
  obtain ⟨pipeline, hpipeline, htext⟩ := Option.map_eq_some_iff.mp hsome
  have hwritten := (mem_writes_of_accepted haccept model.key).mpr hkey
  have hlist := congrArg String.toList htext
  simp only [String.toList_append, append_assoc] at hlist
  obtain ⟨hidentity, hname⟩ := append_equals_inj (equals_not_mem_identity (hnames key hmem))
    (equals_not_mem_identity (hnames _ (mem_append_left _ hwritten))) hlist
  obtain rfl := logicalResourceIdentity_injective (String.toList_inj.mp hidentity)
  obtain ⟨other, hother, hsame, rfl⟩ := pipelineByKey_eq_some.mp hpipeline
  exact ⟨other, hother, hsame, String.toList_inj.mp hname⟩

/-- A child whose direct and virtual parts write what the authorized ones write builds within the
authorized build. -/
theorem within_of_parts (haccept : validateExpected (childEnvironment P A) Q B = .ok ())
    (hnames : ∀ key ∈ Q.writes ++ Q.reads, '=' ∉ key.name.toList) (hresolved : Resolved A P.writes)
    (hproject : operationProject B context = operationProject A context)
    (htarget : operationTarget B context = operationTarget A context)
    (hdirect : Q.directWrites ⊆ P.directWrites) (hvirtual : Q.virtualWrites ⊆ P.virtualWrites) :
    Within context A P B Q := by
  have hpipelines : ∀ {keys keys' : List LogicalResourceKey}, keys ⊆ keys' → keys' ⊆ P.writes →
      ∀ pipeline, WritesPipeline B keys pipeline → WritesPipeline A keys' pipeline := by
    rintro keys keys' hsubset hwrites pipeline ⟨model, hmodel, hkey, rfl⟩
    have htype := B.compiledProject.model_key model hmodel
    obtain ⟨original, horiginal, hsame⟩ := hresolved model.key (hwrites (hsubset hkey)) htype
    obtain ⟨other, hother, hkeys, hname⟩ := pipeline_of_accepted haccept hnames horiginal
      (hsame ▸ hwrites (hsubset hkey))
    obtain rfl := CompiledProject.model_unique hother hmodel (hkeys.trans hsame)
    exact ⟨original, horiginal, hsame ▸ hsubset hkey, hname.symm⟩
  refine ⟨fun key hkey htype => ?_, hproject, Or.inr htarget,
    hpipelines hdirect (subset_append_left _ _),
    hpipelines hvirtual (subset_append_right _ _)⟩
  have hwritten := (mem_writes_of_accepted haccept key).mp hkey
  obtain ⟨model, hmodel, rfl⟩ := hresolved key hwritten htype
  obtain ⟨other, hother, hsame, -⟩ := pipeline_of_accepted haccept hnames hmodel hwritten
  exact ⟨other, hother, hsame⟩

/-- Without equals signs in names, whoever may run a build may run a child that leaves every model
in the part in which it was authorized. -/
theorem transfers_of_parts (haccept : validateExpected (childEnvironment P A) Q B = .ok ())
    (hnames : ∀ key ∈ Q.writes ++ Q.reads, '=' ∉ key.name.toList)
    (hproject : operationProject B context = operationProject A context)
    (htarget : operationTarget B context = operationTarget A context)
    (hdirect : Q.directWrites ⊆ P.directWrites) (hvirtual : Q.virtualWrites ⊆ P.virtualWrites) :
    Transfers context A P B Q := by
  intro policy store authenticated hallowed
  have hresolved : Resolved A P.writes := (mayBuild_iff.mp hallowed).1
  have hpolicy : (B.withPolicy policy).accessPolicy = (A.withPolicy policy).accessPolicy := rfl
  refine mayBuild_of_within (mem_writes_of_accepted haccept) (fun _ => ?_) hpolicy hallowed
  obtain ⟨hresolved', hproject, htarget, hdirect, hvirtual⟩ :=
    within_of_parts haccept hnames hresolved hproject htarget hdirect hvirtual
  exact ⟨hresolved', hproject, htarget, hdirect, hvirtual⟩

def eventsModel : CompiledModel := ⟨⟨.model, "events"⟩, "ingest"⟩

theorem no_sources : ∀ s ∈ ([] : List CompiledSource), s.key.resourceType = .source := by simp

/-- The analysis of a project with one model. -/
def eventsAnalysis : CompileAnalysis where
  compiledProject := {
    sources := []
    models := [eventsModel]
    pipelines := [⟨"ingest", none⟩]
    projectName := some "analytics"
    targetName := some "production"
    source_key := no_sources
    model_key := by simp [eventsModel]
    names_nodup := by simp
    model_pipeline := by simp [eventsModel] }
  accessPolicy := none

def eventsContext : OperationAuthorizationContext := ⟨⟨[]⟩, "/srv/analytics", none⟩

def eventsDirect : WorkflowPreparation := .direct ⟨[eventsModel.key], []⟩

def eventsVirtual : WorkflowPreparation := .virtual ⟨[eventsModel.key], []⟩

/-- The model as it is staged and built in place. -/
def eventsMixed : WorkflowPreparation := .mixed ⟨[eventsModel.key], []⟩ ⟨[eventsModel.key], []⟩

def ordersModel : CompiledModel := ⟨⟨.model, "orders"⟩, "sales"⟩

/-- The analysis after a second model has come into the project. -/
def salesAnalysis : CompileAnalysis where
  compiledProject := {
    sources := []
    models := [ordersModel, eventsModel]
    pipelines := [⟨"ingest", none⟩, ⟨"sales", none⟩]
    projectName := some "analytics"
    targetName := some "production"
    source_key := no_sources
    model_key := by decide
    names_nodup := by decide
    model_pipeline := by decide }
  accessPolicy := none

theorem accepted_events :
    validateExpected (childEnvironment eventsMixed eventsAnalysis) eventsDirect salesAnalysis =
      .ok () :=
  validateExpected_ok.mpr ⟨by decide, by decide, by decide⟩

/-- A child of the grown project that leaves out the virtual part is authorized. -/
theorem transfers_iff_events :
    Transfers eventsContext eventsAnalysis eventsMixed salesAnalysis eventsDirect := by
  refine (transfers_iff accepted_events).mpr fun _ _ => ?_
  refine ⟨?_, rfl, Or.inr rfl, ?_, ?_⟩
  · intro key hkey _
    exact ⟨eventsModel, by decide, (mem_singleton.mp hkey).symm⟩
  · rintro pipeline ⟨model, hmodel, hkey, rfl⟩
    obtain rfl | rfl : model = ordersModel ∨ model = eventsModel := by
      simpa [salesAnalysis] using hmodel
    · exact absurd hkey (by decide)
    · exact ⟨eventsModel, by decide, hkey, rfl⟩
  · rintro pipeline ⟨model, _, hkey, rfl⟩
    cases hkey

theorem transfers_of_parts_events :
    Transfers eventsContext eventsAnalysis eventsMixed salesAnalysis eventsDirect :=
  transfers_of_parts accepted_events (by decide) rfl rfl (List.Subset.refl _)
    (nil_subset _)

/-- A child that stages a deployment in place of the authorized direct build passes the check, and
needs a permission that its user need not have. -/
theorem not_transfers : ¬ ∀ context A P B Q,
    validateExpected (childEnvironment P A) Q B = .ok () → Transfers context A P B Q := by
  intro h
  have haccept : validateExpected (childEnvironment eventsDirect eventsAnalysis) eventsVirtual
      eventsAnalysis = .ok () := validateExpected_ok.mpr ⟨rfl, rfl, rfl⟩
  have hallowed : MayBuild (eventsAnalysis.withPolicy (some (builderPolicy ["ingest"] []))) builder
      (eventsContext.withStore (builderStore eventsAnalysis eventsContext)) eventsDirect := by
    unfold MayBuild
    decide +kernel
  have hdenied :=
    h eventsContext eventsAnalysis eventsDirect eventsAnalysis eventsVirtual haccept _ _ _
    hallowed
  revert hdenied
  unfold MayBuild
  decide +kernel

end SqlTide.Authorization
