import SqlTide.Direct.AssembledSteps
import SqlTide.Direct.BuildExecution

/-!
# Recovery of paused sources

A failure of a direct build that its handlers catch brings every paused landing view back once, and
drops every staged source. An exception of another kind leaves the call without any recovery.
-/

namespace SqlTide.Direct

open Destruction (WorkflowPhase StatementIntent)
open Foundations Replay List

variable {env : Environment} {workflow : DirectBuildWorkflow}

/-- A statement attempted in the place of a template statement; only a replay differs from it. -/
structure StandsFor (statement template : WarehouseStatement) : Prop where
  sequence : statement.sequence = template.sequence
  stepId : statement.stepId = template.stepId
  phase : statement.phase = template.phase
  required : statement.continueOnError = template.continueOnError
  sql : statement.sql = template.sql ∨ ∃ name boundaries lowerBounds,
    statement.sql = .replay name boundaries lowerBounds

theorem StandsFor.refl (template : WarehouseStatement) : StandsFor template template :=
  ⟨rfl, rfl, rfl, rfl, .inl rfl⟩

variable {progress start : Progress} {template : WarehouseStatement}

theorem preparedStatement_of_ne (h : ∀ rest, template.stepId ≠ "replay_" ++ rest) :
    preparedStatement env workflow progress template = .ok template := by
  have hnone : runtimeByStep workflow replayStepId template.stepId = none := by
    rw [runtimeByStep, find?_eq_none]
    intro runtime _ hid
    exact h _ (of_decide_eq_true hid).symm
  rw [preparedStatement, hnone]

variable {statement : WarehouseStatement} {rest passed : List WarehouseStatement}

theorem standsFor_of_prepared
    (h : preparedStatement env workflow progress template = .ok statement) :
    StandsFor statement template := by
  unfold preparedStatement at h
  cases hruntime : runtimeByStep workflow replayStepId template.stepId with
  | none =>
    rw [hruntime] at h
    cases h
    exact .refl _
  | some runtime =>
    rw [hruntime] at h
    obtain ⟨capture, -, h⟩ := bind_eq_ok.mp h
    obtain ⟨realized, hrealized, h⟩ := bind_eq_ok.mp h
    obtain ⟨-, -, h⟩ := bind_eq_ok.mp h
    cases h
    obtain ⟨boundaries, -, hrealized⟩ := bind_eq_ok.mp hrealized
    obtain ⟨lowerBounds, -, hrealized⟩ := bind_eq_ok.mp hrealized
    obtain ⟨-, -, hrealized⟩ := bind_eq_ok.mp hrealized
    cases hrealized
    exact ⟨rfl, rfl, rfl, rfl, .inr ⟨_, _, _, rfl⟩⟩

theorem executed_of_ok {behaviour : StatementBehaviour}
    {rows : List CaptureRow} (hrequired : statement.continueOnError = false)
    (h : (executeWarehouseStatement behaviour statement).result = .ok rows) :
    (executeWarehouseStatement behaviour statement).executed = true := by
  unfold executeWarehouseStatement at h ⊢
  split at h
  · cases h
  · split at h
    · split at h
      · cases h
      · rw [hrequired] at h
        cases h
    · cases h
    · cases h
    · split at h
      · cases h
      · rfl

/-- What one step does: its preparation fails, or it attempts one statement, which fails, or is
completed. -/
theorem executeStep_cases {progress' : Progress} {failure : Option StepError}
    (h : executeStep env workflow progress template = (progress', failure)) :
    (∃ error, preparedStatement env workflow progress template = .error error ∧
      failure = some ⟨error, false⟩ ∧ progress' = progress) ∨
    ∃ statement executed, StandsFor statement template ∧
      preparedStatement env workflow progress template = .ok statement ∧
      progress'.attempted = progress.attempted ++ [statement] ∧
      progress'.relations = relationsAfter statement executed progress.relations ∧
      ((failure ≠ none ∧ progress'.completed = progress.completed) ∨
        (progress'.completed = progress.completed ++ [statement] ∧
          (statement.continueOnError = false → executed = true))) := by
  unfold executeStep at h
  cases hprepared : preparedStatement env workflow progress template with
  | error error =>
    rw [hprepared] at h
    obtain ⟨rfl, rfl⟩ := Prod.mk.inj h
    exact .inl ⟨error, rfl, rfl, rfl⟩
  | ok statement =>
    rw [hprepared] at h
    refine .inr ⟨statement, (executeWarehouseStatement (env.behaviour statement.sequence)
      statement).executed, standsFor_of_prepared hprepared, rfl, ?_⟩
    cases hresult : (executeWarehouseStatement (env.behaviour statement.sequence)
        statement).result with
    | error error =>
      simp only [hresult] at h
      obtain ⟨rfl, rfl⟩ := Prod.mk.inj h
      exact ⟨rfl, rfl, .inl ⟨by simp, rfl⟩⟩
    | ok rows =>
      simp only [hresult, keepCapture] at h
      have hexecuted := fun hrequired => executed_of_ok hrequired hresult
      split at h
      · obtain ⟨rfl, rfl⟩ := Prod.mk.inj h
        exact ⟨rfl, rfl, .inr ⟨rfl, hexecuted⟩⟩
      · split at h
        · obtain ⟨rfl, rfl⟩ := Prod.mk.inj h
          exact ⟨rfl, rfl, .inr ⟨rfl, hexecuted⟩⟩
        · obtain ⟨rfl, rfl⟩ := Prod.mk.inj h
          exact ⟨rfl, rfl, .inr ⟨rfl, hexecuted⟩⟩

theorem executeSteps_cons (h : executeStep env workflow start template = (progress, none)) :
    executeSteps env workflow (template :: rest) start =
      executeSteps env workflow rest progress := by
  rw [executeSteps, h]

theorem executeSteps_append (h : executeSteps env workflow passed start = (progress, none)) :
    executeSteps env workflow (passed ++ rest) start =
      executeSteps env workflow rest progress := by
  induction passed generalizing start with
  | nil =>
    obtain rfl := (Prod.mk.inj h).1
    rfl
  | cons template passed ih =>
    rw [cons_append]
    rcases hstep : executeStep env workflow start template with ⟨middle, failure⟩
    cases failure with
    | none =>
      rw [executeSteps_cons hstep] at h ⊢
      exact ih h
    | some error =>
      rw [executeSteps, hstep] at h
      cases h

theorem executeSteps_stop {templates : List WarehouseStatement}
    {stepId : String} {error : StepError}
    (h : executeSteps env workflow templates start = (progress, some (stepId, error))) :
    ∃ passed template rest before, templates = passed ++ template :: rest ∧
      executeSteps env workflow passed start = (before, none) ∧
      executeStep env workflow before template = (progress, some error) ∧
      stepId = template.stepId := by
  induction templates generalizing start with
  | nil => cases h
  | cons template templates ih =>
    rcases hstep : executeStep env workflow start template with ⟨middle, failure⟩
    cases failure with
    | none =>
      rw [executeSteps_cons hstep] at h
      obtain ⟨passed, stopped, rest, before, rfl, hpassed, hstopped, hid⟩ := ih h
      refine ⟨template :: passed, stopped, rest, before, rfl, ?_, hstopped, hid⟩
      rw [executeSteps_cons hstep]
      exact hpassed
    | some other =>
      rw [executeSteps, hstep] at h
      simp only [Prod.mk.injEq, Option.some.injEq] at h
      obtain ⟨rfl, rfl, rfl⟩ := h
      exact ⟨[], template, templates, start, rfl, rfl, hstep, rfl⟩

theorem executeSteps_concat
    (h : executeSteps env workflow (passed ++ [template]) start = (progress, none)) :
    ∃ before, executeSteps env workflow passed start = (before, none) ∧
      executeStep env workflow before template = (progress, none) := by
  rcases hpassed : executeSteps env workflow passed start with ⟨before, failure⟩
  cases failure with
  | none =>
    rw [executeSteps_append hpassed, executeSteps] at h
    rcases hstep : executeStep env workflow before template with ⟨middle, failure⟩
    rw [hstep] at h
    cases failure with
    | none =>
      obtain rfl := (Prod.mk.inj h).1
      exact ⟨before, rfl, hstep⟩
    | some error => cases h
  | some failed =>
    obtain ⟨first, stopped, rest, middle, rfl, hfirst, hstopped, hid⟩ := executeSteps_stop hpassed
    rw [append_assoc, executeSteps_append hfirst, cons_append, executeSteps, hstopped] at h
    cases h

def stepIds (statements : List WarehouseStatement) : List String := statements.map (·.stepId)

/-- A landing view whose activation has been completed is there. -/
def Attached (request : DirectBuildRequest) (progress : Progress) : Prop :=
  ∀ view ∈ pausedLandingViews request,
    "activate_source_" ++ stepSegment view ∈ stepIds progress.completed →
      view ∈ progress.relations

/-- The progress after a part of the template: what has been attempted stands for it, all of it
is completed, and activated landing views are there. -/
structure Follows (request : DirectBuildRequest) (passed : List WarehouseStatement)
    (progress : Progress) : Prop where
  attempted : List.Forall₂ StandsFor progress.attempted passed
  completed : progress.completed = progress.attempted
  attached : Attached request progress

section

variable {request : DirectBuildRequest}

variable {statements recovery : List WarehouseStatement} {statement : WarehouseStatement}
  {relations : Finset String} {relation : String}

variable {templates passed : List WarehouseStatement} {executed : Bool} {low high : ℕ}

theorem stepIds_eq_of_standsFor
    (h : List.Forall₂ StandsFor statements templates) : stepIds statements = stepIds templates := by
  induction h with
  | nil => rfl
  | cons hstands _ ih =>
    rw [stepIds, map_cons, hstands.stepId]
    exact congrArg _ ih

theorem mem_relationsAfter (h : relation ∈ relations)
    (hkeeps : statement.sql ≠ .dropIfExists relation) :
    relation ∈ relationsAfter statement executed relations := by
  unfold relationsAfter
  split_ifs
  · cases hsql : statement.sql with
    | createIfNotExists other => exact Finset.mem_insert_of_mem h
    | create other => exact Finset.mem_insert_of_mem h
    | dropIfExists other =>
      refine Finset.mem_erase.mpr ⟨?_, h⟩
      rintro rfl
      exact hkeeps hsql
    | ensureDatabase => exact h
    | exchange _ _ => exact h
    | wait => exact h
    | coverage _ => exact h
    | replayTemplate _ => exact h
    | replay _ _ _ => exact h
    | audit _ => exact h
  · exact h

/-- A step, passed or failed, detaches no activated landing view. -/
theorem Follows.attached_step {progress' : Progress} {failure : Option StepError}
    (h : Follows request passed progress)
    (hinitial : passed ++ [template] <+: assembleStatements request)
    (hstep : executeStep env workflow progress template = (progress', failure)) :
    Attached request progress' := by
  intro view hview hactivated
  have hids : stepIds progress.completed = stepIds passed := by
    rw [h.completed, stepIds_eq_of_standsFor h.attempted]
  rcases executeStep_cases hstep with ⟨error, -, -, rfl⟩ |
    ⟨statement, executed, hstands, hprepared, hattempted, hrelations, hending⟩
  · exact h.attached view hview hactivated
  · have htemplate : template ∈ assembleStatements request :=
      hinitial.subset (List.mem_append_right _ (mem_singleton.mpr rfl))
    rw [hrelations]
    by_cases hbefore : "activate_source_" ++ stepSegment view ∈ stepIds progress.completed
    · refine mem_relationsAfter (h.attached view hview hbefore) ?_
      rw [hids] at hbefore
      obtain ⟨earlier, hearlier, hid⟩ := List.mem_map.mp hbefore
      have hall : (assembleStatements request).Pairwise fun a b =>
          startsWith a.stepId "activate_source_" = true →
            ∀ relation, b.sql ≠ .dropIfExists relation := pairwise_keeps
      have hpairwise := hall.sublist hinitial.sublist
      have hkeeps := (pairwise_append.mp hpairwise).2.2 earlier hearlier template
        (mem_singleton.mpr rfl) (by rw [hid]; exact startsWith_append _ _) view
      rcases hstands.sql with hsql | ⟨_, _, _, hsql⟩
      · rw [hsql]
        exact hkeeps
      · rw [hsql]
        exact StatementSql.noConfusion
    · rcases hending with ⟨-, hcompleted⟩ | ⟨hcompleted, hexecuted⟩
      · rw [hcompleted] at hactivated
        exact absurd hactivated hbefore
      · rw [hcompleted, stepIds, map_append, mem_append] at hactivated
        have hid : statement.stepId = "activate_source_" ++ stepSegment view := by
          rcases hactivated with hearlier | hlast
          · exact absurd hearlier hbefore
          · exact (mem_singleton.mp hlast).symm
        have hne : ∀ rest, template.stepId ≠ "replay_" ++ rest := by
          intro rest
          rw [← hstands.stepId, hid]
          exact append_ne_append (by decide) (by decide) _ _
        rw [preparedStatement_of_ne hne] at hprepared
        cases hprepared
        obtain ⟨hsql, hrequired⟩ := sql_of_activation htemplate hview hid
        rw [relationsAfter, hexecuted hrequired, if_pos rfl, hsql]
        exact Finset.mem_insert_self _ _

theorem follows_executeSteps (hinitial : passed <+: assembleStatements request)
    (h : executeSteps env workflow passed ⟨[], [], [], relations⟩ = (progress, none)) :
    Follows request passed progress := by
  induction passed using reverseRecOn generalizing progress with
  | nil =>
    obtain rfl := (Prod.mk.inj h).1
    refine ⟨.nil, rfl, ?_⟩
    intro view _ hactivated
    cases hactivated
  | append_singleton passed template ih =>
    obtain ⟨before, hpassed, hstep⟩ := executeSteps_concat h
    have hfollows := ih ((prefix_append _ _).trans hinitial) hpassed
    have hattached := hfollows.attached_step hinitial hstep
    rcases executeStep_cases hstep with ⟨error, -, hfailure, -⟩ |
      ⟨statement, executed, hstands, -, hattempted, -, hending⟩
    · cases hfailure
    · rcases hending with ⟨hfailure, -⟩ | ⟨hcompleted, -⟩
      · exact absurd rfl hfailure
      · refine ⟨?_, ?_, hattached⟩
        · rw [hattempted]
          exact rel_append hfollows.attempted (.cons hstands .nil)
        · rw [hcompleted, hattempted, hfollows.completed]

theorem Part.of_standsFor {start : ℕ} (h : List.Forall₂ StandsFor statements templates)
    (hpart : Part start low high templates) : Part start low high statements := by
  have hsequences : statements.map (·.sequence) = templates.map (·.sequence) := by
    clear hpart
    induction h with
    | nil => rfl
    | cons hstands _ ih => rw [map_cons, map_cons, hstands.sequence, ih]
  have hphases : statements.map (fun s => phaseIndex s.phase) =
      templates.map fun s => phaseIndex s.phase := by
    clear hpart hsequences
    induction h with
    | nil => rfl
    | cons hstands _ ih => rw [map_cons, map_cons, hstands.phase, ih]
  refine ⟨?_, ?_, ?_⟩
  · rw [hsequences, hpart.sequences, h.length_eq]
  · intro s hs
    have hmem : phaseIndex s.phase ∈ templates.map fun s => phaseIndex s.phase := by
      rw [← hphases]
      exact mem_map_of_mem hs
    obtain ⟨template, htemplate, hphase⟩ := List.mem_map.mp hmem
    rw [← hphase]
    exact hpart.bounds template htemplate
  · have hpairwise := pairwise_map.mpr hpart.phases
    rw [← hphases] at hpairwise
    exact pairwise_map.mp hpairwise

theorem Part.of_isPrefix {start : ℕ} {first : List WarehouseStatement}
    (hinitial : first <+: statements) (h : Part start low high statements) :
    Part start low high first := by
  obtain ⟨rest, rfl⟩ := hinitial
  refine ⟨?_, ?_, (pairwise_append.mp h.phases).1⟩
  · have hsequences := h.sequences
    rw [map_append, length_append, ← range'_append_1] at hsequences
    exact (append_inj hsequences (by simp)).1
  · intro s hs
    exact h.bounds s (List.mem_append_left _ hs)

/-- The recovery statements that are due, as they are numbered. -/
def pendingRecoveries (completed : List String) :
    ℕ → List WarehouseStatement → List WarehouseStatement
  | _, [] => []
  | sequence, recoveryStatement :: rest =>
    if activationStepId recoveryStatement ∈ completed then
      pendingRecoveries completed sequence rest
    else
      { recoveryStatement with sequence := sequence } ::
        pendingRecoveries completed (sequence + 1) rest

def runOf (env : Environment) (statement : WarehouseStatement) : StatementRun :=
  executeWarehouseStatement (env.behaviour statement.sequence) statement

/-- No exception of a recovery statement leaves the recovery. -/
def RecoveryContained (env : Environment) (statements : List WarehouseStatement) : Prop :=
  ∀ s ∈ statements, ∀ error, (runOf env s).result = .error error → error.caughtInRecovery = true

def relationsAfterAll (env : Environment) (statements : List WarehouseStatement)
    (relations : Finset String) : Finset String :=
  statements.foldl (fun relations s => relationsAfter s (runOf env s).executed relations) relations

variable {completed : List String} {start : ℕ}

/-- Where nothing leaves the recovery, every statement that is due is attempted once. -/
theorem recoverSources_of_contained (recovered : List WarehouseStatement)
    (h : RecoveryContained env (pendingRecoveries completed (start + recovered.length) recovery)) :
    recoverSources env completed start recovery recovered relations =
      ⟨recovered ++ pendingRecoveries completed (start + recovered.length) recovery,
        relationsAfterAll env (pendingRecoveries completed (start + recovered.length) recovery)
          relations, none⟩ := by
  induction recovery generalizing recovered relations with
  | nil => simp [recoverSources, pendingRecoveries, relationsAfterAll]
  | cons statement rest ih =>
    rw [recoverSources]
    rw [pendingRecoveries] at h ⊢
    split_ifs at h ⊢ with hactivated
    · exact ih recovered h
    · have hlength : start + (recovered ++
          [{ statement with sequence := start + recovered.length }]).length =
            start + recovered.length + 1 := by
        rw [length_append, length_singleton]
        omega
      have hcontained : RecoveryContained env (pendingRecoveries completed (start + (recovered ++
          [{ statement with sequence := start + recovered.length }]).length) rest) := by
        rw [hlength]
        intro s hs
        exact h s (mem_cons_of_mem _ hs)
      have hfirst := h _ (mem_cons_self ..)
      dsimp only
      unfold runOf at hfirst
      split
      · rw [ih _ hcontained, hlength, append_assoc]
        rfl
      · next error herror =>
        rw [if_pos (hfirst error herror), ih _ hcontained, hlength, append_assoc]
        rfl

/-- An exception that leaves the recovery is not one of the contained. -/
theorem contained_of_recoverSources {recovered : List WarehouseStatement}
    (h : (recoverSources env completed start recovery recovered relations).escaped = none) :
    RecoveryContained env (pendingRecoveries completed (start + recovered.length) recovery) := by
  induction recovery generalizing recovered relations with
  | nil =>
    intro s hs
    cases hs
  | cons statement rest ih =>
    rw [recoverSources] at h
    rw [pendingRecoveries]
    split_ifs at h ⊢ with hactivated
    · exact ih h
    · have hlength : start + (recovered ++
          [{ statement with sequence := start + recovered.length }]).length =
            start + recovered.length + 1 := by
        rw [length_append, length_singleton]
        omega
      dsimp only at h
      intro s hs error herror
      rcases mem_cons.mp hs with rfl | hs
      · rw [runOf] at herror
        rw [herror] at h
        dsimp only at h
        by_contra hcaught
        rw [if_neg hcaught] at h
        cases h
      · rw [← hlength] at hs
        split at h
        · exact ih h s hs error herror
        · split_ifs at h
          exact ih h s hs error herror

theorem exists_of_mem_pendingRecoveries
    {s : WarehouseStatement} (h : s ∈ pendingRecoveries completed start recovery) :
    ∃ r ∈ recovery, activationStepId r ∉ completed ∧ s = { r with sequence := s.sequence } := by
  induction recovery generalizing start with
  | nil => cases h
  | cons first rest ih =>
    rw [pendingRecoveries] at h
    split_ifs at h with hactivated
    · obtain ⟨r, hr, hs⟩ := ih h
      exact ⟨r, mem_cons_of_mem _ hr, hs⟩
    · rcases mem_cons.mp h with rfl | h
      · exact ⟨first, mem_cons_self, hactivated, rfl⟩
      · obtain ⟨r, hr, hs⟩ := ih h
        exact ⟨r, mem_cons_of_mem _ hr, hs⟩

theorem stepIds_pendingRecoveries (recovery : List WarehouseStatement) :
    stepIds (pendingRecoveries completed start recovery) =
      (stepIds recovery).filter fun stepId =>
        replaceFirst stepId "recover_" "activate_" ∉ completed := by
  induction recovery generalizing start with
  | nil => rfl
  | cons first rest ih =>
    rw [pendingRecoveries]
    simp only [stepIds, map_cons] at ih ⊢
    split_ifs with hactivated
    · rw [filter_cons_of_neg (by simpa [activationStepId] using hactivated)]
      exact ih
    · rw [filter_cons_of_pos (by simpa [activationStepId] using hactivated), map_cons]
      exact congrArg _ ih

theorem part_pendingRecoveries (h : ∀ s ∈ recovery, s.phase = .finalization) :
    Part start 8 8 (pendingRecoveries completed start recovery) := by
  have hphases : ∀ s ∈ pendingRecoveries completed start recovery, phaseIndex s.phase = 8 := by
    intro s hs
    obtain ⟨r, hr, -, heq⟩ := exists_of_mem_pendingRecoveries hs
    rw [heq, h r hr]
    rfl
  refine ⟨?_, ?_, ?_⟩
  · clear hphases h
    induction recovery generalizing start with
    | nil => rfl
    | cons first rest ih =>
      rw [pendingRecoveries]
      split_ifs
      · exact ih
      · rw [map_cons, ih, length_cons, range'_succ]
  · intro s hs
    rw [hphases s hs]
    exact ⟨le_rfl, le_rfl⟩
  · apply pairwise_of_forall_mem_list
    intro a ha b hb
    rw [hphases a ha, hphases b hb]

theorem relationsAfterAll_cons (statement : WarehouseStatement) (rest : List WarehouseStatement)
    (relations : Finset String) :
    relationsAfterAll env (statement :: rest) relations =
      relationsAfterAll env rest
        (relationsAfter statement (runOf env statement).executed relations) := rfl

theorem mem_relationsAfterAll (h : relation ∈ relations)
    (hkeeps : ∀ s ∈ statements, s.sql ≠ .dropIfExists relation) :
    relation ∈ relationsAfterAll env statements relations := by
  induction statements generalizing relations with
  | nil => exact h
  | cons first rest ih =>
    apply ih
    · exact mem_relationsAfter h (hkeeps first mem_cons_self)
    · intro s hs
      exact hkeeps s (mem_cons_of_mem _ hs)

theorem mem_relationsAfterAll_of_create (hmem : statement ∈ statements)
    (hexecuted : (runOf env statement).executed = true)
    (hcreate : statement.sql = .createIfNotExists relation)
    (hkeeps : ∀ s ∈ statements, s.sql ≠ .dropIfExists relation) :
    relation ∈ relationsAfterAll env statements relations := by
  induction statements generalizing relations with
  | nil => cases hmem
  | cons first rest ih =>
    have hrest : ∀ s ∈ rest, s.sql ≠ .dropIfExists relation :=
      fun s hs => hkeeps s (mem_cons_of_mem _ hs)
    rcases mem_cons.mp hmem with rfl | hmem
    · rw [relationsAfterAll_cons]
      refine mem_relationsAfterAll ?_ hrest
      rw [relationsAfter, hexecuted, if_pos rfl, hcreate]
      exact Finset.mem_insert_self _ _
    · exact ih hmem hrest

/-- A statement that creates a relation of another name, or none. -/
def CreatesNot (relation : String) (sql : StatementSql) : Prop :=
  sql ≠ .create relation ∧ sql ≠ .createIfNotExists relation

theorem notMem_relationsAfter (h : relation ∉ relations)
    (hcreates : CreatesNot relation statement.sql) :
    relation ∉ relationsAfter statement executed relations := by
  unfold relationsAfter
  split_ifs
  · cases hsql : statement.sql with
    | createIfNotExists other =>
      intro hmem
      rcases Finset.mem_insert.mp hmem with rfl | hmem
      · exact hcreates.2 hsql
      · exact h hmem
    | create other =>
      intro hmem
      rcases Finset.mem_insert.mp hmem with rfl | hmem
      · exact hcreates.1 hsql
      · exact h hmem
    | dropIfExists other => exact fun hmem => h (Finset.mem_of_mem_erase hmem)
    | ensureDatabase => exact h
    | exchange _ _ => exact h
    | wait => exact h
    | coverage _ => exact h
    | replayTemplate _ => exact h
    | replay _ _ _ => exact h
    | audit _ => exact h
  · exact h

theorem notMem_relationsAfterAll_of_drop (hmem : statement ∈ statements)
    (hexecuted : (runOf env statement).executed = true)
    (hdrop : statement.sql = .dropIfExists relation)
    (hcreates : ∀ s ∈ statements, CreatesNot relation s.sql) :
    relation ∉ relationsAfterAll env statements relations := by
  have hstays : ∀ (rest : List WarehouseStatement) (relations : Finset String),
      relation ∉ relations → (∀ s ∈ rest, CreatesNot relation s.sql) →
        relation ∉ relationsAfterAll env rest relations := by
    intro rest
    induction rest with
    | nil => exact fun _ h _ => h
    | cons first rest ih =>
      intro relations h hrest
      apply ih
      · exact notMem_relationsAfter h (hrest first mem_cons_self)
      · intro s hs
        exact hrest s (mem_cons_of_mem _ hs)
  induction statements generalizing relations with
  | nil => cases hmem
  | cons first rest ih =>
    have hrest : ∀ s ∈ rest, CreatesNot relation s.sql :=
      fun s hs => hcreates s (mem_cons_of_mem _ hs)
    rcases mem_cons.mp hmem with rfl | hmem
    · rw [relationsAfterAll_cons]
      refine hstays rest _ ?_ hrest
      rw [relationsAfter, hexecuted, if_pos rfl, hdrop]
      exact Finset.notMem_erase _ _
    · exact ih hmem hrest

end

end SqlTide.Direct
