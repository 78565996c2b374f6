import SqlTide.Direct.SourceRecovery

/-!
# Restored sources

After a failure with a paused source the landing views are attached again and the staged sources
are gone, and the raised error carries the attempted statements, just if every exception on the way
is one that its handler catches.
-/

namespace SqlTide.Direct

open Destruction (WorkflowPhase)
open Foundations Replay List

/-- How often a run attempts a step. -/
def attempts (run : DirectRun) (stepId : String) : ℕ := (stepIds run.attempted).count stepId

/-- The recovery statements of a run end without an exception. -/
def RecoverySucceeds (env : Environment) (run : DirectRun) : Prop :=
  ∀ s ∈ run.attempted, s.phase = .finalization → ∃ rows, (runOf env s).result = .ok rows

structure Recovers (request : DirectBuildRequest) (env : Environment) (run : DirectRun) : Prop where
  carried : ∃ failedStepId cause, run.ending = .failed run.attempted failedStepId cause
  landingViews : ∀ view ∈ pausedLandingViews request,
    attempts run ("recover_source_" ++ stepSegment view) =
      if "activate_source_" ++ stepSegment view ∈ stepIds run.completed then 0 else 1
  stagedSources : ∀ source ∈ recreatedSources request,
    attempts run ("recover_staged_source_" ++ stepSegment (kafkaTableName source.name)) = 1
  attached : RecoverySucceeds env run → ∀ source ∈ request.sources,
    landingMvName source.name ∈ request.catalog → landingMvName source.name ∈ run.relations
  unstaged : RecoverySucceeds env run → ∀ source ∈ recreatedSources request,
    source.stagedRelationName ∉ run.relations

/-- A failed build that has tried to pause a source recovers. -/
def RestoresSources (request : DirectBuildRequest) (env : Environment) (run : DirectRun) : Prop :=
  (∃ s ∈ run.attempted, pausesSource s.stepId = true) →
    (∀ statements, run.ending ≠ .returned statements) → Recovers request env run

/-- A pause has been tried before a step is over. -/
def SourcePaused (progress : Progress) (template : WarehouseStatement) : Prop :=
  pausesSource template.stepId = true ∨ ∃ s ∈ progress.completed, pausesSource s.stepId = true

def dueRecoveries (workflow : DirectBuildWorkflow) (progress : Progress) :
    List WarehouseStatement :=
  pendingRecoveries (stepIds progress.completed) (progress.attempted.length + 1)
    workflow.sourceRecoveryStatements

/-- Once a source is paused, what a step raises is caught, and so is what the recovery
statements raise that are then due. -/
def StepContained (env : Environment) (workflow : DirectBuildWorkflow) (progress : Progress)
    (template : WarehouseStatement) : Prop :=
  ∀ progress' error, executeStep env workflow progress template = (progress', some error) →
    SourcePaused progress template →
      error.caught = true ∧ RecoveryContained env (dueRecoveries workflow progress')

/-- Every step that is reached is contained. -/
def Contained (env : Environment) (workflow : DirectBuildWorkflow) (relations : Finset String) :
    Prop :=
  env.workflowPrepared = none → ∀ passed template rest progress,
    workflow.statements = passed ++ template :: rest →
      executeSteps env workflow passed ⟨[], [], [], relations⟩ = (progress, none) →
        StepContained env workflow progress template

variable {request : DirectBuildRequest} {env : Environment} {workflow : DirectBuildWorkflow}

theorem assembled_of_ok (h : assembleDirectBuildWorkflow request = .ok workflow) :
    workflow.statements = assembleStatements request ∧
      (assembleStatements request ≠ [] →
        RecoveryOf request workflow.sourceRecoveryStatements) := by
  obtain ⟨recovery, hrecovery, h⟩ := bind_eq_ok.mp h
  cases h
  exact ⟨rfl, fun hnonempty => recoveryOf_sourceRecoveryStatements hnonempty hrecovery⟩

theorem runtimeReplays_of_ok (h : assembleDirectBuildWorkflow request = .ok workflow) :
    workflow.runtimeReplays = request.runtimeReplays := by
  obtain ⟨recovery, -, h⟩ := bind_eq_ok.mp h
  cases h
  rfl

theorem stepIds_recovery {recovery : List WarehouseStatement} (h : RecoveryOf request recovery) :
    stepIds recovery = (recoveryEntries request).map (·.1) := by
  rw [← h.entries, map_map]
  rfl

theorem nodup_recoveryIds : ((recoveryEntries request).map (·.1)).Nodup := by
  rw [recoveryEntries, map_append, map_map, map_map]
  refine List.Nodup.append ?_ ?_ ?_
  · have hnames : ((recreatedSources request).map (·.name)).Nodup :=
      request.sources_nodup.sublist (filter_sublist.map _)
    have hids := (hnames.map (append_right_injective "kafka__")).map
      (append_right_injective "recover_staged_source_")
    rw [map_map, map_map] at hids
    refine (map_congr_left fun source _ => ?_) ▸ hids
    simp only [Function.comp_apply, source.stepSegment_kafkaTableName]
    rfl
  · have hviews : (pausedLandingViews request).Nodup := nodup_pausedLandingViews
    have hids := hviews.map (append_right_injective "recover_source_")
    refine (map_congr_left fun view hview => ?_) ▸ hids
    simp only [Function.comp_apply, stepSegment_of_mem hview]
  · intro id hstaged hrecover
    obtain ⟨source, -, rfl⟩ := List.mem_map.mp hstaged
    obtain ⟨view, -, hid⟩ := List.mem_map.mp hrecover
    exact append_ne_append (by decide) (by decide) _ _ hid

theorem mem_recoveryIds_of_view {view : String} (h : view ∈ pausedLandingViews request) :
    "recover_source_" ++ stepSegment view ∈ (recoveryEntries request).map (·.1) := by
  rw [recoveryEntries, map_append, map_map, map_map]
  exact List.mem_append_right _ (mem_map_of_mem h)

theorem mem_recoveryIds_of_source {source : ManagedSource} (h : source ∈ recreatedSources request) :
    "recover_staged_source_" ++ stepSegment (kafkaTableName source.name) ∈
      (recoveryEntries request).map (·.1) := by
  rw [recoveryEntries, map_append, map_map, map_map]
  exact List.mem_append_left _ (mem_map_of_mem h)

theorem replaceFirst_recover_view (rest : String) :
    replaceFirst ("recover_source_" ++ rest) "recover_" "activate_" =
      "activate_source_" ++ rest := by
  have hsplit : "recover_source_" ++ rest = "recover_" ++ ("source_" ++ rest) := by
    rw [← String.append_assoc]
    rfl
  rw [hsplit, replaceFirst_append (by decide), ← String.append_assoc]
  rfl

theorem replaceFirst_recover_staged (rest : String) :
    replaceFirst ("recover_staged_source_" ++ rest) "recover_" "activate_" =
      "activate_staged_source_" ++ rest := by
  have hsplit : "recover_staged_source_" ++ rest = "recover_" ++ ("staged_source_" ++ rest) := by
    rw [← String.append_assoc]
    rfl
  rw [hsplit, replaceFirst_append (by decide), ← String.append_assoc]
  rfl

/-- The progress of a loop that has stopped at a statement. -/
structure Stopped (request : DirectBuildRequest) (progress : Progress) : Prop where
  attempted : ∃ templates, templates <+: assembleStatements request ∧
    List.Forall₂ StandsFor progress.attempted templates
  completed : progress.completed ⊆ progress.attempted
  attached : Attached request progress

variable {passed : List WarehouseStatement} {template : WarehouseStatement}
  {progress progress' : Progress} {failure : Option StepError}

theorem stopped_of_step (hfollows : Follows request passed progress)
    (hinitial : passed ++ [template] <+: assembleStatements request)
    (hstep : executeStep env workflow progress template = (progress', failure)) :
    Stopped request progress' := by
  have hattached := hfollows.attached_step hinitial hstep
  rcases executeStep_cases hstep with ⟨error, -, -, rfl⟩ |
    ⟨statement, executed, hstands, -, hattempted, -, hending⟩
  · refine ⟨⟨passed, (prefix_append _ _).trans hinitial, hfollows.attempted⟩, ?_, hattached⟩
    rw [hfollows.completed]
    exact List.Subset.refl _
  · refine ⟨⟨_, hinitial, ?_⟩, ?_, hattached⟩
    · rw [hattempted]
      exact rel_append hfollows.attempted (.cons hstands .nil)
    · rw [hattempted]
      rcases hending with ⟨-, hcompleted⟩ | ⟨hcompleted, -⟩
      · rw [hcompleted, hfollows.completed]
        exact subset_append_left _ _
      · rw [hcompleted, hfollows.completed]
        exact List.Subset.refl _

theorem Stopped.startsAs (h : Stopped request progress) {stepId : String}
    (hid : stepId ∈ stepIds progress.attempted) : StartsAs stepStarts stepId := by
  obtain ⟨templates, hinitial, hstands⟩ := h.attempted
  rw [stepIds_eq_of_standsFor hstands] at hid
  obtain ⟨template, htemplate, rfl⟩ := List.mem_map.mp hid
  exact startsAs_of_mem (hinitial.subset htemplate)

theorem Stopped.part (h : Stopped request progress) : Part 1 1 7 progress.attempted := by
  obtain ⟨templates, hinitial, hstands⟩ := h.attempted
  exact .of_standsFor hstands (.of_isPrefix hinitial (part_assembleStatements request))

section

variable {progress : Progress} {failedStepId : String} {error : StepError}

theorem handleFailure_eq (hstopped : Stopped request progress)
    (hrecovery : RecoveryOf request workflow.sourceRecoveryStatements)
    (hpaused : (pausesSource failedStepId ||
      progress.completed.any fun s => pausesSource s.stepId) = true)
    (hcontained : RecoveryContained env (dueRecoveries workflow progress)) :
    handleFailure env workflow progress failedStepId error =
      { attempted := progress.attempted ++ dueRecoveries workflow progress
        completed := progress.completed
        relations := relationsAfterAll env (dueRecoveries workflow progress) progress.relations
        ending := .failed (progress.attempted ++ dueRecoveries workflow progress) failedStepId
          error.cause } := by
  have hrecover : recoverManagedSources env workflow progress failedStepId =
      ⟨dueRecoveries workflow progress,
        relationsAfterAll env (dueRecoveries workflow progress) progress.relations, none⟩ := by
    rw [recoverManagedSources, if_pos hpaused]
    exact recoverSources_of_contained [] hcontained
  have hpart : Part 1 1 8 (progress.attempted ++ dueRecoveries workflow progress) :=
    hstopped.part.append (part_pendingRecoveries hrecovery.finalization) (by omega) (by omega)
      (by omega) (by omega)
  simp only [handleFailure, hrecover, exactWorkflow, hpart.valid, if_true]

/-- A recovery is attempted once just if it is there and its activation is not completed. -/
theorem count_stepIds_recovery (hstopped : Stopped request progress)
    (hrecovery : RecoveryOf request workflow.sourceRecoveryStatements) {stepId : String}
    (hid : stepId ∈ (recoveryEntries request).map (·.1))
    (hnew : ∀ start ∈ stepStarts, ∀ rest, start ++ rest ≠ stepId) :
    (stepIds (progress.attempted ++ dueRecoveries workflow progress)).count stepId =
      if replaceFirst stepId "recover_" "activate_" ∈ stepIds progress.completed then 0 else 1 := by
  have htemplate : (stepIds progress.attempted).count stepId = 0 := by
    rw [count_eq_zero]
    intro hmem
    obtain ⟨start, hstart, hstarts⟩ := hstopped.startsAs hmem
    obtain ⟨rest, rfl⟩ := startsWith_iff.mp hstarts
    exact hnew start hstart rest rfl
  have hdue : stepIds (dueRecoveries workflow progress) =
      ((recoveryEntries request).map (·.1)).filter fun stepId =>
        replaceFirst stepId "recover_" "activate_" ∉ stepIds progress.completed := by
    rw [dueRecoveries, stepIds_pendingRecoveries, stepIds_recovery hrecovery]
  have hnodup : (stepIds (dueRecoveries workflow progress)).Nodup := by
    rw [hdue]
    exact nodup_recoveryIds.filter _
  have happend : stepIds (progress.attempted ++ dueRecoveries workflow progress) =
      stepIds progress.attempted ++ stepIds (dueRecoveries workflow progress) := map_append
  rw [happend, count_append, htemplate, hnodup.count, hdue, zero_add]
  by_cases hactivated : replaceFirst stepId "recover_" "activate_" ∈ stepIds progress.completed
  · rw [if_pos hactivated, if_neg]
    intro hmem
    exact absurd hactivated (of_decide_eq_true (mem_filter.mp hmem).2)
  · rw [if_neg hactivated, if_pos]
    exact mem_filter.mpr ⟨hid, decide_eq_true hactivated⟩

theorem append_ne_of_differ {text : String} (h : ∀ start ∈ stepStarts, differ start text = true)
    (rest : String) : ∀ start ∈ stepStarts, ∀ other, start ++ other ≠ text ++ rest := by
  intro start hstart other
  have hdiffer := h start hstart
  simp only [differ, Bool.and_eq_true, Bool.not_eq_true'] at hdiffer
  exact append_ne_append hdiffer.1 hdiffer.2 _ _

variable {s : WarehouseStatement}

theorem entry_of_mem_dueRecoveries
    (hrecovery : RecoveryOf request workflow.sourceRecoveryStatements)
    (h : s ∈ dueRecoveries workflow progress) :
    (s.stepId, s.sql) ∈ recoveryEntries request ∧ s.continueOnError = false ∧
      s.phase = .finalization := by
  obtain ⟨r, hr, -, heq⟩ := exists_of_mem_pendingRecoveries h
  rw [heq, ← hrecovery.entries]
  exact ⟨List.mem_map.mpr ⟨r, hr, rfl⟩, hrecovery.required r hr, hrecovery.finalization r hr⟩

theorem exists_mem_dueRecoveries (hrecovery : RecoveryOf request workflow.sourceRecoveryStatements)
    {stepId : String} (hid : stepId ∈ (recoveryEntries request).map (·.1))
    (hactivated : replaceFirst stepId "recover_" "activate_" ∉ stepIds progress.completed) :
    ∃ s ∈ dueRecoveries workflow progress, s.stepId = stepId := by
  have hmem : stepId ∈ stepIds (dueRecoveries workflow progress) := by
    rw [dueRecoveries, stepIds_pendingRecoveries, stepIds_recovery hrecovery]
    exact mem_filter.mpr ⟨hid, decide_eq_true hactivated⟩
  obtain ⟨s, hs, hsid⟩ := List.mem_map.mp hmem
  exact ⟨s, hs, hsid⟩

theorem keeps_landingView (progress : Progress)
    (hrecovery : RecoveryOf request workflow.sourceRecoveryStatements)
    (name : String) : ∀ s ∈ dueRecoveries workflow progress,
      s.sql ≠ .dropIfExists (landingMvName name) := by
  intro s hs hdrop
  have hentry := (entry_of_mem_dueRecoveries hrecovery hs).1
  rw [recoveryEntries, mem_append, List.mem_map, List.mem_map] at hentry
  rcases hentry with ⟨source, -, hentry⟩ | ⟨view, -, hentry⟩
  · have hsql := (Prod.mk.inj hentry).2.trans hdrop
    exact source.stagedRelationName_ne_landingMvName name (StatementSql.dropIfExists.inj hsql)
  · exact StatementSql.noConfusion ((Prod.mk.inj hentry).2.trans hdrop)

section

variable (hrecovery : RecoveryOf request workflow.sourceRecoveryStatements)

include hrecovery

theorem creates_not_staged (source : ManagedSource) : ∀ s ∈ dueRecoveries workflow progress,
      CreatesNot source.stagedRelationName s.sql := by
  intro s hs
  have hentry := (entry_of_mem_dueRecoveries hrecovery hs).1
  rw [recoveryEntries, mem_append, List.mem_map, List.mem_map] at hentry
  rcases hentry with ⟨other, -, hentry⟩ | ⟨view, hview, hentry⟩
  · rw [← (Prod.mk.inj hentry).2]
    exact ⟨StatementSql.noConfusion, StatementSql.noConfusion⟩
  · rw [← (Prod.mk.inj hentry).2]
    refine ⟨StatementSql.noConfusion, ?_⟩
    intro hcreate
    obtain ⟨landing, -, rfl⟩ := mem_pausedLandingViews.mp hview
    exact source.stagedRelationName_ne_landingMvName landing.name
      (StatementSql.createIfNotExists.inj hcreate).symm

theorem sql_of_recover_view {view : String} (hview : view ∈ pausedLandingViews request)
    (hs : s ∈ dueRecoveries workflow progress)
    (hid : s.stepId = "recover_source_" ++ stepSegment view) : s.sql = .createIfNotExists view := by
  have hentry := (entry_of_mem_dueRecoveries hrecovery hs).1
  rw [recoveryEntries, mem_append, List.mem_map, List.mem_map] at hentry
  rcases hentry with ⟨source, -, hentry⟩ | ⟨other, hother, hentry⟩
  · exact absurd ((Prod.mk.inj hentry).1.trans hid) (append_ne_append (by decide) (by decide) _ _)
  · obtain ⟨hotherId, hsql⟩ := Prod.mk.inj hentry
    have hsegment := append_right_injective _ (hotherId.trans hid)
    rw [stepSegment_of_mem hview, stepSegment_of_mem hother] at hsegment
    rw [← hsql, hsegment]

theorem sql_of_recover_staged {source : ManagedSource} (hs : s ∈ dueRecoveries workflow progress)
    (hid : s.stepId = "recover_staged_source_" ++ stepSegment (kafkaTableName source.name)) :
    s.sql = .dropIfExists source.stagedRelationName := by
  have hentry := (entry_of_mem_dueRecoveries hrecovery hs).1
  rw [recoveryEntries, mem_append, List.mem_map, List.mem_map] at hentry
  rcases hentry with ⟨other, -, hentry⟩ | ⟨view, hview, hentry⟩
  · obtain ⟨hotherId, hsql⟩ := Prod.mk.inj hentry
    have hsegment := append_right_injective _ (hotherId.trans hid)
    rw [other.stepSegment_kafkaTableName, source.stepSegment_kafkaTableName] at hsegment
    have hname : other.name = source.name := append_right_injective "kafka__" hsegment
    rw [← hsql, ManagedSource.stagedRelationName, ManagedSource.stagedRelationName, hname]
  · exact absurd ((Prod.mk.inj hentry).1.trans hid) (append_ne_append (by decide) (by decide) _ _)

end

theorem recovers_handleFailure (hstopped : Stopped request progress)
    (hrecovery : RecoveryOf request workflow.sourceRecoveryStatements)
    (hpaused : (pausesSource failedStepId ||
      progress.completed.any fun s => pausesSource s.stepId) = true)
    (hcontained : RecoveryContained env (dueRecoveries workflow progress)) :
    Recovers request env (handleFailure env workflow progress failedStepId error) := by
  rw [handleFailure_eq hstopped hrecovery hpaused hcontained]
  have hstarts : ∀ rest, "activate_staged_source_" ++ rest ∉ stepIds progress.completed := by
    intro rest hmem
    have hattempted := map_subset _ hstopped.completed hmem
    exact (hstopped.startsAs hattempted).ne_append (by decide) rest rfl
  have hexecuted : ∀ run : DirectRun,
      run.attempted = progress.attempted ++ dueRecoveries workflow progress →
        RecoverySucceeds env run → ∀ s ∈ dueRecoveries workflow progress,
          (runOf env s).executed = true := by
    intro run hattempted hsucceeds s hs
    obtain ⟨-, hrequired, hphase⟩ := entry_of_mem_dueRecoveries hrecovery hs
    obtain ⟨rows, hrows⟩ := hsucceeds s (hattempted ▸ List.mem_append_right _ hs) hphase
    exact executed_of_ok hrequired hrows
  refine ⟨⟨failedStepId, error.cause, rfl⟩, ?_, ?_, ?_, ?_⟩
  · intro view hview
    have hcount := count_stepIds_recovery hstopped hrecovery
      (mem_recoveryIds_of_view hview) (append_ne_of_differ (by decide) _)
    rw [replaceFirst_recover_view] at hcount
    exact hcount
  · intro source hsource
    have hcount := count_stepIds_recovery hstopped hrecovery
      (mem_recoveryIds_of_source hsource) (append_ne_of_differ (by decide) _)
    rw [replaceFirst_recover_staged, if_neg (hstarts _)] at hcount
    exact hcount
  · intro hsucceeds source hsource _
    have hview : landingMvName source.name ∈ pausedLandingViews request :=
      mem_pausedLandingViews.mpr ⟨source, hsource, rfl⟩
    have hkeeps := keeps_landingView progress hrecovery source.name
    by_cases hactivated : "activate_source_" ++ stepSegment (landingMvName source.name) ∈
        stepIds progress.completed
    · exact mem_relationsAfterAll (hstopped.attached _ hview hactivated) hkeeps
    · obtain ⟨s, hs, hid⟩ := exists_mem_dueRecoveries hrecovery
        (mem_recoveryIds_of_view hview) (by rw [replaceFirst_recover_view]; exact hactivated)
      exact mem_relationsAfterAll_of_create hs (hexecuted _ rfl hsucceeds s hs)
        (sql_of_recover_view hrecovery hview hs hid) hkeeps
  · intro hsucceeds source hsource
    obtain ⟨s, hs, hid⟩ := exists_mem_dueRecoveries hrecovery
      (mem_recoveryIds_of_source hsource) (by rw [replaceFirst_recover_staged]; exact hstarts _)
    exact notMem_relationsAfterAll_of_drop hs (hexecuted _ rfl hsucceeds s hs)
      (sql_of_recover_staged hrecovery hs hid) (creates_not_staged hrecovery source)

end

theorem paused_of_sourcePaused
    (hstep : executeStep env workflow progress template = (progress', failure))
    (hpaused : SourcePaused progress template) :
    (pausesSource template.stepId ||
      progress'.completed.any fun s => pausesSource s.stepId) = true := by
  rw [Bool.or_eq_true]
  rcases hpaused with htemplate | ⟨s, hs, hpauses⟩
  · exact .inl htemplate
  · refine .inr (any_eq_true.mpr ⟨s, ?_, hpauses⟩)
    rcases executeStep_cases hstep with ⟨error, -, -, rfl⟩ |
      ⟨statement, executed, -, -, -, -, hending⟩
    · exact hs
    · rcases hending with ⟨-, hcompleted⟩ | ⟨hcompleted, -⟩
      · rwa [hcompleted]
      · rw [hcompleted]
        exact List.mem_append_left _ hs

/-- A step that pauses a source is no replay, so it is attempted. -/
theorem ne_replay_of_pausesSource {stepId : String} (h : pausesSource stepId = true)
    (rest : String) : stepId ≠ "replay_" ++ rest := by
  obtain ⟨start, hstart, hid⟩ := any_eq_true.mp h
  have hstarts : StartsAs pausedSourceStepPrefixes stepId := ⟨start, hstart, hid⟩
  exact hstarts.ne_append (by decide) rest

theorem exists_attempted_of_sourcePaused (hfollows : Follows request passed progress)
    (hstep : executeStep env workflow progress template = (progress', failure))
    (hpaused : SourcePaused progress template) :
    ∃ s ∈ progress'.attempted, pausesSource s.stepId = true := by
  rcases executeStep_cases hstep with ⟨error, hprepared, -, rfl⟩ |
    ⟨statement, executed, hstands, -, hattempted, -, -⟩
  · rcases hpaused with htemplate | ⟨s, hs, hpauses⟩
    · rw [preparedStatement_of_ne (ne_replay_of_pausesSource htemplate)] at hprepared
      cases hprepared
    · rw [hfollows.completed] at hs
      exact ⟨s, hs, hpauses⟩
  · rw [hattempted]
    rcases hpaused with htemplate | ⟨s, hs, hpauses⟩
    · refine ⟨statement, by simp, ?_⟩
      rw [hstands.stepId]
      exact htemplate
    · rw [hfollows.completed] at hs
      exact ⟨s, List.mem_append_left _ hs, hpauses⟩

/-- A pause among the attempted statements has been tried before the failing step is over. -/
theorem sourcePaused_of_attempted (hfollows : Follows request passed progress)
    (hstep : executeStep env workflow progress template = (progress', failure))
    (hpaused : ∃ s ∈ progress'.attempted, pausesSource s.stepId = true) :
    SourcePaused progress template := by
  obtain ⟨s, hs, hpauses⟩ := hpaused
  rcases executeStep_cases hstep with ⟨error, -, -, rfl⟩ |
    ⟨statement, executed, hstands, -, hattempted, -, -⟩
  · exact .inr ⟨s, hfollows.completed ▸ hs, hpauses⟩
  · rw [hattempted] at hs
    rcases mem_append.mp hs with hs | hs
    · exact .inr ⟨s, hfollows.completed ▸ hs, hpauses⟩
    · obtain rfl := mem_singleton.mp hs
      rw [hstands.stepId] at hpauses
      exact .inl hpauses

/-- Whoever attempts a pause in a handled failure has paused a source before. -/
theorem sourcePaused_of_handleFailure {error : StepError}
    (hfollows : Follows request passed progress) (hstopped : Stopped request progress')
    (hstep : executeStep env workflow progress template = (progress', some error))
    (hpaused : ∃ s ∈ (handleFailure env workflow progress' template.stepId error).attempted,
      pausesSource s.stepId = true) : SourcePaused progress template := by
  cases hcheck : pausesSource template.stepId ||
      progress'.completed.any fun s => pausesSource s.stepId with
  | true =>
    rw [Bool.or_eq_true] at hcheck
    rcases hcheck with htemplate | hcompleted
    · exact .inl htemplate
    · obtain ⟨s, hs, hpauses⟩ := any_eq_true.mp hcompleted
      exact sourcePaused_of_attempted hfollows hstep ⟨s, hstopped.completed hs, hpauses⟩
  | false =>
    have hattempted : (handleFailure env workflow progress' template.stepId error).attempted =
        progress'.attempted := by
      simp [handleFailure, recoverManagedSources, hcheck]
    rw [hattempted] at hpaused
    exact sourcePaused_of_attempted hfollows hstep hpaused

theorem executeDirectBuildWorkflow_of_stop {relations : Finset String}
    {rest : List WarehouseStatement} {error : StepError} (hprepared : env.workflowPrepared = none)
    (hstatements : workflow.statements = passed ++ template :: rest)
    (hpassed : executeSteps env workflow passed ⟨[], [], [], relations⟩ = (progress, none))
    (hstep : executeStep env workflow progress template = (progress', some error)) :
    executeDirectBuildWorkflow env workflow relations =
      if error.caught then handleFailure env workflow progress' template.stepId error
      else
        { attempted := progress'.attempted
          completed := progress'.completed
          relations := progress'.relations
          ending := .escaped error.cause } := by
  rw [executeDirectBuildWorkflow, hprepared]
  dsimp only
  rw [hstatements, executeSteps_append hpassed, executeSteps, hstep]
  rfl

section

variable (hassemble : assembleDirectBuildWorkflow request = .ok workflow)

include hassemble

theorem restoresSources_of_contained (hcontained : Contained env workflow request.catalog) :
    RestoresSources request env (executeDirectBuildWorkflow env workflow request.catalog) := by
  obtain ⟨hstatements, hrecovery⟩ := assembled_of_ok hassemble
  intro hpaused hreturned
  cases hprepared : env.workflowPrepared with
  | some error =>
    rw [executeDirectBuildWorkflow, hprepared] at hpaused
    obtain ⟨s, hs, -⟩ := hpaused
    cases hs
  | none =>
    rcases hrun : executeSteps env workflow workflow.statements ⟨[], [], [], request.catalog⟩ with
      ⟨progress', failure⟩
    cases failure with
    | none =>
      have hwhole : workflow.statements <+: assembleStatements request :=
        hstatements ▸ prefix_refl _
      have hfollows := follows_executeSteps hwhole hrun
      have hpart : Part 1 1 7 progress'.attempted :=
        .of_standsFor hfollows.attempted (hstatements ▸ part_assembleStatements request)
      refine absurd ?_ (hreturned progress'.attempted)
      rw [executeDirectBuildWorkflow, hprepared]
      simp only [hrun, finishRun, exactWorkflow, hpart.valid, if_true]
    | some failed =>
      obtain ⟨stepId, error⟩ := failed
      obtain ⟨passed, template, rest, before, hsplit, hpassed, hstep, rfl⟩ :=
        executeSteps_stop hrun
      have hinitial : passed ++ [template] <+: assembleStatements request := by
        rw [← hstatements, hsplit]
        exact ⟨rest, by simp⟩
      have hfollows := follows_executeSteps ((prefix_append _ _).trans hinitial) hpassed
      have hstopped := stopped_of_step hfollows hinitial hstep
      have hnonempty : assembleStatements request ≠ [] := by
        rw [← hstatements, hsplit]
        simp
      rw [executeDirectBuildWorkflow_of_stop hprepared hsplit hpassed hstep] at hpaused ⊢
      cases hcaught : error.caught with
      | true =>
        rw [hcaught] at hpaused
        have hsource := sourcePaused_of_handleFailure hfollows hstopped hstep hpaused
        obtain ⟨-, hdue⟩ :=
          hcontained hprepared passed template rest before hsplit hpassed _ _ hstep hsource
        exact recovers_handleFailure hstopped (hrecovery hnonempty)
          (paused_of_sourcePaused hstep hsource) hdue
      | false =>
        rw [hcaught] at hpaused
        have hsource := sourcePaused_of_attempted hfollows hstep hpaused
        obtain ⟨hcaught', -⟩ :=
          hcontained hprepared passed template rest before hsplit hpassed _ _ hstep hsource
        rw [hcaught] at hcaught'
        cases hcaught'

theorem contained_of_restoresSources (hrestores : RestoresSources request env
      (executeDirectBuildWorkflow env workflow request.catalog)) :
    Contained env workflow request.catalog := by
  obtain ⟨hstatements, -⟩ := assembled_of_ok hassemble
  intro hprepared passed template rest before hsplit hpassed progress' error hstep hsource
  have hinitial : passed ++ [template] <+: assembleStatements request := by
    rw [← hstatements, hsplit]
    exact ⟨rest, by simp⟩
  have hfollows := follows_executeSteps ((prefix_append _ _).trans hinitial) hpassed
  obtain ⟨s, hs, hpauses⟩ := exists_attempted_of_sourcePaused hfollows hstep hsource
  rw [executeDirectBuildWorkflow_of_stop hprepared hsplit hpassed hstep] at hrestores
  cases hcaught : error.caught with
  | false =>
    rw [hcaught] at hrestores
    obtain ⟨failedStepId, cause, hending⟩ :=
      (hrestores ⟨s, hs, hpauses⟩ fun _ => DirectEnding.noConfusion).carried
    cases hending
  | true =>
    rw [hcaught, if_pos rfl] at hrestores
    have hreturned : ∀ statements,
        (handleFailure env workflow progress' template.stepId error).ending ≠
          .returned statements := by
      intro statements
      unfold handleFailure
      dsimp only
      split <;> exact DirectEnding.noConfusion
    obtain ⟨failedStepId, cause, hending⟩ :=
      (hrestores ⟨s, List.mem_append_left _ hs, hpauses⟩ hreturned).carried
    refine ⟨rfl, ?_⟩
    have hescaped : (recoverManagedSources env workflow progress' template.stepId).escaped =
        none := by
      unfold handleFailure at hending
      dsimp only at hending
      split at hending
      · cases hending
      · next hnone _ => exact hnone
      · next hnone _ => exact hnone
    rw [recoverManagedSources, if_pos (paused_of_sourcePaused hstep hsource)] at hescaped
    exact contained_of_recoverSources hescaped

end

/-- A failed build restores its sources just if every exception on the way is caught. -/
theorem restoresSources_iff (request : DirectBuildRequest) (env : Environment) :
    ∃ workflow, assembleDirectBuildWorkflow request = .ok workflow ∧
      (RestoresSources request env (executeDirectBuildWorkflow env workflow request.catalog) ↔
        Contained env workflow request.catalog) := by
  obtain ⟨workflow, hassemble⟩ := exists_assembleDirectBuildWorkflow request
  refine ⟨workflow, hassemble, ?_, ?_⟩
  · exact contained_of_restoresSources hassemble
  · exact restoresSources_of_contained hassemble

/-- A source that is kept, a model to rebuild, and its replay. -/
def ordersRequest : DirectBuildRequest where
  sources := [{ name := "orders", drifted := false, identifier := identifier_of_all (by decide) }]
  sources_nodup := by decide
  catalog := {"kafka__orders", "raw__orders", "mv__orders", "tbl__orders_summary"}
  executes := true
  stabilizes := true
  teardownOperations := ["tbl__orders_summary"]
  realizations := ["tbl__orders_summary"]
  runtimeReplays :=
    [{ modelName := "orders_summary"
       replay :=
        { mode := .offsets
          database := "analytics"
          relations :=
            { root := "orders_summary", source := "raw__orders", anchor := "raw__orders",
              target := "tbl__orders_summary" }
          replayQuery := { cteNames := [], visible := id, aggregateSemantics := false }
          columns :=
            { partition := "_kafka_partition", offset := "_kafka_offset", timestamp := "",
              landedAt := "", cursor := "" }
          window :=
            { lowerBoundMode := .none, lowerBoundInclusive := true, forcedStartTime := none,
              lookbackSeconds := none }
          seedMode := .none
          targetColumnNames := []
          filterBoundariesAtSource := true }
       inclusive := rfl
       anchor_named := by decide
       offset_named := by decide }]
  audits := []

/-- The emitter cannot persist the workflow with the realized replay, the seventh statement. -/
def failingAnnouncement : Environment where
  behaviour sequence :=
    if sequence = 7 then { workflowPrepared := some (.exception "statement persistence failed") }
    else {}

def DirectEnding.isFailed : DirectEnding → Bool
  | .failed _ _ _ => true
  | _ => false

def DirectEnding.isReturned : DirectEnding → Bool
  | .returned _ => true
  | _ => false

/-- The landing view is paused, and the exception leaves without a recovery. -/
theorem not_restoresSources :
    ¬ ∀ request env workflow, assembleDirectBuildWorkflow request = .ok workflow →
      RestoresSources request env
        (executeDirectBuildWorkflow env workflow request.catalog) := by
  intro hall
  obtain ⟨workflow, hassemble⟩ := exists_assembleDirectBuildWorkflow ordersRequest
  have hrun : ((assembleDirectBuildWorkflow ordersRequest).map fun workflow =>
      let run := executeDirectBuildWorkflow failingAnnouncement workflow ordersRequest.catalog
      (run.attempted.any fun s => pausesSource s.stepId, run.ending.isReturned,
        run.ending.isFailed)).toOption = some (true, false, false) := by
    decide +kernel
  rw [hassemble] at hrun
  simp only [Except.map, Except.toOption, Option.some.injEq, Prod.mk.injEq] at hrun
  obtain ⟨hpaused, hreturned, hfailed⟩ := hrun
  have hrecovers := hall ordersRequest failingAnnouncement workflow hassemble
    (any_eq_true.mp hpaused) (by
      intro statements hending
      rw [hending] at hreturned
      cases hreturned)
  obtain ⟨failedStepId, cause, hending⟩ := hrecovers.carried
  rw [hending] at hfailed
  cases hfailed

end SqlTide.Direct
