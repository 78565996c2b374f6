import SqlTide.Direct.SourceRecovery

/-!
# Completed steps

What a failing build has completed is the first part of its workflow. A replay among it says that
every model has been realized.
-/

namespace SqlTide.Direct

open Destruction (WorkflowPhase StatementIntent)
open Foundations Replay List

section
variable {request : DirectBuildRequest} {env : Environment} {workflow : DirectBuildWorkflow}

variable {progress : Progress} {s : WarehouseStatement} {segment : String}

theorem completed_of_step {passed : List WarehouseStatement} {template : WarehouseStatement}
    {progress' : Progress} {failure : Option StepError} (hfollows : Follows request passed progress)
    (hstep : executeStep env workflow progress template = (progress', failure)) :
    ∃ templates, templates <+: passed ++ [template] ∧
      stepIds progress'.completed = stepIds templates := by
  have hpassed : stepIds progress.completed = stepIds passed := by
    rw [hfollows.completed, stepIds_eq_of_standsFor hfollows.attempted]
  rcases executeStep_cases hstep with ⟨error, -, -, rfl⟩ |
    ⟨statement, executed, hstands, -, -, -, hending⟩
  · exact ⟨passed, prefix_append _ _, hpassed⟩
  · rcases hending with ⟨-, hcompleted⟩ | ⟨hcompleted, -⟩
    · exact ⟨passed, prefix_append _ _, by rw [hcompleted, hpassed]⟩
    · refine ⟨passed ++ [template], prefix_refl _, ?_⟩
      rw [hcompleted, stepIds, map_append, stepIds, map_append, map_singleton, hstands.stepId]
      exact congrArg (· ++ [template.stepId]) hpassed

theorem completed_finishRun {failure : Option (String × StepError)} :
    (finishRun env workflow (progress, failure)).completed = progress.completed := by
  cases failure with
  | none => rfl
  | some failed =>
    obtain ⟨stepId, error⟩ := failed
    rw [finishRun]
    split_ifs <;> rfl

theorem exists_completed_steps (hstatements : workflow.statements = assembleStatements request)
    (relations : Finset String) :
    ∃ templates, templates <+: assembleStatements request ∧
      stepIds (executeDirectBuildWorkflow env workflow relations).completed =
        stepIds templates := by
  rw [executeDirectBuildWorkflow]
  cases env.workflowPrepared with
  | some error => exact ⟨[], nil_prefix, rfl⟩
  | none =>
    dsimp only
    rcases hrun : executeSteps env workflow workflow.statements ⟨[], [], [], relations⟩ with
      ⟨progress, failure⟩
    rw [completed_finishRun]
    cases failure with
    | none =>
      have hwhole : workflow.statements <+: assembleStatements request := by
        rw [hstatements]
      have hfollows := follows_executeSteps hwhole hrun
      refine ⟨workflow.statements, hwhole, ?_⟩
      rw [hfollows.completed, stepIds_eq_of_standsFor hfollows.attempted]
    | some failed =>
      obtain ⟨stepId, error⟩ := failed
      obtain ⟨passed, template, rest, before, hsplit, hpassed, hstep, -⟩ := executeSteps_stop hrun
      have hinitial : passed ++ [template] <+: assembleStatements request := by
        rw [← hstatements, hsplit]
        exact ⟨rest, by simp⟩
      have hfollows := follows_executeSteps ((prefix_append _ _).trans hinitial) hpassed
      obtain ⟨templates, hprefix, hcompleted⟩ := completed_of_step hfollows hstep
      exact ⟨templates, hprefix.trans hinitial, hcompleted⟩

theorem phase_of_replay (h : s ∈ assembleStatements request)
    (hid : s.stepId = "replay_" ++ segment) : s.phase = .replay := by
  unfold assembleStatements at h
  split_ifs at h
  · cases h
  · simp only [mem_append] at h
    rcases h with (((((hprepare | hteardown) | hrealize) | hstabilize) | hreplay) | hactivate) |
      haudit
    · exact absurd hid ((startsAs_preparationStatements request hprepare).ne_append (by decide) _)
    · obtain ⟨entry, hentry, hentryId, -⟩ := mem_mutationStatements hteardown
      obtain ⟨relation, -, rfl⟩ := List.mem_map.mp hentry
      rw [hentryId] at hid
      exact absurd hid (append_ne_append (by decide) (by decide) _ _)
    · obtain ⟨entry, hentry, hentryId, -⟩ := mem_mutationStatements hrealize
      obtain ⟨relation, -, rfl⟩ := List.mem_map.mp hentry
      rw [hentryId] at hid
      exact absurd hid (append_ne_append (by decide) (by decide) _ _)
    · obtain rfl := mem_singleton.mp hstabilize
      have hwait : StartsAs ["wait_for_live_stabilization"] "wait_for_live_stabilization" :=
        ⟨_, mem_singleton.mpr rfl, startsWith_append "wait_for_live_stabilization" ""⟩
      exact absurd hid (hwait.ne_append (by decide) _)
    · obtain ⟨i, hi, rfl⟩ := mem_mapIdx.mp hreplay
      rfl
    · obtain ⟨i, hi, rfl⟩ := mem_mapIdx.mp hactivate
      rfl
    · have haudits : StartsAs ["audit_"] s.stepId :=
        ⟨_, mem_singleton.mpr rfl, (audit_of_mem request haudit).1⟩
      exact absurd hid (haudits.ne_append (by decide) _)

theorem realized_of_replayed (hstatements : workflow.statements = assembleStatements request)
    {relations : Finset String} (h : "replay_" ++ segment ∈
      stepIds (executeDirectBuildWorkflow env workflow relations).completed)
    (hs : s ∈ workflow.statements) (hphase : s.phase = .realization) :
    s.stepId ∈ stepIds (executeDirectBuildWorkflow env workflow relations).completed := by
  obtain ⟨templates, ⟨rest, hsplit⟩, hcompleted⟩ :=
    @exists_completed_steps request env workflow hstatements relations
  rw [hcompleted] at h ⊢
  obtain ⟨replay, hreplay, hid⟩ := List.mem_map.mp h
  have hmem : replay ∈ assembleStatements request := by
    rw [← hsplit]
    exact List.mem_append_left _ hreplay
  have hreplayPhase := phase_of_replay hmem hid
  rw [hstatements, ← hsplit, mem_append] at hs
  rcases hs with hs | hs
  · exact mem_map_of_mem hs
  · have hordered := (part_assembleStatements request).phases
    rw [← hsplit, pairwise_append] at hordered
    have hle := hordered.2.2 replay hreplay s hs
    rw [hreplayPhase, hphase] at hle
    simp [phaseIndex] at hle

end

end SqlTide.Direct
