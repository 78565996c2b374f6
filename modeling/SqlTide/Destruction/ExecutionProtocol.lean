import SqlTide.Destruction.Execution

/-!
# The protocol of an execution

Whatever the effects do, no statement runs before the plan is authorised under the
lock, and the release of the lock is the last effect. The record of the run accounts
for the statements that succeeded, unless a statement fails outside of the warehouse
after an earlier one succeeded, or an interruption hits a statement whose relation
is missing without it.
-/

namespace SqlTide.Destruction

open Foundations List

theorem stepNumber_dropStatement (limit : Option Int) (index : ℕ)
    (r : DestructionRelationEvidence) :
    stepNumber (dropStatement limit index r).stepId = some index := by
  simp [stepNumber, dropStatement, padIndex, Nat.ofDigitChars_append]

variable {r : DestructionRelationEvidence} {rest : List Step} {relations : Finset String}
  {attempt : Attempt} {after : List Event}

theorem mem_of_orderedRelations {plan : DestructionPlan}
    {ordered : List DestructionRelationEvidence} (h : orderedRelations plan = .ok ordered)
    (hr : r ∈ ordered) : r ∈ plan.relations := by
  obtain ⟨all, hall, rfl⟩ := map_eq_ok.mp h
  rw [reverseTopologicallyOrderRelations] at hall
  split at hall
  · cases hall
  · simp only at hall
    split_ifs at hall
    cases hall
    exact mem_of_mem_orderLoop (by simp) (mem_filter.mp hr).1

/-- Statements are numbered from one, and each drops a planned relation. -/
structure WorkflowOf (plan : DestructionPlan) (steps : List Step) : Prop where
  sequence : ∀ i step, steps[i]? = some step → step.1.sequence = i + 1
  number : ∀ i step, steps[i]? = some step → stepNumber step.1.stepId = some (i + 1)
  stops : ∀ step ∈ steps, step.1.continueOnError = false
  planned : ∀ step ∈ steps, step.2 ∈ plan.relations

variable {steps passed : List Step} {step : Step} {ending : Ending} {record : TerminalRecord}
  {log before : List Event} {i sequence : ℕ} {outcome : DropOutcome} {aborted : Aborted}

theorem workflowSteps_ok {plan : DestructionPlan}
    (h : workflowSteps plan = .ok steps) : WorkflowOf plan steps := by
  unfold workflowSteps at h
  rw [assembleDestructionWorkflow] at h
  cases hordered : orderedRelations plan with
  | error e =>
    rw [hordered] at h
    cases h
  | ok ordered =>
    rw [hordered] at h
    cases h
    have hstep : ∀ i step, ((ordered.mapIdx fun i r =>
        dropStatement plan.relationDropSizeOverride (i + 1) r).zip ordered)[i]? = some step →
        step.2 ∈ ordered ∧ step.1 = dropStatement plan.relationDropSizeOverride (i + 1) step.2 := by
      intro i step hi
      rw [getElem?_zip_eq_some, getElem?_mapIdx] at hi
      obtain ⟨hfirst, hsecond⟩ := hi
      rw [hsecond, Option.map_some, Option.some.injEq] at hfirst
      exact ⟨mem_of_getElem? hsecond, hfirst.symm⟩
    constructor
    · intro i step hi
      rw [(hstep i step hi).2]
      rfl
    · intro i step hi
      rw [(hstep i step hi).2]
      exact stepNumber_dropStatement _ _ _
    · intro step hmem
      obtain ⟨i, hi⟩ := mem_iff_getElem?.mp hmem
      rw [(hstep i step hi).2]
      rfl
    · intro step hmem
      obtain ⟨i, hi⟩ := mem_iff_getElem?.mp hmem
      exact mem_of_orderedRelations hordered (hstep i step hi).1

theorem WorkflowOf.findIdx?_stepId {plan : DestructionPlan}
    (h : WorkflowOf plan (passed ++ step :: rest)) :
    (passed ++ step :: rest).findIdx? (fun s => s.1.stepId = step.1.stepId) =
      some passed.length := by
  have hself : (passed ++ step :: rest)[passed.length]? = some step := by simp
  rw [findIdx?_eq_some_iff_getElem]
  refine ⟨by simp, by simp, ?_⟩
  intro j hj
  simp only [Bool.not_eq_true, decide_eq_false_iff_not]
  intro hsame
  have hjth : (passed ++ step :: rest)[j]? =
      some ((passed ++ step :: rest).get ⟨j, by simp; omega⟩) := by
    simp
  have hnumber := h.number j _ hjth
  rw [get_eq_getElem, hsame, h.number _ _ hself, Option.some.injEq] at hnumber
  omega

/-- The sequence of a statement that succeeded: it returned, or it was executed although it
was interrupted, and the catalog was read afterwards. -/
def Event.succeeds (reconciled : Bool) : Event → Option ℕ
  | .dropIssued sequence .done => some sequence
  | .dropIssued sequence (.interrupted _ true) => if reconciled then some sequence else none
  | _ => none

def succeededSequences (log : List Event) : List ℕ :=
  log.filterMap (Event.succeeds (decide (Event.reconciled ∈ log)))

/-- The statement runs through, and its progress is written. -/
def Passes (env : Environment) (step : Step) : Prop :=
  env.statementStarted step.1.sequence = none ∧
    env.executeWorkflowMutation step.1.sequence = .done ∧
    env.statementCompleted step.1.sequence = none

def droppedLog (passed : List Step) : List Event :=
  passed.map fun step => .dropIssued step.1.sequence .done

def relationNamesOf (steps : List Step) : Finset String := (steps.map (·.2.name)).toFinset

theorem filterMap_succeeds_droppedLog (reconciled : Bool) (passed : List Step) :
    (droppedLog passed).filterMap (Event.succeeds reconciled) = passed.map (·.1.sequence) := by
  simp [droppedLog, filterMap_map, Function.comp_def, Event.succeeds]

theorem reconciled_notMem_droppedLog (passed : List Step) :
    Event.reconciled ∉ droppedLog passed := by
  simp [droppedLog]

theorem succeededSequences_droppedLog_append (passed : List Step) (log : List Event) :
    succeededSequences (droppedLog passed ++ log) =
      passed.map (·.1.sequence) ++ succeededSequences log := by
  simp only [succeededSequences, filterMap_append, filterMap_succeeds_droppedLog,
    mem_append, reconciled_notMem_droppedLog, false_or]

variable {env : Environment} {plan : DestructionPlan}

/-- The loop runs over statements that pass without a trace but their drops. -/
theorem executeWarehouseWorkflow_append (hpassed : ∀ step ∈ passed, Passes env step)
    (rest : List Step) (results : List String) (relations : Finset String) :
    executeWarehouseWorkflow env (passed ++ rest) results relations =
      { executeWarehouseWorkflow env rest (results ++ passed.map (·.1.stepId))
          (relations \ relationNamesOf passed) with
        log := droppedLog passed ++ (executeWarehouseWorkflow env rest
          (results ++ passed.map (·.1.stepId)) (relations \ relationNamesOf passed)).log } := by
  induction passed generalizing results relations with
  | nil => simp [relationNamesOf, droppedLog]
  | cons step passed ih =>
    obtain ⟨hstarted, hdone, hcompleted⟩ := hpassed step (by simp)
    have hnames : relations.erase step.2.name \ relationNamesOf passed =
        relations \ relationNamesOf (step :: passed) := by
      ext n
      simp [relationNamesOf]
      tauto
    rw [cons_append, executeWarehouseWorkflow]
    simp only [hstarted, hdone, hcompleted]
    rw [ih fun s hs => hpassed s (mem_cons_of_mem _ hs), hnames]
    simp [WorkflowRun.prepend, droppedLog]

/-- Either all statements pass, or there is a first one that does not. -/
theorem exists_stop (env : Environment) (steps : List Step) :
    (∀ step ∈ steps, Passes env step) ∨
      ∃ passed step rest, steps = passed ++ step :: rest ∧ (∀ s ∈ passed, Passes env s) ∧
        ¬ Passes env step := by
  induction steps with
  | nil => simp
  | cons step steps ih =>
    by_cases hstep : Passes env step
    · rcases ih with hall | ⟨passed, stop, rest, rfl, hpassed, hstop⟩
      · left
        simpa [hstep] using hall
      · right
        exact ⟨step :: passed, stop, rest, rfl, by simpa [hstep] using hpassed, hstop⟩
    · right
      exact ⟨[], step, steps, rfl, by simp, hstep⟩

/-- The statement at which the run stops is accounted for: it does not fail outside of the
warehouse after others have succeeded, and an interruption that leaves it unexecuted does
not meet a missing relation. -/
structure StopsTruly (env : Environment) (passed : List Step) (step : Step) : Prop where
  failure : ∀ x, env.statementStarted step.1.sequence = none →
    env.executeWorkflowMutation step.1.sequence = .failed x →
    (∃ message, x = .adapterError message) ∨ passed = []
  interruption : (∃ message, env.statementStarted step.1.sequence =
        some (.keyboardInterrupt message)) ∨
      (env.statementStarted step.1.sequence = none ∧
        ∃ message, env.executeWorkflowMutation step.1.sequence = .interrupted message false) →
    env.recoveryCatalog = none → step.2.name ∈ env.relations \ relationNamesOf passed

/-- Every statement that the run can reach is accounted for. -/
def RunsTruly (env : Environment) (steps : List Step) : Prop :=
  ∀ passed step rest, steps = passed ++ step :: rest → (∀ s ∈ passed, Passes env s) →
    StopsTruly env passed step

theorem Passes.stopsTruly (h : Passes env step) (passed : List Step) :
    StopsTruly env passed step := by
  obtain ⟨hstarted, hdone, -⟩ := h
  constructor
  · intro x _ hfailed
    rw [hdone] at hfailed
    cases hfailed
  · rintro (⟨message, hinterrupt⟩ | ⟨-, message, hinterrupt⟩)
    · rw [hstarted] at hinterrupt
      cases hinterrupt
    · rw [hdone] at hinterrupt
      cases hinterrupt

theorem runsTruly_of_passes (h : ∀ step ∈ steps, Passes env step) : RunsTruly env steps := by
  rintro passed step rest rfl -
  exact (h step (by simp)).stopsTruly passed

/-- Only the first statement that does not pass decides. -/
theorem runsTruly_iff (hpassed : ∀ s ∈ passed, Passes env s) (hstop : ¬ Passes env step) :
    RunsTruly env (passed ++ step :: rest) ↔ StopsTruly env passed step := by
  constructor
  · intro h
    exact h passed step rest rfl hpassed
  · intro h passed' step' rest' hsplit hpassed'
    rcases append_eq_append_iff.mp hsplit with ⟨more, rfl, hmore⟩ | ⟨more, rfl, hmore⟩
    · cases more with
      | nil =>
        simp only [nil_append, List.cons.injEq] at hmore
        obtain ⟨rfl, -⟩ := hmore
        simpa using h
      | cons s more =>
        simp only [cons_append, List.cons.injEq] at hmore
        obtain ⟨rfl, -⟩ := hmore
        exact absurd (hpassed' step (by simp)) hstop
    · cases more with
      | nil =>
        simp only [nil_append, List.cons.injEq] at hmore
        obtain ⟨rfl, -⟩ := hmore
        simpa using h
      | cons s more =>
        simp only [cons_append, List.cons.injEq] at hmore
        obtain ⟨rfl, -⟩ := hmore
        exact (hpassed step' (by simp)).stopsTruly passed'

theorem mem_remainingRelations (hr : r ∈ plan.relations) :
    r.name ∈ remainingRelations plan relations ↔ r.name ∈ relations := by
  simp only [remainingRelations, mem_insertionSort, mem_filter, mem_map,
    decide_eq_true_eq, and_iff_right_iff_imp]
  intro _
  exact ⟨r, hr, rfl⟩

section Stop

variable {passed rest : List Step} {step : Step}

theorem WorkflowOf.recoverInterruptedDrop (h : WorkflowOf plan (passed ++ step :: rest))
    (results : List String) (relations : Finset String) :
    recoverInterruptedDrop env plan (passed ++ step :: rest) results step.1.stepId relations =
      match env.recoveryCatalog with
      | some e => (.error e, [])
      | none =>
        if step.2.name ∈ relations then (.ok results, [.reconciled])
        else if results.length ≠ passed.length then (.error misalignedDrop, [.reconciled])
        else (.ok (results ++ [step.1.stepId]), [.reconciled]) := by
  have hself : (passed ++ step :: rest)[passed.length]? = some step := by simp
  have hplanned := h.planned step (by simp)
  unfold Destruction.recoverInterruptedDrop
  cases env.recoveryCatalog with
  | some e => simp only [h.number _ _ hself, Nat.add_sub_cancel, hself]
  | none =>
    simp only [h.number _ _ hself, Nat.add_sub_cancel, hself, mem_remainingRelations hplanned,
      h.findIdx?_stepId]

theorem completedPrefix_passed :
    completedPrefix (passed ++ step :: rest) (passed.map (·.1.stepId)) = true := by
  simp [completedPrefix]

theorem completedPrefix_step :
    completedPrefix (passed ++ step :: rest)
      (passed.map (·.1.stepId) ++ [step.1.stepId]) = true := by
  have htake : (passed ++ step :: rest).take (passed.length + 1) = passed ++ [step] := by
    simp [take_append]
  simp [completedPrefix, htake]

/-- The results account for the statements that succeeded. -/
def Accounts (steps : List Step) (results : List String) (log : List Event) : Prop :=
  (steps.take results.length).map (·.1.sequence) = succeededSequences log

variable {log issued : List Event} {message : String} {x : PyException}

theorem accounts_passed :
    Accounts (passed ++ step :: rest) (passed.map (·.1.stepId)) (droppedLog passed ++ log) ↔
      succeededSequences log = [] := by
  simp [Accounts, succeededSequences_droppedLog_append]

theorem accounts_step :
    Accounts (passed ++ step :: rest) (passed.map (·.1.stepId) ++ [step.1.stepId])
      (droppedLog passed ++ log) ↔ succeededSequences log = [step.1.sequence] := by
  have htake : (passed ++ step :: rest).take (passed.length + 1) = passed ++ [step] := by
    simp [take_append]
  simp [Accounts, succeededSequences_droppedLog_append, htake, eq_comm]

theorem accounts_nil :
    Accounts (passed ++ step :: rest) [] (droppedLog passed ++ log) ↔
      passed = [] ∧ succeededSequences log = [] := by
  simp [Accounts, succeededSequences_droppedLog_append]

/-- What the handlers know after the loop, against what the log says. -/
structure AttemptSpec (env : Environment) (steps : List Step)
    (attempted : Except Raised Attempt × List Event) : Prop where
  known : ∀ attempt, attempted.1 = .ok attempt → completedPrefix steps attempt.results = true
  accounts : ∀ attempt, attempted.1 = .ok attempt →
    (Accounts steps attempt.results attempted.2 ↔ RunsTruly env steps)
  silent : ∀ e, attempted.1 = .error e → RunsTruly env steps
  drops : ∀ event ∈ attempted.2, event = .reconciled ∨
    ∃ sequence outcome, event = .dropIssued sequence outcome
  complete : ∀ attempt, attempted.1 = .ok attempt → attempt.errorMessage = none →
    ∀ step ∈ steps, Passes env step

theorem AttemptSpec.of_ok {attempt : Attempt}
    (hcompleted : completedPrefix steps attempt.results = true)
    (haccounts : Accounts steps attempt.results log ↔ RunsTruly env steps)
    (hdrops : ∀ event ∈ log, event = .reconciled ∨
      ∃ sequence outcome, event = .dropIssued sequence outcome)
    (hmessage : attempt.errorMessage ≠ none) : AttemptSpec env steps (.ok attempt, log) := by
  constructor
  · intro attempt' h
    cases h
    exact hcompleted
  · intro attempt' h
    cases h
    exact haccounts
  · intro e h
    cases h
  · exact hdrops
  · intro attempt' h hnone
    cases h
    exact absurd hnone hmessage

theorem AttemptSpec.of_error {e : Raised} (htruly : RunsTruly env steps)
    (hdrops : ∀ event ∈ log, event = .reconciled ∨
      ∃ sequence outcome, event = .dropIssued sequence outcome) :
    AttemptSpec env steps (.error e, log) := by
  constructor
  · intro attempt h
    cases h
  · intro attempt h
    cases h
  · intro _ _
    exact htruly
  · exact hdrops
  · intro attempt h
    cases h

theorem droppedLog_drops : ∀ event ∈ droppedLog passed, event = .reconciled ∨
    ∃ sequence outcome, event = .dropIssued sequence outcome := by
  intro event hevent
  obtain ⟨s, -, rfl⟩ := mem_map.mp hevent
  exact .inr ⟨_, _, rfl⟩

theorem issuedLog_drops
    (hissued : ∀ event ∈ issued, ∃ sequence outcome, event = .dropIssued sequence outcome) :
    ∀ event ∈ droppedLog passed ++ issued, event = .reconciled ∨
      ∃ sequence outcome, event = .dropIssued sequence outcome := by
  intro event hevent
  rcases mem_append.mp hevent with hdropped | hnew
  · exact droppedLog_drops event hdropped
  · exact .inr (hissued event hnew)

theorem issued_singleton :
    ∀ event ∈ [Event.dropIssued sequence outcome],
      ∃ sequence outcome, event = .dropIssued sequence outcome := by
  intro event hevent
  exact ⟨_, _, mem_singleton.mp hevent⟩

variable {results : List String} {relations : Finset String}

/-- The attempt after an interruption, by what the reconciliation finds. -/
theorem WorkflowOf.attemptSpec_interrupted (h : WorkflowOf plan (passed ++ step :: rest))
    (hcompleted : completedPrefix (passed ++ step :: rest) results = true)
    (hissued : ∀ event ∈ issued, ∃ sequence outcome, event = .dropIssued sequence outcome)
    (hsilent : ∀ m, env.recoveryCatalog = some (.keyboardInterrupt m) →
      RunsTruly env (passed ++ step :: rest))
    (hunread : ∀ x, env.recoveryCatalog = some (.exception x) →
      (Accounts (passed ++ step :: rest) results (droppedLog passed ++ issued) ↔
        RunsTruly env (passed ++ step :: rest))) (hkept : env.recoveryCatalog = none →
      step.2.name ∈ relations ∨ results.length ≠ passed.length →
      (Accounts (passed ++ step :: rest) results (droppedLog passed ++ (issued ++ [.reconciled])) ↔
        RunsTruly env (passed ++ step :: rest)))
    (hgone : env.recoveryCatalog = none → step.2.name ∉ relations →
      results.length = passed.length →
      completedPrefix (passed ++ step :: rest) (results ++ [step.1.stepId]) = true ∧
      (Accounts (passed ++ step :: rest) (results ++ [step.1.stepId])
        (droppedLog passed ++ (issued ++ [.reconciled])) ↔
          RunsTruly env (passed ++ step :: rest))) :
    AttemptSpec env (passed ++ step :: rest) (attemptOf env plan (passed ++ step :: rest)
      ⟨.failed step.1.stepId results (.keyboardInterrupt message), droppedLog passed ++ issued,
        relations⟩) := by
  have hbefore := @issuedLog_drops passed _ hissued
  have hafter : ∀ event ∈ droppedLog passed ++ (issued ++ [.reconciled]), event = .reconciled ∨
      ∃ sequence outcome, event = .dropIssued sequence outcome := by
    intro event hevent
    rw [← append_assoc] at hevent
    rcases mem_append.mp hevent with hold | hnew
    · exact hbefore event hold
    · exact .inl (mem_singleton.mp hnew)
  simp only [attemptOf, hcompleted, Bool.not_true, Bool.false_eq_true, if_false,
    h.recoverInterruptedDrop]
  cases hcatalog : env.recoveryCatalog with
  | some e =>
    cases e with
    | exception x =>
      simp only [append_nil]
      exact .of_ok hcompleted (hunread x hcatalog) hbefore (by simp)
    | keyboardInterrupt m =>
      simp only [append_nil]
      exact .of_error (hsilent m hcatalog) hbefore
  | none =>
    simp only
    by_cases hmem : step.2.name ∈ relations
    · simp only [hmem, if_true, append_assoc]
      exact .of_ok hcompleted (hkept hcatalog (.inl hmem)) hafter (by simp)
    · by_cases hlength : results.length = passed.length
      · simp only [hmem, hlength, ne_eq, not_true, if_false, append_assoc]
        obtain ⟨hnext, haccounts⟩ := hgone hcatalog hmem hlength
        exact .of_ok hnext haccounts hafter (by simp)
      · simp only [hmem, hlength, ne_eq, not_false_iff, if_true, if_false, append_assoc,
          misalignedDrop]
        exact .of_ok hcompleted (hkept hcatalog (.inr hlength)) hafter (by simp)

theorem attemptSpec_failed (hcompleted : completedPrefix (passed ++ step :: rest) results = true)
    (hissued : ∀ event ∈ issued, ∃ sequence outcome, event = .dropIssued sequence outcome)
    (haccounts : Accounts (passed ++ step :: rest) results (droppedLog passed ++ issued))
    (htruly : RunsTruly env (passed ++ step :: rest)) :
    AttemptSpec env (passed ++ step :: rest) (attemptOf env plan (passed ++ step :: rest)
      ⟨.failed step.1.stepId results (.exception x), droppedLog passed ++ issued, relations⟩) := by
  simp only [attemptOf, hcompleted, Bool.not_true, Bool.false_eq_true, if_false]
  exact .of_ok hcompleted (iff_of_true haccounts htruly) (issuedLog_drops hissued) (by simp)

theorem StopsTruly.of_harmless
    (hfailure : ∀ x, env.executeWorkflowMutation step.1.sequence = .failed x →
      env.statementStarted step.1.sequence = none → ∃ message, x = .adapterError message)
    (hstarted : ∀ message, env.statementStarted step.1.sequence ≠
      some (.keyboardInterrupt message))
    (hexecuted : ∀ message, env.statementStarted step.1.sequence = none →
      env.executeWorkflowMutation step.1.sequence ≠ .interrupted message false) :
    StopsTruly env passed step := by
  constructor
  · intro x hnone hfailed
    exact .inl (hfailure x hfailed hnone)
  · rintro (⟨message, hinterrupt⟩ | ⟨hnone, message, hinterrupt⟩)
    · exact absurd hinterrupt (hstarted message)
    · exact absurd hinterrupt (hexecuted message hnone)

theorem stopsTruly_iff_of_unexecuted
    (h : (∃ message, env.statementStarted step.1.sequence = some (.keyboardInterrupt message)) ∨
      (env.statementStarted step.1.sequence = none ∧
        ∃ message, env.executeWorkflowMutation step.1.sequence = .interrupted message false)) :
    StopsTruly env passed step ↔
      (env.recoveryCatalog = none → step.2.name ∈ env.relations \ relationNamesOf passed) := by
  constructor
  · intro htruly
    exact htruly.interruption h
  · intro hpresent
    constructor
    · intro x hnone hfailed
      rcases h with ⟨message, hinterrupt⟩ | ⟨-, message, hinterrupt⟩
      · rw [hnone] at hinterrupt
        cases hinterrupt
      · rw [hfailed] at hinterrupt
        cases hinterrupt
    · intro _
      exact hpresent

theorem WorkflowOf.attemptSpec_unexecuted (h : WorkflowOf plan (passed ++ step :: rest))
    (hpassed : ∀ s ∈ passed, Passes env s) (hstop : ¬ Passes env step)
    (hissued : issued = [] ∨ ∃ m, issued = [.dropIssued step.1.sequence (.interrupted m false)])
    (hunexecuted : (∃ message, env.statementStarted step.1.sequence =
        some (.keyboardInterrupt message)) ∨
      (env.statementStarted step.1.sequence = none ∧
        ∃ message, env.executeWorkflowMutation step.1.sequence = .interrupted message false)) :
    AttemptSpec env (passed ++ step :: rest) (attemptOf env plan (passed ++ step :: rest)
      ⟨.failed step.1.stepId (passed.map (·.1.stepId)) (.keyboardInterrupt message),
        droppedLog passed ++ issued, env.relations \ relationNamesOf passed⟩) := by
  have htruly : RunsTruly env (passed ++ step :: rest) ↔
      (env.recoveryCatalog = none → step.2.name ∈ env.relations \ relationNamesOf passed) := by
    rw [runsTruly_iff hpassed hstop, stopsTruly_iff_of_unexecuted hunexecuted]
  have hnone : ∀ log, log = issued ∨ log = issued ++ [.reconciled] →
      succeededSequences log = [] := by
    rintro log (rfl | rfl) <;> rcases hissued with rfl | ⟨m, rfl⟩ <;> rfl
  apply h.attemptSpec_interrupted completedPrefix_passed
  · intro event hevent
    rcases hissued with rfl | ⟨m, rfl⟩
    · cases hevent
    · exact ⟨_, _, mem_singleton.mp hevent⟩
  · intro m hcatalog
    rw [htruly, hcatalog]
    simp
  · intro x hcatalog
    rw [accounts_passed, hnone _ (.inl rfl), htruly, hcatalog]
    simp
  · intro hcatalog hkept
    rw [accounts_passed, hnone _ (.inr rfl), htruly]
    simpa [hcatalog] using hkept
  · intro hcatalog hgone _
    refine ⟨completedPrefix_step, ?_⟩
    rw [accounts_step, hnone _ (.inr rfl), htruly]
    simp [hcatalog, hgone]

theorem WorkflowOf.attemptSpec_executed (h : WorkflowOf plan (passed ++ step :: rest))
    (htruly : RunsTruly env (passed ++ step :: rest)) :
    AttemptSpec env (passed ++ step :: rest) (attemptOf env plan (passed ++ step :: rest)
      ⟨.failed step.1.stepId (passed.map (·.1.stepId)) (.keyboardInterrupt message),
        droppedLog passed ++ [.dropIssued step.1.sequence (.interrupted message true)],
        (env.relations \ relationNamesOf passed).erase step.2.name⟩) := by
  apply h.attemptSpec_interrupted completedPrefix_passed issued_singleton
  · intro _ _
    exact htruly
  · intro x _
    exact iff_of_true (accounts_passed.mpr rfl) htruly
  · intro _ hkept
    simp at hkept
  · intro _ _ _
    exact ⟨completedPrefix_step, iff_of_true (accounts_step.mpr rfl) htruly⟩

/-- A failure outside of the warehouse adapter leaves an empty execution. -/
theorem attemptSpec_outside (hpassed : ∀ s ∈ passed, Passes env s) (hstop : ¬ Passes env step)
    (hstarted : env.statementStarted step.1.sequence = none)
    (hmutation : env.executeWorkflowMutation step.1.sequence = .failed x)
    (hother : ∀ message, x ≠ .adapterError message) :
    AttemptSpec env (passed ++ step :: rest)
      (.ok ⟨[], some x.message, some "warehouse_execution", none⟩,
        droppedLog passed ++ [.dropIssued step.1.sequence (.failed x)]) := by
  have haccounts : Accounts (passed ++ step :: rest) []
      (droppedLog passed ++ [.dropIssued step.1.sequence (.failed x)]) ↔
        RunsTruly env (passed ++ step :: rest) := by
    rw [accounts_nil, runsTruly_iff hpassed hstop]
    constructor
    · rintro ⟨rfl, -⟩
      constructor
      · intro _ _ _
        exact .inr rfl
      · simp [hstarted, hmutation]
    · intro htruly
      rcases htruly.failure x hstarted hmutation with ⟨message, hx⟩ | hempty
      · exact absurd hx (hother message)
      · exact ⟨hempty, rfl⟩
  exact .of_ok (by simp [completedPrefix]) haccounts (issuedLog_drops issued_singleton) (by simp)

variable (h : WorkflowOf plan (passed ++ step :: rest)) (hpassed : ∀ s ∈ passed, Passes env s)
  (hstop : ¬ Passes env step)

include h hpassed hstop

theorem WorkflowOf.attemptSpec_mutationFailed
    (hstarted : env.statementStarted step.1.sequence = none)
    (hmutation : env.executeWorkflowMutation step.1.sequence = .failed x) :
    AttemptSpec env (passed ++ step :: rest) (attemptOf env plan (passed ++ step :: rest)
      (executeWarehouseWorkflow env (passed ++ step :: rest) [] env.relations)) := by
  have hcontinue := h.stops step (by simp)
  rw [executeWarehouseWorkflow_append hpassed, executeWarehouseWorkflow]
  simp only [nil_append, hstarted, hmutation]
  cases x with
  | adapterError message =>
    have htruly : RunsTruly env (passed ++ step :: rest) := by
      apply (runsTruly_iff hpassed hstop).mpr
      apply StopsTruly.of_harmless <;> simp [hstarted, hmutation]
    cases hcompleted : env.statementCompleted step.1.sequence with
    | none =>
      simp only [hcontinue, Bool.false_eq_true, if_false]
      exact attemptSpec_failed completedPrefix_passed issued_singleton (accounts_passed.mpr rfl)
        htruly
    | some e =>
      cases e with
      | exception y =>
        exact attemptSpec_failed completedPrefix_passed issued_singleton (accounts_passed.mpr rfl)
          htruly
      | keyboardInterrupt m => exact .of_error htruly (issuedLog_drops issued_singleton)
  | destructionError error =>
    exact attemptSpec_outside hpassed hstop hstarted hmutation (by simp)
  | other message => exact attemptSpec_outside hpassed hstop hstarted hmutation (by simp)

/-- The attempt when the run stops after the mutation of the step was done. -/
theorem WorkflowOf.attemptSpec_done (hstarted : env.statementStarted step.1.sequence = none)
    (hmutation : env.executeWorkflowMutation step.1.sequence = .done) :
    AttemptSpec env (passed ++ step :: rest) (attemptOf env plan (passed ++ step :: rest)
      (executeWarehouseWorkflow env (passed ++ step :: rest) [] env.relations)) := by
  have htruly : RunsTruly env (passed ++ step :: rest) := by
    apply (runsTruly_iff hpassed hstop).mpr
    apply StopsTruly.of_harmless <;> simp [hstarted, hmutation]
  rw [executeWarehouseWorkflow_append hpassed, executeWarehouseWorkflow]
  simp only [nil_append, hstarted, hmutation]
  cases hcompleted : env.statementCompleted step.1.sequence with
  | none => exact absurd ⟨hstarted, hmutation, hcompleted⟩ hstop
  | some e =>
    cases e with
    | exception y =>
      exact attemptSpec_failed completedPrefix_step issued_singleton (accounts_step.mpr rfl) htruly
    | keyboardInterrupt m =>
      apply h.attemptSpec_interrupted completedPrefix_step issued_singleton
      · intro _ _
        exact htruly
      · intro x _
        exact iff_of_true (accounts_step.mpr rfl) htruly
      · intro _ _
        exact iff_of_true (accounts_step.mpr rfl) htruly
      · intro _ _ hlength
        simp at hlength

theorem WorkflowOf.attemptSpec_stop :
    AttemptSpec env (passed ++ step :: rest) (attemptOf env plan (passed ++ step :: rest)
      (executeWarehouseWorkflow env (passed ++ step :: rest) [] env.relations)) := by
  have hharmless : StopsTruly env passed step → RunsTruly env (passed ++ step :: rest) :=
    (runsTruly_iff hpassed hstop).mpr
  cases hstarted : env.statementStarted step.1.sequence with
  | some e =>
    rw [executeWarehouseWorkflow_append hpassed, executeWarehouseWorkflow]
    simp only [nil_append, hstarted]
    cases e with
    | exception x =>
      apply attemptSpec_failed completedPrefix_passed (by simp)
      · exact accounts_passed.mpr rfl
      · apply hharmless
        apply StopsTruly.of_harmless <;> simp [hstarted]
    | keyboardInterrupt message =>
      exact h.attemptSpec_unexecuted hpassed hstop (.inl rfl) (.inl ⟨message, hstarted⟩)
  | none =>
    cases hmutation : env.executeWorkflowMutation step.1.sequence with
    | interrupted message executed =>
      rw [executeWarehouseWorkflow_append hpassed, executeWarehouseWorkflow]
      simp only [nil_append, hstarted, hmutation]
      cases executed with
      | false =>
        exact h.attemptSpec_unexecuted hpassed hstop (.inr ⟨message, rfl⟩)
          (.inr ⟨hstarted, message, hmutation⟩)
      | true =>
        apply h.attemptSpec_executed
        apply hharmless
        apply StopsTruly.of_harmless <;> simp [hstarted, hmutation]
    | failed x => exact h.attemptSpec_mutationFailed hpassed hstop hstarted hmutation
    | done => exact h.attemptSpec_done hpassed hstop hstarted hmutation

end Stop

theorem executeWarehouseWorkflow_passes (h : ∀ step ∈ steps, Passes env step) :
    executeWarehouseWorkflow env steps [] env.relations =
      ⟨.completed (steps.map (·.1.stepId)), droppedLog steps,
        env.relations \ relationNamesOf steps⟩ := by
  have happend := executeWarehouseWorkflow_append h [] [] env.relations
  simpa [executeWarehouseWorkflow] using happend

theorem WorkflowOf.attemptSpec (h : WorkflowOf plan steps) (env : Environment) :
    AttemptSpec env steps (attemptOf env plan steps
      (executeWarehouseWorkflow env steps [] env.relations)) := by
  rcases exists_stop env steps with hall | ⟨passed, step, rest, rfl, hpassed, hstop⟩
  · rw [executeWarehouseWorkflow_passes hall, attemptOf]
    have htruly := runsTruly_of_passes hall
    have hsucceeded : succeededSequences (droppedLog steps) = steps.map (·.1.sequence) := by
      have happend := succeededSequences_droppedLog_append steps []
      simpa [succeededSequences] using happend
    constructor
    · intro attempt hattempt
      cases hattempt
      simp [completedPrefix]
    · intro attempt hattempt
      cases hattempt
      simp [Accounts, hsucceeded, htruly]
    · intro _ _
      exact htruly
    · exact droppedLog_drops
    · intro _ _ _
      exact hall
  · exact h.attemptSpec_stop hpassed hstop

/-- What a record says about the ending that it is the record of. -/
structure RecordOf (steps : List Step) (ending : Ending) (record : TerminalRecord) : Prop where
  completed : record.completedSequences =
    (steps.take ending.results.length).map (·.1.sequence)
  pending : record.pendingSequences = (steps.drop ending.results.length).map (·.1.sequence)
  success : record.outcome = .succeeded → ending.errorMessage = none ∧
    ending.residualCatalogStatus = .observed ∧ ending.remaining = some []

theorem terminalRecord_recordOf (steps : List Step) (ending : Ending) :
    RecordOf steps ending (terminalRecord steps ending) := by
  refine ⟨rfl, rfl, ?_⟩
  intro h
  simp only [terminalRecord] at h
  split_ifs at h with hsucceeded
  exact ⟨hsucceeded.1, hsucceeded.2.1, hsucceeded.2.2.1⟩

theorem RecordOf.withRunCompletedError (h : RecordOf steps ending record) (message : String) :
    RecordOf steps ending (record.withRunCompletedError message) := by
  refine ⟨h.completed, h.pending, ?_⟩
  intro hsucceeded
  cases hsucceeded

theorem writeTerminal_events :
    ∀ event ∈ (writeTerminal env record).2, event = .recorded record := by
  unfold writeTerminal
  split
  · simp
  · simp
  · split_ifs
    · simp
    · split <;> simp

theorem recordTerminal_events :
    ∀ event ∈ (recordTerminal env steps ending).2,
      ∃ record, event = .recorded record ∧ RecordOf steps ending record := by
  have hrecord := terminalRecord_recordOf steps ending
  intro event hevent
  unfold recordTerminal at hevent
  split_ifs at hevent
  · cases hevent
  · split at hevent
    · exact ⟨_, mem_singleton.mp hevent, hrecord⟩
    · rcases mem_cons.mp hevent with hfirst | hwritten
      · exact ⟨_, hfirst, hrecord⟩
      · exact ⟨_, writeTerminal_events event hwritten, hrecord.withRunCompletedError _⟩
    · rcases mem_cons.mp hevent with hfirst | hwritten
      · exact ⟨_, hfirst, hrecord⟩
      · exact ⟨_, writeTerminal_events event hwritten, hrecord⟩

theorem recordTerminal_records (h : completedPrefix steps ending.results = true) :
    .recorded (terminalRecord steps ending) ∈ (recordTerminal env steps ending).2 := by
  simp only [recordTerminal, h, Bool.not_true, Bool.false_eq_true, if_false]
  split <;> simp

theorem residualEnding_ok (h : residualEnding env plan relations attempt = .ok ending) :
    ending.results = attempt.results ∧ (ending.errorMessage = none → attempt.errorMessage = none) ∧
      (ending.residualCatalogStatus = .observed →
        ending.remaining = some (remainingRelations plan relations)) := by
  unfold residualEnding at h
  split at h
  · cases h
  · cases h
    refine ⟨rfl, ?_, ?_⟩
    · intro hnone
      split at hnone <;> cases hnone
    · intro hobserved
      cases hobserved
  · cases h
    refine ⟨rfl, ?_, ?_⟩
    · intro hnone
      simp only at hnone
      split_ifs at hnone
      exact hnone
    · intro _
      rfl

/-- Events that say nothing about statements. -/
def Quiet (log : List Event) : Prop :=
  ∀ event ∈ log, event ≠ .reconciled ∧ ∀ sequence outcome, event ≠ .dropIssued sequence outcome

theorem Quiet.append {log' : List Event} (h : Quiet log) (h' : Quiet log') :
    Quiet (log ++ log') := by
  intro event hevent
  rcases mem_append.mp hevent with hevent | hevent
  · exact h event hevent
  · exact h' event hevent

theorem Quiet.filterMap_succeeds (h : Quiet log) (reconciled : Bool) :
    log.filterMap (Event.succeeds reconciled) = [] := by
  rw [filterMap_eq_nil_iff]
  intro event hevent
  obtain ⟨-, hdrop⟩ := h event hevent
  cases event with
  | dropIssued sequence outcome => exact absurd rfl (hdrop sequence outcome)
  | _ => rfl

theorem Quiet.succeededSequences (h : Quiet log) :
    succeededSequences log = [] := h.filterMap_succeeds _

theorem Quiet.succeededSequences_append (h : Quiet before) (h' : Quiet after) (log : List Event) :
    Destruction.succeededSequences (before ++ log ++ after) =
      Destruction.succeededSequences log := by
  have hbefore : Event.reconciled ∉ before := fun hmem => (h _ hmem).1 rfl
  have hafter : Event.reconciled ∉ after := fun hmem => (h' _ hmem).1 rfl
  simp only [Destruction.succeededSequences, filterMap_append, h.filterMap_succeeds,
    h'.filterMap_succeeds, mem_append, hbefore, hafter, false_or, or_false, nil_append, append_nil]

theorem recordTerminal_quiet (env : Environment) (steps : List Step) (ending : Ending) :
    Quiet (recordTerminal env steps ending).2 := by
  intro event hevent
  obtain ⟨record, rfl, -⟩ := recordTerminal_events event hevent
  simp

/-- What the log of a dispatched run says. -/
structure RecordedSpec (env : Environment) (plan : DestructionPlan) (steps : List Step)
    (log : List Event) : Prop where
  accounts : ∀ record, .recorded record ∈ log →
    (record.completedSequences = succeededSequences log ↔ RunsTruly env steps)
  partition : ∀ record, .recorded record ∈ log →
    record.completedSequences ++ record.pendingSequences = steps.map (·.1.sequence)
  success : ∀ record, .recorded record ∈ log → record.outcome = .succeeded →
    (∀ step ∈ steps, .dropIssued step.1.sequence .done ∈ log) ∧
      ∀ r ∈ plan.relations, r.name ∉ env.relations \ relationNamesOf steps
  recorded : (∀ m, env.residualCatalog ≠ some (.keyboardInterrupt m)) → ¬ RunsTruly env steps →
    ∃ record, .recorded record ∈ log
  observed : ∀ record, .recorded record ∈ log →
    ∀ m, env.residualCatalog ≠ some (.keyboardInterrupt m)

theorem RecordedSpec.of_silent (hlog : ∀ record, .recorded record ∉ log)
    (htruly : (∀ m, env.residualCatalog ≠ some (.keyboardInterrupt m)) → RunsTruly env steps) :
    RecordedSpec env plan steps log := by
  constructor
  · intro record hrecord
    exact absurd hrecord (hlog record)
  · intro record hrecord
    exact absurd hrecord (hlog record)
  · intro record hrecord
    exact absurd hrecord (hlog record)
  · intro hresidual hnot
    exact absurd (htruly hresidual) hnot
  · intro record hrecord
    exact absurd hrecord (hlog record)

theorem AttemptSpec.not_recorded
    {attempted : Except Raised Attempt × List Event} (h : AttemptSpec env steps attempted)
    (record : TerminalRecord) : .recorded record ∉ attempted.2 := by
  intro hrecord
  rcases h.drops _ hrecord with hevent | ⟨sequence, outcome, hevent⟩ <;> cases hevent

theorem RecordedSpec.of_recorded (h : WorkflowOf plan steps) (hattempt : (attemptOf env plan steps
      (executeWarehouseWorkflow env steps [] env.relations)).1 = .ok attempt)
    (hending : residualEnding env plan
      (executeWarehouseWorkflow env steps [] env.relations).relations attempt = .ok ending) :
    RecordedSpec env plan steps ((attemptOf env plan steps
      (executeWarehouseWorkflow env steps [] env.relations)).2 ++
        (recordTerminal env steps ending).2) := by
  have hspec := h.attemptSpec env
  obtain ⟨hresults, hmessage, hremaining⟩ := residualEnding_ok hending
  have hcompleted : completedPrefix steps ending.results = true :=
    hresults ▸ hspec.known attempt hattempt
  have hnothing : Quiet [] := by simp [Quiet]
  have hsucceeded := hnothing.succeededSequences_append (recordTerminal_quiet env steps ending)
  simp only [nil_append] at hsucceeded
  have hrecord : ∀ record, .recorded record ∈ (attemptOf env plan steps
      (executeWarehouseWorkflow env steps [] env.relations)).2 ++
        (recordTerminal env steps ending).2 → RecordOf steps ending record := by
    intro record hmem
    rcases mem_append.mp hmem with hattempted | hrecorded
    · exact absurd hattempted (hspec.not_recorded record)
    · obtain ⟨record', hsame, hof⟩ := recordTerminal_events _ hrecorded
      cases hsame
      exact hof
  constructor
  · intro record hmem
    rw [(hrecord record hmem).completed, hsucceeded, hresults]
    exact hspec.accounts attempt hattempt
  · intro record hmem
    rw [(hrecord record hmem).completed, (hrecord record hmem).pending, ← map_append,
      take_append_drop]
  · intro record hmem hsuccess
    obtain ⟨hnone, hobserved, hempty⟩ := (hrecord record hmem).success hsuccess
    have hall := hspec.complete attempt hattempt (hmessage hnone)
    rw [executeWarehouseWorkflow_passes hall] at hremaining ⊢
    constructor
    · intro step hstep
      apply mem_append_left
      exact mem_map.mpr ⟨step, hstep, rfl⟩
    · intro r hr hname
      rw [hremaining hobserved, Option.some.injEq] at hempty
      have hmem := (mem_remainingRelations hr).mpr hname
      rw [hempty] at hmem
      cases hmem
  · intro _ _
    exact ⟨_, mem_append_right _ (recordTerminal_records hcompleted)⟩
  · intro _ _ m hinterrupt
    simp [residualEnding, hinterrupt] at hending

theorem WorkflowOf.recordedSpec (h : WorkflowOf plan steps) (env : Environment) :
    RecordedSpec env plan steps (executeRecordedPlan env plan steps).2 := by
  have hspec := h.attemptSpec env
  unfold executeRecordedPlan
  simp only
  cases hattempt : (attemptOf env plan steps
      (executeWarehouseWorkflow env steps [] env.relations)).1 with
  | error e => exact .of_silent hspec.not_recorded fun _ => hspec.silent e hattempt
  | ok attempt =>
    simp only [hspec.known attempt hattempt, Bool.not_true, Bool.false_eq_true, if_false]
    cases hending : residualEnding env plan
        (executeWarehouseWorkflow env steps [] env.relations).relations attempt with
    | error e =>
      apply RecordedSpec.of_silent hspec.not_recorded
      intro hresidual
      unfold residualEnding at hending
      split at hending
      · rename_i message hinterrupt
        exact absurd hinterrupt (hresidual message)
      · cases hending
      · cases hending
    | ok ending =>
      simp only
      split
      · exact .of_recorded h hattempt hending
      · exact .of_recorded h hattempt hending

theorem executeRecordedPlan_nil (env : Environment) (plan : DestructionPlan) :
    Quiet (executeRecordedPlan env plan []).2 := by
  have hnothing : Quiet [] := by simp [Quiet]
  unfold executeRecordedPlan
  simp only [executeWarehouseWorkflow, attemptOf]
  split_ifs
  · exact hnothing
  · split
    · exact hnothing
    · simp only [nil_append]
      split
      · exact recordTerminal_quiet _ _ _
      · exact recordTerminal_quiet _ _ _

variable {c : Confirmation}

/-- The effects of a call come in order, the lock is released last, and the records
account for the statements. -/
structure ExecutionProtocol (env : Environment) (c : Confirmation) (log : List Event) :
    Prop where
  authorised : ∀ i sequence outcome, log[i]? = some (.dropIssued sequence outcome) →
    [.workflowPersisted, .lockAcquired, .driftVerified,
      .planConsumed c.frozenPlan.planId c.actorId].Sublist (log.take i)
  released : .lockAcquired ∈ log → ∃ earlier, log = earlier ++ [.releaseAttempted]
  accounted : ∀ steps, workflowSteps c.frozenPlan = .ok steps →
    ∀ record, .recorded record ∈ log → record.completedSequences = succeededSequences log ∧
      record.completedSequences ++ record.pendingSequences = steps.map (·.1.sequence)
  succeeded : ∀ steps, workflowSteps c.frozenPlan = .ok steps →
    ∀ record, .recorded record ∈ log → record.outcome = .succeeded →
      (∀ step ∈ steps, .dropIssued step.1.sequence .done ∈ log) ∧
        ∀ r ∈ c.frozenPlan.relations, r.name ∉ env.relations \ relationNamesOf steps

/-- The effects account for every statement that the call can reach, if it gets as far as
recording its end. -/
def TruthfulEffects (env : Environment) (c : Confirmation) : Prop :=
  ∀ steps, env.initializeObservability = none → workflowSteps c.frozenPlan = .ok steps →
    (announce env steps).1 = .ok () → (authorise env c).1 = .ok () →
    (∀ m, env.residualCatalog ≠ some (.keyboardInterrupt m)) → RunsTruly env steps

theorem Quiet.notMem_drop (h : Quiet log) : log[i]? ≠ some (.dropIssued sequence outcome) := by
  intro hi
  exact (h _ (mem_of_getElem? hi)).2 sequence outcome rfl

/-- What stands in a quiet log comes before every statement of the rest. -/
theorem Quiet.sublist_take {wanted : List Event} (h : Quiet before)
    (hwanted : wanted.Sublist before)
    (hi : (before ++ log)[i]? = some (.dropIssued sequence outcome)) :
    wanted.Sublist ((before ++ log).take i) := by
  have hlength : before.length ≤ i := by
    by_contra hshort
    rw [getElem?_append_left (by omega)] at hi
    exact h.notMem_drop hi
  rw [take_append, take_of_length_le hlength]
  exact hwanted.trans (sublist_append_left _ _)

theorem announce_ok (h : (announce env steps).1 = .ok ()) :
    (announce env steps).2 =
      .runStarted :: (if steps = [] then [] else [.workflowPersisted]) ++ [.lockAcquired] := by
  unfold announce at h ⊢
  cases hstarted : env.runStarted with
  | some e => simp [hstarted] at h
  | none =>
    simp only [hstarted] at h ⊢
    cases hprepared : (if steps = [] then none else env.workflowPrepared) with
    | some e => simp [hprepared] at h
    | none =>
      simp only [hprepared] at h ⊢
      cases hlock : env.acquireTargetMutationLock with
      | some e => simp [hlock] at h
      | none => rfl

theorem announce_stages (h : (announce env steps).1 = .ok ()) :
    ∀ event ∈ (announce env steps).2,
      event = .runStarted ∨ event = .workflowPersisted ∨ event = .lockAcquired := by
  rw [announce_ok h]
  split_ifs <;> simp

theorem announce_error (h : (announce env steps).1 = .error aborted) :
    ∀ event ∈ (announce env steps).2, event = .runStarted ∨ event = .workflowPersisted := by
  unfold announce at h ⊢
  cases hstarted : env.runStarted with
  | some e => simp
  | none =>
    simp only [hstarted] at h ⊢
    cases hprepared : (if steps = [] then none else env.workflowPrepared) with
    | some e => simp
    | none =>
      simp only [hprepared] at h ⊢
      cases hlock : env.acquireTargetMutationLock with
      | some e => cases steps <;> simp
      | none => simp [hlock] at h

theorem authorise_ok (h : (authorise env c).1 = .ok ()) :
    (authorise env c).2 = [.driftVerified, .planConsumed c.frozenPlan.planId c.actorId] := by
  unfold authorise at h ⊢
  split at h
  · cases h
  · split at h
    · cases h
    · split_ifs at h ⊢
      rfl

theorem authorise_error (h : (authorise env c).1 = .error aborted) :
    ∀ event ∈ (authorise env c).2, event = .driftVerified ∨
      event = .planConsumed c.frozenPlan.planId c.actorId := by
  unfold authorise at h ⊢
  split at h
  · simp
  · split at h
    · simp
    · split_ifs at h ⊢
      simp

/-- A run that is given up before its first statement records that nothing was done. -/
theorem recordAborted_events :
    ∀ event ∈ (recordAborted env plan steps aborted).2, ∃ record, event = .recorded record ∧
      record.completedSequences = [] ∧ record.pendingSequences = steps.map (·.1.sequence) ∧
      record.outcome ≠ .succeeded := by
  intro event hevent
  unfold recordAborted at hevent
  split_ifs at hevent
  · cases hevent
  · have hrecorded : event ∈ (recordTerminal env steps
        { results := []
          remaining := some ((plan.relations.filter (·.doesExist)).map (·.name))
          residualCatalogStatus := .notMutated
          residualCatalogError := none
          errorMessage := some aborted.cause.message
          failurePhase := some aborted.failurePhase }).2 := by
      simp only at hevent
      split at hevent <;> exact hevent
    obtain ⟨record, rfl, hrecord⟩ := recordTerminal_events event hrecorded
    refine ⟨record, rfl, hrecord.completed, hrecord.pending, ?_⟩
    intro hsuccess
    have hnone := (hrecord.success hsuccess).1
    cases hnone

theorem ExecutionProtocol.of_quiet
    (hsteps : workflowSteps c.frozenPlan = .ok steps) (hquiet : Quiet log)
    (hrelease : .lockAcquired ∈ log → ∃ earlier, log = earlier ++ [.releaseAttempted])
    (hrecords : ∀ record, .recorded record ∈ log → record.completedSequences = [] ∧
      record.pendingSequences = steps.map (·.1.sequence) ∧ record.outcome ≠ .succeeded) :
    ExecutionProtocol env c log := by
  constructor
  · intro i sequence outcome hi
    exact absurd hi hquiet.notMem_drop
  · exact hrelease
  · intro steps' hsteps' record hrecord
    rw [hsteps, Except.ok.injEq] at hsteps'
    subst hsteps'
    obtain ⟨hcompleted, hpending, -⟩ := hrecords record hrecord
    rw [hcompleted, hpending, hquiet.succeededSequences]
    exact ⟨rfl, rfl⟩
  · intro _ _ record hrecord hsuccess
    exact absurd hsuccess (hrecords record hrecord).2.2

/-- A call that is given up before its first statement keeps to the protocol. -/
theorem ExecutionProtocol.of_aborted (hsteps : workflowSteps c.frozenPlan = .ok steps)
    (hstages : ∀ event ∈ before ++ after, event ≠ .reconciled ∧
      (∀ sequence outcome, event ≠ .dropIssued sequence outcome) ∧
      ∀ record, event ≠ .recorded record)
    (hrelease : .lockAcquired ∈ before → after = [.releaseAttempted])
    (hlock : .lockAcquired ∉ after) :
    ExecutionProtocol env c
      (before ++ (recordAborted env c.frozenPlan steps aborted).2 ++ after) := by
  have hmem : ∀ event ∈ before ++ (recordAborted env c.frozenPlan steps aborted).2 ++ after,
      event ∈ before ++ after ∨ event ∈ (recordAborted env c.frozenPlan steps aborted).2 := by
    intro event hevent
    simp only [mem_append] at hevent ⊢
    tauto
  apply ExecutionProtocol.of_quiet hsteps
  · intro event hevent
    rcases hmem event hevent with hstage | hrecorded
    · exact ⟨(hstages event hstage).1, (hstages event hstage).2.1⟩
    · obtain ⟨record, rfl, -⟩ := recordAborted_events event hrecorded
      simp
  · intro hacquired
    rcases mem_append.mp hacquired with hearlier | hlater
    · rcases mem_append.mp hearlier with hbefore | hrecorded
      · exact ⟨_, by rw [hrelease hbefore]⟩
      · obtain ⟨record, hrecord, -⟩ := recordAborted_events _ hrecorded
        cases hrecord
    · exact absurd hlater hlock
  · intro record hevent
    rcases hmem _ hevent with hstage | hrecorded
    · exact absurd rfl ((hstages _ hstage).2.2 record)
    · obtain ⟨record', hsame, hrecord⟩ := recordAborted_events _ hrecorded
      cases hsame
      exact hrecord

/-- The log of a call that is dispatched. -/
def dispatchedLog (env : Environment) (c : Confirmation) (steps : List Step) : List Event :=
  (.runStarted :: (if steps = [] then [] else [.workflowPersisted]) ++ [.lockAcquired] ++
    [.driftVerified, .planConsumed c.frozenPlan.planId c.actorId]) ++
  (executeRecordedPlan env c.frozenPlan steps).2 ++ [.releaseAttempted]

/-- In a dispatched call, every statement comes after the stages that authorise it. -/
theorem dispatchedLog_authorised
    (h : (dispatchedLog env c steps)[i]? = some (.dropIssued sequence outcome)) :
    [.workflowPersisted, .lockAcquired, .driftVerified,
      .planConsumed c.frozenPlan.planId c.actorId].Sublist
        ((dispatchedLog env c steps).take i) := by
  have hrelease : Quiet [.releaseAttempted] := by simp [Quiet]
  by_cases hsteps : steps = []
  · subst hsteps
    have hquiet : Quiet (dispatchedLog env c []) := by
      apply Quiet.append _ hrelease
      apply Quiet.append _ (executeRecordedPlan_nil env c.frozenPlan)
      simp [Quiet]
    exact absurd h hquiet.notMem_drop
  · unfold dispatchedLog at h ⊢
    rw [if_neg hsteps, append_assoc] at h ⊢
    refine Quiet.sublist_take ?_ ?_ h
    · simp [Quiet]
    · exact sublist_cons_self _ _

theorem recorded_mem_dispatchedLog :
    .recorded record ∈ dispatchedLog env c steps ↔
      .recorded record ∈ (executeRecordedPlan env c.frozenPlan steps).2 := by
  unfold dispatchedLog
  split_ifs <;> simp

theorem succeededSequences_dispatchedLog :
    succeededSequences (dispatchedLog env c steps) =
      succeededSequences (executeRecordedPlan env c.frozenPlan steps).2 := by
  apply Quiet.succeededSequences_append
  · split_ifs <;> simp [Quiet]
  · simp [Quiet]

/-- A dispatched call keeps to the protocol exactly when its statements are accounted for. -/
theorem dispatchedLog_protocol (hsteps : workflowSteps c.frozenPlan = .ok steps) :
    ExecutionProtocol env c (dispatchedLog env c steps) ↔
      ((∀ m, env.residualCatalog ≠ some (.keyboardInterrupt m)) → RunsTruly env steps) := by
  have hspec := (workflowSteps_ok hsteps).recordedSpec env
  constructor
  · intro hprotocol hresidual
    by_contra hnot
    obtain ⟨record, hrecord⟩ := hspec.recorded hresidual hnot
    have haccounted := (hprotocol.accounted steps hsteps record
      (recorded_mem_dispatchedLog.mpr hrecord)).1
    rw [succeededSequences_dispatchedLog] at haccounted
    exact hnot ((hspec.accounts record hrecord).mp haccounted)
  · intro htruly
    constructor
    · intro i sequence outcome hi
      exact dispatchedLog_authorised hi
    · intro _
      exact ⟨_, rfl⟩
    · intro steps' hsteps' record hrecord
      rw [hsteps, Except.ok.injEq] at hsteps'
      subst hsteps'
      rw [recorded_mem_dispatchedLog] at hrecord
      rw [succeededSequences_dispatchedLog]
      exact ⟨(hspec.accounts record hrecord).mpr (htruly (hspec.observed record hrecord)),
        hspec.partition record hrecord⟩
    · intro steps' hsteps' record hrecord hsuccess
      rw [hsteps, Except.ok.injEq] at hsteps'
      subst hsteps'
      obtain ⟨hdone, hgone⟩ :=
        hspec.success record (recorded_mem_dispatchedLog.mp hrecord) hsuccess
      refine ⟨?_, hgone⟩
      intro step hstep
      exact mem_append_left _ (mem_append_right _ (hdone step hstep))

theorem releaseLock_log (env : Environment) (result : Except Raised DestructionExecutionResult) :
    (releaseLock env result).2 = [.releaseAttempted] := by
  unfold releaseLock
  split <;> rfl

section Call

variable {steps : List Step} (hobserved : env.initializeObservability = none)
  (hsteps : workflowSteps c.frozenPlan = .ok steps)

include hobserved hsteps

theorem executeDestruction_unannounced (h : (announce env steps).1 = .error aborted) :
    (executeDestruction env c).2 =
      (announce env steps).2 ++ (recordAborted env c.frozenPlan steps aborted).2 ++ [] := by
  have hannounce : announce env steps = (.error aborted, (announce env steps).2) := by
    rw [← h]
  rw [executeDestruction, hobserved, hsteps]
  simp only
  rw [hannounce, append_nil]

theorem executeDestruction_unauthorised
    (hannounced : (announce env steps).1 = .ok ()) (h : (authorise env c).1 = .error aborted) :
    (executeDestruction env c).2 = ((announce env steps).2 ++ (authorise env c).2) ++
      (recordAborted env c.frozenPlan steps aborted).2 ++ [.releaseAttempted] := by
  have hannounce : announce env steps = (.ok (), (announce env steps).2) := by
    rw [← hannounced]
  have hauthorise : authorise env c = (.error aborted, (authorise env c).2) := by
    rw [← h]
  rw [executeDestruction, hobserved, hsteps]
  simp only
  rw [hannounce, hauthorise]
  simp only [releaseLock_log, append_assoc]

theorem executeDestruction_dispatched (hannounced : (announce env steps).1 = .ok ())
    (hauthorised : (authorise env c).1 = .ok ()) :
    (executeDestruction env c).2 = dispatchedLog env c steps := by
  have hannounce : announce env steps = (.ok (), (announce env steps).2) := by
    rw [← hannounced]
  have hauthorise : authorise env c = (.ok (), (authorise env c).2) := by
    rw [← hauthorised]
  rw [executeDestruction, hobserved, hsteps]
  simp only
  rw [hannounce, hauthorise]
  simp only [releaseLock_log, announce_ok hannounced, authorise_ok hauthorised, dispatchedLog,
    append_assoc]

end Call

/-- For every pattern of failures: the call keeps to its protocol exactly when its effects
account for the statements that it can reach. -/
theorem executeDestruction_protocol (env : Environment) (c : Confirmation) :
    ExecutionProtocol env c (executeDestruction env c).2 ↔ TruthfulEffects env c := by
  have hempty : ExecutionProtocol env c [] := by
    constructor <;> simp
  cases hobserved : env.initializeObservability with
  | some e =>
    have hlog : (executeDestruction env c).2 = [] := by
      simp [executeDestruction, hobserved]
    rw [hlog]
    refine iff_of_true hempty ?_
    intro steps hnone
    rw [hobserved] at hnone
    cases hnone
  | none =>
    cases hsteps : workflowSteps c.frozenPlan with
    | error e =>
      have hlog : (executeDestruction env c).2 = [] := by
        simp [executeDestruction, hobserved, hsteps]
      rw [hlog]
      refine iff_of_true hempty ?_
      intro steps _ hok
      rw [hsteps] at hok
      cases hok
    | ok steps =>
      have htruthful : TruthfulEffects env c ↔ ((announce env steps).1 = .ok () →
          (authorise env c).1 = .ok () →
          (∀ m, env.residualCatalog ≠ some (.keyboardInterrupt m)) → RunsTruly env steps) := by
        simp only [TruthfulEffects, hobserved, hsteps, Except.ok.injEq]
        constructor
        · intro h
          exact h steps trivial rfl
        · rintro h _ _ rfl
          exact h
      rw [htruthful]
      cases hannounce : (announce env steps).1 with
      | error aborted =>
        rw [executeDestruction_unannounced hobserved hsteps hannounce]
        refine iff_of_true ?_ (by simp)
        have hstages := announce_error hannounce
        apply ExecutionProtocol.of_aborted hsteps
        · intro event hevent
          rw [append_nil] at hevent
          rcases hstages event hevent with rfl | rfl <;> simp
        · intro hacquired
          rcases hstages _ hacquired with hevent | hevent <;> cases hevent
        · simp
      | ok _ =>
        cases hauthorise : (authorise env c).1 with
        | error aborted =>
          rw [executeDestruction_unauthorised hobserved hsteps hannounce hauthorise]
          refine iff_of_true ?_ (by simp)
          have hstages := authorise_error hauthorise
          apply ExecutionProtocol.of_aborted hsteps
          · intro event hevent
            simp only [mem_append] at hevent
            rcases hevent with (hannounced | hauthorised) | hreleased
            · rcases announce_stages hannounce event hannounced with rfl | rfl | rfl <;> simp
            · rcases hstages event hauthorised with rfl | rfl <;> simp
            · simp [mem_singleton.mp hreleased]
          · intro _
            rfl
          · simp
        | ok _ =>
          rw [executeDestruction_dispatched hobserved hsteps hannounce hauthorise,
            dispatchedLog_protocol hsteps]
          simp

def droppedRelation (name : String) : DestructionRelationEvidence :=
  ⟨"shop_dev", name, .table, true, some 0, some 0, none, [name], ["orders"],
    [.currentManifest], []⟩

/-- The second of two statements fails with an error that is not the adapter's. -/
def abruptPlan : DestructionPlan where
  planId := "plan-1"
  operation := .destroyPipelines
  target := "dev"
  database := "shop_dev"
  metadataDatabase := "shop_meta"
  requestedPipelineNames := ["orders"]
  includedDependentPipelineNames := []
  affectedPipelineNames := ["orders"]
  affectedModelNames := ["one", "two"]
  affectedSourceNames := []
  relations := [droppedRelation "relation_one", droppedRelation "relation_two"]
  challenges := ["orders"]
  preservesSources := false
  preservesReplayData := false
  manifestFingerprint := "m"
  planFingerprint := "p"
  createdAt := 0
  expiresAt := 1

def abruptEnvironment : Environment where
  initializeObservability := none
  runStarted := none
  workflowPrepared := none
  acquireTargetMutationLock := none
  replan := .ok abruptPlan
  consume _ _ _ := .ok abruptPlan
  statementStarted _ := none
  executeWorkflowMutation sequence :=
    if sequence = 1 then .done else .failed (.other "connection reset by peer")
  statementCompleted _ := none
  relations := {"relation_one", "relation_two"}
  recoveryCatalog := none
  residualCatalog := none
  runCompleted := none
  persistTerminal := .persisted
  persistTerminalFallback := .persisted
  sameConnection := false
  releaseTargetMutationLock := none

theorem not_executeDestruction_protocol :
    ¬ ∀ (env : Environment) (c : Confirmation),
      ExecutionProtocol env c (executeDestruction env c).2 := by
  intro h
  have hprotocol := h abruptEnvironment ⟨abruptPlan, "actor-1", ["orders"]⟩
  have hsteps : (workflowSteps abruptPlan).isOk := by decide +kernel
  have hsucceeded : succeededSequences (executeDestruction abruptEnvironment
      ⟨abruptPlan, "actor-1", ["orders"]⟩).2 = [1] := by decide +kernel
  have hrecorded : ∃ event ∈ (executeDestruction abruptEnvironment
      ⟨abruptPlan, "actor-1", ["orders"]⟩).2, ∃ record, event = .recorded record ∧
        record.completedSequences = [] := by
    have hany : (executeDestruction abruptEnvironment
        ⟨abruptPlan, "actor-1", ["orders"]⟩).2.any (fun event => match event with
          | .recorded record => record.completedSequences = []
          | _ => false) = true := by decide +kernel
    obtain ⟨event, hevent, hmatch⟩ := any_eq_true.mp hany
    cases event with
    | recorded record => exact ⟨_, hevent, record, rfl, by simpa using hmatch⟩
    | _ => cases hmatch
  cases hplan : workflowSteps abruptPlan with
  | error e =>
    rw [hplan] at hsteps
    cases hsteps
  | ok steps =>
    obtain ⟨event, hevent, record, rfl, hcompleted⟩ := hrecorded
    have haccounted := (hprotocol.accounted steps hplan record hevent).1
    rw [hcompleted, hsucceeded] at haccounted
    cases haccounted

end SqlTide.Destruction
