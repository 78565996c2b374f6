import SqlTide.DevServer.RunsQuery

/-!
# The view from the newest events

The run query reads the start of a run and its newest events. What it shows is what the whole stream
shows exactly where the older events hold no completed operation, no outcome of the run, and no open
operation that is the latest one.
-/

namespace SqlTide.DevServer

open Foundations List Observability

/-- The part of a run's view that is derived from its events. -/
structure RunFacts where
  status : Option String
  currentStep : Option String
  activeStatement : Option RunEvent
  completedOperationCount : Option ℕ
  deriving DecidableEq, Repr

def runFacts (terminal : Option TerminalRun) (warehouseNow presumedFailedAfterSeconds : ℤ)
    (events : List RunEvent) : RunFacts where
  status := (assembleRun terminal events warehouseNow presumedFailedAfterSeconds).map (·.status)
  currentStep := (assembleRun terminal events warehouseNow presumedFailedAfterSeconds).bind
    (·.progress.currentStep)
  activeStatement := activeStatement events
  completedOperationCount :=
    (assembleRun terminal events warehouseNow presumedFailedAfterSeconds).bind
      (·.progress.completedOperationCount)

/-- The events after the start that are older than the newest `limit`. -/
def olderEvents (limit : ℕ) (later : List RunEvent) : List RunEvent :=
  later.take (later.length - limit)

def newestEvents (limit : ℕ) (later : List RunEvent) : List RunEvent :=
  later.drop (later.length - limit)

/-- The outcome of a run without a terminal row is not in its older events alone. -/
def OutcomeKept (terminal : Option TerminalRun) (older newest : List RunEvent) : Prop :=
  terminal = none → (∀ e ∈ newest, e.event ≠ .runCompleted) →
    ∀ e ∈ lastRunCompleted older, terminalStatuses (completedOutcome e) = none

/-- The older events hold no completed operation, the outcome of the run is kept, and where an
operation or a statement is left open in the older events, one is left open in the newest. -/
structure NothingLost (terminal : Option TerminalRun) (older newest : List RunEvent) : Prop where
  operations : ∀ e ∈ older, isCompletedOperation e = false
  outcome : OutcomeKept terminal older newest
  steps : OpensIn stepMark older newest → OpensIn stepMark newest []
  statements : OpensIn statementMark older newest → OpensIn statementMark newest []

variable {rows : List RunEvent} {started : RunEvent}

theorem recency_eq_of_perm {rows' : List RunEvent} (h : rows.Perm rows') (row : RunEvent) :
    recency rows row = recency rows' row :=
  (h.filter _).length_eq

variable {stream later events older newest : List RunEvent} {limit : ℕ} {last : RunEvent}

theorem sort_eq_of_perm (h : rows.Perm stream)
    (hordered : stream.Pairwise (·.sequence < ·.sequence)) :
    rows.insertionSort (·.sequence ≤ ·.sequence) = stream := by
  have htrans : IsTrans RunEvent (·.sequence ≤ ·.sequence) := ⟨fun _ _ _ => le_trans⟩
  have htotal : Std.Total (α := RunEvent) (·.sequence ≤ ·.sequence) := ⟨fun _ _ => le_total _ _⟩
  have hperm := (perm_insertionSort (fun a b : RunEvent => a.sequence ≤ b.sequence) rows).trans h
  refine List.Perm.eq_of_pairwise ?_ (pairwise_insertionSort _ rows)
    (hordered.imp fun h => h.le) hperm
  intro a b ha hb hab hba
  have hnumbers : (stream.map (·.sequence)).Nodup := by
    rw [List.Nodup, pairwise_map]
    exact hordered.imp fun h => h.ne
  exact inj_on_of_nodup_map hnumbers (hperm.mem_iff.mp ha) hb (le_antisymm hab hba)

theorem filter_recency (hordered : rows.Pairwise (·.sequence < ·.sequence)) (limit : ℕ) :
    (rows.filter fun row => recency rows row ≤ limit) = rows.drop (rows.length - limit) := by
  induction rows with
  | nil => simp
  | cons row rows ih =>
    obtain ⟨hrow, hrows⟩ := pairwise_cons.mp hordered
    have hself : recency (row :: rows) row = rows.length + 1 := by
      have hall : ((row :: rows).filter fun other => row.sequence ≤ other.sequence) =
          row :: rows := by
        refine filter_eq_self.mpr fun other hother => ?_
        rcases mem_cons.mp hother with rfl | hother
        · simp
        · simpa using (hrow other hother).le
      rw [recency, hall, length_cons]
    have hrest : ∀ other ∈ rows, recency (row :: rows) other = recency rows other := by
      intro other hother
      have h := hrow other hother
      simp only [recency]
      rw [filter_cons_of_neg (by simpa using h)]
    have hfilter : (rows.filter fun other => recency (row :: rows) other ≤ limit) =
        rows.drop (rows.length - limit) := by
      rw [← ih hrows]
      refine filter_congr fun other hother => ?_
      rw [hrest other hother]
    rw [filter_cons, hself, hfilter, length_cons]
    by_cases hlimit : rows.length + 1 ≤ limit
    · rw [if_pos (by simpa using hlimit), Nat.sub_eq_zero_of_le hlimit,
        Nat.sub_eq_zero_of_le (by omega), drop_zero, drop_zero]
    · rw [if_neg (by simpa using hlimit),
        show rows.length + 1 - limit = (rows.length - limit) + 1 by omega, drop_succ_cons]

section Stream

variable {rows stream later : List RunEvent} {started : RunEvent}

theorem eventStream_none (hperm : rows.Perm stream) (h : SinkStream stream later started) :
    eventStream none rows = started :: later := by
  rw [eventStream, sort_eq_of_perm hperm h.ordered, h.eq]

theorem eventStream_some (hperm : rows.Perm stream) (h : SinkStream stream later started)
    (limit : ℕ) : eventStream (some limit) rows = started :: newestEvents limit later := by
  have hordered := h.ordered
  rw [h.eq] at hordered hperm
  have hkeep : ((started :: later).filter fun row =>
      recency rows row ≤ limit ∨ row.event = .runStarted) =
      started :: newestEvents limit later := by
    rw [filter_cons_of_pos (by simp [h.started])]
    congr 1
    rw [newestEvents, ← filter_recency (pairwise_cons.mp hordered).2 limit]
    refine filter_congr fun row hrow => ?_
    have hnot := (h.fromSink row hrow).1
    have hlt := (pairwise_cons.mp hordered).1 row hrow
    have hcount : recency rows row = recency later row := by
      rw [recency_eq_of_perm hperm, recency, recency, filter_cons_of_neg (by simpa using hlt)]
    simp [hcount, hnot]
  have hsub : (started :: newestEvents limit later).Pairwise (·.sequence < ·.sequence) := by
    rw [← hkeep]
    exact hordered.filter _
  rw [eventStream]
  apply sort_eq_of_perm _ hsub
  rw [← hkeep]
  exact hperm.filter _

end Stream

theorem older_append_newest (limit : ℕ) (later : List RunEvent) :
    olderEvents limit later ++ newestEvents limit later = later :=
  take_append_drop _ _

theorem newestEvents_ne_nil (hlimit : 0 < limit)
    (h : later ≠ []) : newestEvents limit later ≠ [] := by
  have hlength := length_pos_iff.mpr h
  rw [newestEvents, ← length_pos_iff, length_drop]
  omega

theorem cancellationStatus_eq_none (hstarted : started.event = .runStarted)
    (h : ∀ e ∈ events, e.FromSink) : cancellationStatus (started :: events) = none := by
  have hfailed : (started :: events).any (·.event = .cancellationFailed) = false := by
    rw [any_eq_false]
    intro e he
    rcases mem_cons.mp he with rfl | he
    · simp [hstarted]
    · simpa using (h e he).2.2.1
  have hcompleted : (started :: events).any (·.event = .cancellationCompleted) = false := by
    rw [any_eq_false]
    intro e he
    rcases mem_cons.mp he with rfl | he
    · simp [hstarted]
    · simpa using (h e he).2.1
  simp [cancellationStatus, hfailed, hcompleted]

/-- The status before any cancellation. -/
def narratedStatus (terminal : Option TerminalRun) (warehouseNow presumedFailedAfterSeconds : ℤ)
    (completed : Option RunEvent) (last : RunEvent) : String :=
  match terminal with
  | some run => run.outcome
  | none => (deriveRunStatus none (completed.map completedOutcome) last.emittedAt warehouseNow
      presumedFailedAfterSeconds).text

theorem runFacts_eq (terminal : Option TerminalRun) (warehouseNow presumedFailedAfterSeconds : ℤ)
    (hstarted : started.event = .runStarted)
    (h : ∀ e ∈ events, e.FromSink) (hlast : events.getLast? = some last) :
    runFacts terminal warehouseNow presumedFailedAfterSeconds (started :: events) =
      { status := narratedStatus terminal warehouseNow presumedFailedAfterSeconds
          (lastRunCompleted (started :: events)) last
        currentStep := activeStep (started :: events)
        activeStatement := activeStatement (started :: events)
        completedOperationCount := some ((started :: events).countP isCompletedOperation) } := by
  have hcancel := cancellationStatus_eq_none hstarted h
  have hend : (started :: events).getLast? = some last := by
    rw [getLast?_cons, hlast, Option.getD_some]
  cases terminal with
  | none => simp [runFacts, assembleRun, hend, assembleActiveRun, hcancel, narratedStatus,
      runProgress]
  | some run =>
    have hany : (started :: events).any (·.event ≠ .runStarted) = true := by
      rw [any_eq_true]
      have hmem := mem_of_getLast? hlast
      exact ⟨last, mem_cons_of_mem _ hmem, by simpa using (h last hmem).1⟩
    have hview : (assembleTerminalRun run (started :: events)) =
        { status := run.outcome
          lastSignalAt := last.emittedAt
          progress :=
            if run.auditSummary.isSome then
              { runProgress (started :: events) with auditSummary := run.auditSummary }
            else runProgress (started :: events) } := by
      rw [assembleTerminalRun, hend, hcancel]
      simp only [hany, if_true, TerminalRun.view]
    rw [runFacts, assembleRun, hview]
    by_cases haudit : run.auditSummary.isSome = true
    · simp [haudit, narratedStatus, runProgress]
    · simp [haudit, narratedStatus, runProgress]

theorem deriveRunStatus_eq_iff (first second : Option String)
    (lastSignalAt warehouseNow presumedFailedAfterSeconds : ℤ) :
    (deriveRunStatus none first lastSignalAt warehouseNow presumedFailedAfterSeconds).text =
        (deriveRunStatus none second lastSignalAt warehouseNow presumedFailedAfterSeconds).text ↔
      first.bind terminalStatuses = second.bind terminalStatuses := by
  have htext : Function.Injective RunPresentationStatus.text := by
    intro a b
    cases a <;> cases b <;> decide
  have houtcome : ∀ outcome : Option String, ∀ status ∈ outcome.bind terminalStatuses,
      status ≠ .running ∧ status ≠ .unresponsive ∧ status ≠ .presumedFailed := by
    intro outcome status h
    obtain ⟨text, -, htext⟩ := Option.bind_eq_some_iff.mp h
    simp only [terminalStatuses] at htext
    split_ifs at htext <;> cases htext <;> decide
  rw [htext.eq_iff, deriveRunStatus, deriveRunStatus]
  cases hfirst : first.bind terminalStatuses with
  | none =>
    cases hsecond : second.bind terminalStatuses with
    | none => simp
    | some status =>
      obtain ⟨hrunning, hunresponsive, hpresumed⟩ := houtcome second status hsecond
      simp only [Option.bind_none, reduceCtorEq, iff_false]
      split_ifs <;> simp [Ne.symm, *]
  | some status =>
    cases hsecond : second.bind terminalStatuses with
    | none =>
      obtain ⟨hrunning, hunresponsive, hpresumed⟩ := houtcome first status hfirst
      simp only [Option.bind_none, reduceCtorEq, iff_false]
      split_ifs <;> simp [*]
    | some status' => simp

theorem lastRunCompleted_append (started : RunEvent) (hstarted : started.event = .runStarted)
    (older newest : List RunEvent) :
    lastRunCompleted (started :: (older ++ newest)) =
      (lastRunCompleted newest).or (lastRunCompleted older) := by
  simp [lastRunCompleted, find?_append, hstarted]

theorem outcomeKept_iff (terminal : Option TerminalRun)
    (warehouseNow presumedFailedAfterSeconds : ℤ)
    (hstarted : started.event = .runStarted) (older newest : List RunEvent) :
    narratedStatus terminal warehouseNow presumedFailedAfterSeconds
        (lastRunCompleted (started :: newest)) last =
      narratedStatus terminal warehouseNow presumedFailedAfterSeconds
        (lastRunCompleted (started :: (older ++ newest))) last ↔
      OutcomeKept terminal older newest := by
  cases terminal with
  | some run => simp [narratedStatus, OutcomeKept]
  | none =>
    have hwindow : lastRunCompleted (started :: newest) = lastRunCompleted newest := by
      simpa [lastRunCompleted] using lastRunCompleted_append started hstarted [] newest
    simp only [narratedStatus, deriveRunStatus_eq_iff, OutcomeKept, forall_const,
      lastRunCompleted_append started hstarted, hwindow]
    cases hnewest : lastRunCompleted newest with
    | some e =>
      have hmem := mem_reverse.mp (mem_of_find?_eq_some hnewest)
      have hkind : e.event = .runCompleted := by simpa using find?_some hnewest
      simp only [Option.some_or, true_iff]
      intro hnone
      exact absurd hkind (hnone e hmem)
    | none =>
      have hnone : ∀ e ∈ newest, e.event ≠ .runCompleted := by
        simpa [lastRunCompleted] using hnewest
      rw [Option.none_or, Option.map_none, Option.bind_none, imp_iff_right hnone]
      cases lastRunCompleted older with
      | none => simp
      | some e => simp [eq_comm]

theorem operations_iff (started : RunEvent) (older newest : List RunEvent) :
    (started :: newest).countP isCompletedOperation =
        (started :: (older ++ newest)).countP isCompletedOperation ↔
      ∀ e ∈ older, isCompletedOperation e = false := by
  rw [countP_cons, countP_cons, countP_append]
  have hzero : older.countP isCompletedOperation = 0 ↔
      ∀ e ∈ older, isCompletedOperation e = false := by
    rw [countP_eq_zero]
    simp
  rw [← hzero]
  omega

theorem steps_iff (hstarted : started.event = .runStarted) (h : ∀ e ∈ older ++ newest, e.FromSink) :
    activeStep (started :: newest) = activeStep (started :: (older ++ newest)) ↔
      (OpensIn stepMark older newest → OpensIn stepMark newest []) := by
  have hmark : stepMark started = .plain := by simp [stepMark, hstarted]
  have hold : OpensIn stepMark (started :: older) newest ↔ OpensIn stepMark older newest := by
    simp [OpensIn, Unanswered, hmark]
  have hstep : ∀ e ∈ (started :: older) ++ newest,
      stepMark e = .unkeyed ∨ (∃ key, stepMark e = .opens key) → e.stepId ≠ none := by
    intro e he hopen
    rcases mem_cons.mp he with rfl | he
    · simp [hmark] at hopen
    · apply (h e he).2.2.2
      revert hopen
      rw [stepMark]
      split <;> simp_all
  have hwindow : activeStep (started :: newest) =
      (latestOpen stepMark newest).bind RunEvent.stepId := by
    rw [activeStep_eq]
    refine (latestOpen_append_eq_iff stepMark [started] newest RunEvent.stepId ?_).mpr ?_
    · intro e he
      exact hstep e (by simp only [mem_append, mem_cons] at he ⊢; tauto)
    · intro hopen
      simp [OpensIn, Unanswered, hmark] at hopen
  rw [hwindow, activeStep_eq, ← cons_append, ← hold, eq_comm]
  exact latestOpen_append_eq_iff stepMark _ newest RunEvent.stepId hstep

theorem statements_iff (hstarted : started.event = .runStarted) (older newest : List RunEvent) :
    activeStatement (started :: newest) = activeStatement (started :: (older ++ newest)) ↔
      (OpensIn statementMark older newest → OpensIn statementMark newest []) := by
  have hmark : statementMark started = .plain := by simp [statementMark, hstarted]
  have hold : OpensIn statementMark (started :: older) newest ↔
      OpensIn statementMark older newest := by
    simp [OpensIn, Unanswered, hmark]
  have hwindow : latestOpen statementMark (started :: newest) =
      latestOpen statementMark newest := by
    refine (latestOpen_append_eq_iff' statementMark [started] newest).mpr ?_
    intro hopen
    simp [OpensIn, Unanswered, hmark] at hopen
  rw [activeStatement_eq, activeStatement_eq, hwindow, ← cons_append, ← hold, eq_comm]
  exact latestOpen_append_eq_iff' statementMark _ newest

theorem runFacts_window_iff (terminal : Option TerminalRun)
    (warehouseNow presumedFailedAfterSeconds : ℤ) (hrows : rows.Perm stream)
    (hstream : SinkStream stream later started) (hlimit : 0 < limit) :
    runFacts terminal warehouseNow presumedFailedAfterSeconds (eventStream (some limit) rows) =
      runFacts terminal warehouseNow presumedFailedAfterSeconds (eventStream none rows) ↔
      NothingLost terminal (olderEvents limit later) (newestEvents limit later) := by
  rw [eventStream_some hrows hstream, eventStream_none hrows hstream]
  have hsplit := older_append_newest limit later
  generalize holder : olderEvents limit later = older at hsplit ⊢
  generalize hnewest : newestEvents limit later = newest at hsplit ⊢
  by_cases hempty : later = []
  · obtain ⟨rfl, rfl⟩ := append_eq_nil_iff.mp (hsplit.trans hempty)
    subst hempty
    simp only [true_iff]
    exact ⟨by simp, by simp [OutcomeKept, lastRunCompleted], id, id⟩
  · have hne : newest ≠ [] := hnewest ▸ newestEvents_ne_nil hlimit hempty
    have hlast : newest.getLast? = some (newest.getLast hne) := getLast?_eq_some_getLast hne
    have hwhole : later.getLast? = some (newest.getLast hne) := by
      rw [← hsplit, getLast?_append, hlast, Option.some_or]
    have hsink := hstream.fromSink
    rw [runFacts_eq terminal _ _ hstream.started
      (fun e he => hsink e (by rw [← hsplit]; exact mem_append_right _ he)) hlast,
      runFacts_eq terminal _ _ hstream.started hsink hwhole, RunFacts.mk.injEq, Option.some_inj,
      Option.some_inj]
    subst hsplit
    rw [outcomeKept_iff terminal _ _ hstream.started, steps_iff hstream.started hsink,
      statements_iff hstream.started, operations_iff]
    constructor
    · rintro ⟨houtcome, hsteps, hstatements, hoperations⟩
      exact ⟨hoperations, houtcome, hsteps, hstatements⟩
    · rintro ⟨hoperations, houtcome, hsteps, hstatements⟩
      exact ⟨houtcome, hsteps, hstatements, hoperations⟩

/-- The view from the newest events and the start is that of the whole stream exactly where the
older events hold nothing that the view is about. -/
theorem windowedView_iff (terminal : Option TerminalRun)
    (warehouseNow presumedFailedAfterSeconds totalStatements startedAt : ℤ)
    (calls : List (SinkCall × Emission)) (rows : List RunEvent)
    (hrows : rows.Perm (sinkRows totalStatements startedAt calls)) :
    runFacts terminal warehouseNow presumedFailedAfterSeconds
        (eventStream (some runEventWindowSize) rows) =
      runFacts terminal warehouseNow presumedFailedAfterSeconds (eventStream none rows) ↔
      NothingLost terminal
        (olderEvents runEventWindowSize (sinkRows totalStatements startedAt calls).tail)
        (newestEvents runEventWindowSize (sinkRows totalStatements startedAt calls).tail) := by
  obtain ⟨started, later, hstream⟩ := sinkStream_sinkRows totalStatements startedAt calls
  have htail : (sinkRows totalStatements startedAt calls).tail = later := by
    rw [hstream.eq, tail_cons]
  rw [htail]
  exact runFacts_window_iff terminal _ _ hrows hstream (by decide)

/-- A finished statement, then one that runs on while the sink writes `heartbeats` heartbeats. -/
def longStatement (heartbeats : ℕ) : List (SinkCall × Emission) :=
  [(.statementStarted ⟨1, "prepare_orders", "prepare"⟩, ⟨120, true, 1000⟩),
    (.statementCompleted ⟨1, "prepare_orders", "prepare"⟩, ⟨120, true, 2000⟩),
    (.statementStarted ⟨2, "replay_orders", "replay"⟩, ⟨120, true, 3000⟩)] ++
    replicate heartbeats (.heartbeat, ⟨2, true, 13000⟩)

/-- The sink writes 410 heartbeats before the only statement starts. -/
def lateStatement : List (SinkCall × Emission) :=
  replicate 410 (.heartbeat, ⟨2, true, 1000⟩) ++
    [(.statementStarted ⟨1, "replay_orders", "replay"⟩, ⟨120, true, 2000⟩)]

theorem nothingLost_of_heartbeats {terminal : Option TerminalRun}
    (h : ∀ e ∈ older, e.event = .runHeartbeat) : NothingLost terminal older newest where
  operations e he := by simp [isCompletedOperation, h e he]
  outcome _ _ e he := by
    have hcompleted := find?_some he
    have hmem := mem_reverse.mp (mem_of_find?_eq_some he)
    simp [h e hmem] at hcompleted
  steps hopen := by
    refine absurd hopen (not_opensIn_of_plain stepMark fun e he => ?_)
    simp [stepMark, h e he]
  statements hopen := by
    refine absurd hopen (not_opensIn_of_plain statementMark fun e he => ?_)
    simp [statementMark, h e he]

/-- The heartbeats outside of the window are not missed. -/
theorem windowedView_iff_longStatement :
    runFacts none 14000 600 (eventStream (some runEventWindowSize)
        (sinkRows 1 0 lateStatement).reverse) =
      runFacts none 14000 600 (eventStream none (sinkRows 1 0 lateStatement).reverse) :=
  (windowedView_iff none 14000 600 1 0 lateStatement _ (reverse_perm _)).mpr
    (nothingLost_of_heartbeats (by decide +kernel))

/-- After 400 heartbeats the completed statement is not counted and no step is current. -/
theorem not_windowedView :
    ¬ ∀ (terminal : Option TerminalRun)
      (warehouseNow presumedFailedAfterSeconds totalStatements startedAt : ℤ)
      (calls : List (SinkCall × Emission)) (rows : List RunEvent),
      rows.Perm (sinkRows totalStatements startedAt calls) →
      runFacts terminal warehouseNow presumedFailedAfterSeconds
          (eventStream (some runEventWindowSize) rows) =
        runFacts terminal warehouseNow presumedFailedAfterSeconds (eventStream none rows) := by
  intro h
  obtain ⟨started, later, hstream⟩ := sinkStream_sinkRows 2 0 (longStatement 400)
  have hlost := (runFacts_window_iff none 14000 600 (List.Perm.refl _) hstream (by decide)).mp
    (h none 14000 600 2 0 (longStatement 400) _ (List.Perm.refl _))
  have hcompleted : ∃ e ∈ olderEvents runEventWindowSize
      (sinkRows 2 0 (longStatement 400)).tail, isCompletedOperation e = true := by
    decide +kernel
  obtain ⟨e, he, hcounted⟩ := hcompleted
  rw [hstream.eq, tail_cons] at he
  rw [hlost.operations e he] at hcounted
  cases hcounted

end SqlTide.DevServer
