import SqlTide.DevServer.BuildProcess

/-!
# One build at a time

At most one child runs, and signals go to the child of the invocation that they are issued for. The
exit code and the cancellation status are those of the current invocation, unless a cancellation
whose outcome could not be reported records that over a later invocation.
-/

namespace SqlTide.DevServer

open Runs State

structure SingleFlight (s : State) : Prop where
  oneChild : ∀ process process', s.child process = .running → s.child process' = .running →
    process = process'
  ownSignals : ∀ signal ∈ s.signals, signal.process = signal.invocationId
  ownExitCode : ∀ invocationId, s.invocationId = some invocationId →
    ∀ exitCode ∈ s.exitCode, exitCode.writer = invocationId
  ownStatus : ∀ invocationId, s.invocationId = some invocationId →
    ∀ status ∈ s.cancellationStatus, status.writer = invocationId

/-- That an outcome could not be reported is recorded only for the current invocation. -/
def RecordsOwn (s : State) : Event → Prop
  | .report call (some _) =>
    match s.thread call with
    | .reporting target => ∀ invocationId ∈ s.invocationId, invocationId = target.invocationId
    | _ => True
  | _ => True

/-- The process of a target is the child of its invocation. -/
def CancellationTarget.Own (target : CancellationTarget) : Prop :=
  target.process = target.invocationId

def CallPhase.Own : CallPhase → Prop
  | .requested target => target.Own
  | .signalled target => target.Own
  | .stored target => target.Own
  | .killing invocationId process => process = invocationId
  | _ => True

def ThreadPhase.Own : ThreadPhase → Prop
  | .querying target => target.Own
  | .waiting target _ => target.Own
  | .terminating target _ => target.Own
  | .outlasted target _ => target.Own
  | .exitSeen target _ _ => target.Own
  | .reporting target => target.Own
  | _ => True

/-- The running child is the one that the manager holds, and whoever goes on to signal or to wait
does so for the child of its own invocation. -/
structure FlightInv (s : State) : Prop where
  running : ∀ process, s.child process = .running →
    s.process = some process ∧ s.invocationId = some process
  calls : ∀ call, (s.call call).Own
  threads : ∀ call, (s.thread call).Own
  signals : ∀ signal ∈ s.signals, signal.process = signal.invocationId
  exitCode : ∀ invocationId, s.invocationId = some invocationId →
    ∀ exitCode ∈ s.exitCode, exitCode.writer = invocationId
  status : ∀ invocationId, s.invocationId = some invocationId →
    ∀ status ∈ s.cancellationStatus, status.writer = invocationId

variable {s : State} {call invocationId process : ℕ}

theorem FlightInv.singleFlight (h : FlightInv s) : SingleFlight s where
  oneChild process process' hprocess hprocess' :=
    Option.some.inj ((h.running process hprocess).1.symm.trans (h.running process' hprocess').1)
  ownSignals := h.signals
  ownExitCode := h.exitCode
  ownStatus := h.status

theorem flightInv_initial : FlightInv initial := by
  constructor <;> simp [initial, CallPhase.Own, ThreadPhase.Own]

theorem FlightInv.setCall {phase : CallPhase} (h : FlightInv s) (hphase : phase.Own) :
    FlightInv (s.setCall call phase) :=
  { h with
    calls := by
      intro other
      by_cases hother : other = call
      · simpa [State.setCall, hother] using hphase
      · simpa [State.setCall, hother] using h.calls other }

theorem FlightInv.setThread {phase : ThreadPhase} (h : FlightInv s) (hphase : phase.Own) :
    FlightInv (s.setThread call phase) :=
  { h with
    threads := by
      intro other
      by_cases hother : other = call
      · simpa [State.setThread, hother] using hphase
      · simpa [State.setThread, hother] using h.threads other }

theorem FlightInv.signal {kind : SignalKind} (h : FlightInv s) (hown : process = invocationId) :
    FlightInv (s.signal kind invocationId process) :=
  { h with
    signals := by
      intro signal hsignal
      rcases List.mem_append.mp hsignal with hsignal | hsignal
      · exact h.signals signal hsignal
      · rw [List.mem_singleton.mp hsignal]
        exact hown }

/-- What the manager owns for an invocation is the child of the invocation. -/
theorem FlightInv.owned (h : FlightInv s) (howned : s.ownedProcess invocationId = some process) :
    s.invocationId = some invocationId ∧ process = invocationId := by
  obtain ⟨hprocess, hcurrent⟩ := Option.filter_eq_some_iff.mp howned
  simp only [decide_eq_true_eq] at hcurrent
  have hchild := (h.running process hcurrent.2).2
  exact ⟨hcurrent.1, Option.some.inj (hchild.symm.trans hcurrent.1)⟩

theorem isCurrent_iff : s.isCurrent process invocationId = true ↔
    s.process = some process ∧ s.invocationId = some invocationId := by
  simp [State.isCurrent]

theorem FlightInv.start (h : FlightInv s) (launch : Launch) : FlightInv (s.start launch) := by
  unfold State.start
  split_ifs with hbusy
  · exact h
  · have hnone : ∀ process, s.child process ≠ .running := by
      intro process hrunning
      refine hbusy (.inr ?_)
      simp [State.processRuns, (h.running process hrunning).1, hrunning]
    cases launch with
    | spawned =>
      refine ⟨?_, h.calls, h.threads,
        h.signals, by simp [State.launching], by simp [State.launching]⟩
      intro process hrunning
      by_cases hprocess : process = s.nextInvocationId
      · simp [State.launching, hprocess]
      · simp [hprocess, hnone] at hrunning
    | refused =>
      exact ⟨fun process hrunning => absurd hrunning (hnone process), h.calls, h.threads, h.signals,
        by simp [State.launching], by simp [State.launching]⟩
    | failed =>
      exact ⟨fun process hrunning => absurd hrunning (hnone process), h.calls, h.threads, h.signals,
        by simp [State.launching], by simp [State.launching]⟩

theorem FlightInv.exit (h : FlightInv s) (code : ℤ) :
    FlightInv { s with child := Function.update s.child process (.exited code) } :=
  { h with
    running := by
      intro other hrunning
      by_cases hother : other = process
      · simp [hother] at hrunning
      · exact h.running other (by simpa [hother] using hrunning) }

theorem FlightInv.readEvent (h : FlightInv s) (event : BuildEvent) :
    FlightInv (s.readEvent event) := by
  cases event with
  | runStarted invocationId => exact { h with }
  | statementStarted queryId => exact { h with }
  | statementCompleted => exact { h with }
  | other => exact h

theorem FlightInv.readExit (h : FlightInv s) (code : ℤ) : FlightInv (s.readExit process code) := by
  unfold State.readExit
  split_ifs with hcurrent
  · refine { h with exitCode := ?_ }
    intro invocationId hinvocation exitCode hexit
    cases hexit
    exact Option.some.inj ((isCurrent_iff.mp hcurrent).2.symm.trans hinvocation)
  · exact h

theorem FlightInv.cancel (h : FlightInv s) : FlightInv (s.cancel call invocationId) := by
  unfold State.cancel
  split_ifs
  · exact h.setCall trivial
  · split
    · exact h.setCall trivial
    · next process howned =>
      obtain ⟨hinvocation, hprocess⟩ := h.owned howned
      have hrequested :
        FlightInv (s.setCall call (.requested ⟨invocationId, process, s.activeQueryId⟩)) :=
        h.setCall hprocess
      refine { hrequested with status := ?_ }
      intro invocationId' hinvocation' status hstatus
      cases hstatus
      exact Option.some.inj (hinvocation.symm.trans hinvocation')

theorem FlightInv.kill (h : FlightInv s) : FlightInv (s.kill call invocationId) := by
  unfold State.kill
  split
  · exact h.setCall trivial
  · next process howned => exact h.setCall (h.owned howned).2

variable {target : CancellationTarget}

theorem FlightInv.outlast {attempt : WarehouseAttempt}
    (h : FlightInv s) (hown : target.Own) : FlightInv (s.outlast call target attempt) := by
  unfold State.outlast
  by_cases hcurrent : s.isCurrent target.process target.invocationId = true
  · rw [if_pos hcurrent]
    have hthread : FlightInv (s.setThread call (.outlasted target attempt)) := h.setThread hown
    refine { hthread with status := ?_ }
    intro invocationId hinvocation status hstatus
    cases hstatus
    exact Option.some.inj ((isCurrent_iff.mp hcurrent).2.symm.trans hinvocation)
  · rw [if_neg hcurrent]
    exact h.setThread trivial

theorem FlightInv.complete {attempt : WarehouseAttempt} {code : ℤ}
    (h : FlightInv s) (hown : target.Own) : FlightInv (s.complete call target attempt code) := by
  unfold State.complete
  by_cases hcurrent : s.isCurrent target.process target.invocationId = true
  · rw [if_pos hcurrent]
    have hthread : FlightInv (s.setThread call (.reporting target)) := h.setThread hown
    have hwriter : ∀ invocationId, s.invocationId = some invocationId →
        target.invocationId = invocationId :=
      fun invocationId hinvocation =>
        Option.some.inj ((isCurrent_iff.mp hcurrent).2.symm.trans hinvocation)
    refine { hthread with exitCode := ?_, status := ?_ }
    · intro invocationId hinvocation exitCode hexit
      cases hexit
      exact hwriter invocationId hinvocation
    · intro invocationId hinvocation status hstatus
      cases hstatus
      exact hwriter invocationId hinvocation
  · rw [if_neg hcurrent]
    exact h.setThread trivial

/-- The failure of a report is recorded for the invocation of the thread. -/
theorem FlightInv.report {error : Option String} (h : FlightInv s)
    (hown : error.isSome → ∀ invocationId ∈ s.invocationId, invocationId = target.invocationId) :
    FlightInv (s.report call target error) := by
  have hthread : FlightInv (s.setThread call .closing) := h.setThread trivial
  cases error with
  | none => exact hthread
  | some error =>
    refine { hthread with status := ?_ }
    intro invocationId hinvocation status hstatus
    cases hstatus
    exact (hown rfl invocationId hinvocation).symm

theorem flightInv_next {e : Event} (h : FlightInv s) (hown : RecordsOwn s e) :
    FlightInv (next s e) := by
  cases e with
  | start launch => exact h.start launch
  | exit process code =>
    simp only [next]
    split_ifs
    · exact h.exit code
    · exact h
  | readLine process event =>
    simp only [next]
    split_ifs
    · exact h.readEvent event
    · exact h
  | readExit process =>
    simp only [next]
    split
    · next code _ _ => exact { h.readExit code with }
    · exact h
  | cancel call invocationId =>
    simp only [next]
    split_ifs
    · exact h.cancel
    · exact h
  | kill call invocationId =>
    simp only [next]
    split_ifs
    · exact h.kill
    · exact h
  | sendInterrupt call =>
    have hcall := h.calls call
    cases hphase : s.call call with
    | requested target =>
      rw [hphase] at hcall
      have hsignalled : FlightInv (s.setCall call (.signalled target)) := h.setCall hcall
      simpa only [next, hphase] using hsignalled.signal hcall
    | _ => simpa only [next, hphase] using h
  | storeThread call =>
    have hcall := h.calls call
    cases hphase : s.call call with
    | signalled target =>
      rw [hphase] at hcall
      have hstored : FlightInv (s.setCall call (.stored target)) := h.setCall hcall
      simp only [next, hphase]
      exact { hstored with }
    | _ => simpa only [next, hphase] using h
  | startThread call =>
    have hcall := h.calls call
    cases hphase : s.call call with
    | stored target =>
      rw [hphase] at hcall
      have hreturned : FlightInv (s.setCall call .returned) := h.setCall trivial
      have hquerying : FlightInv ((s.setCall call .returned).setThread call (.querying target)) :=
        hreturned.setThread hcall
      simpa only [next, hphase] using hquerying
    | _ => simpa only [next, hphase] using h
  | sendKill call =>
    have hcall := h.calls call
    cases hphase : s.call call with
    | killing invocationId process =>
      rw [hphase] at hcall
      have hkilled : FlightInv (s.setCall call .killed) := h.setCall trivial
      simpa only [next, hphase] using hkilled.signal hcall
    | _ => simpa only [next, hphase] using h
  | finishKill call =>
    have hreturned : FlightInv (s.setCall call .returned) := h.setCall trivial
    simp only [next]
    split
    · exact { hreturned with }
    · exact h
  | cancelQuery call answer =>
    have hthread := h.threads call
    cases hphase : s.thread call with
    | querying target =>
      rw [hphase] at hthread
      have hwaiting : FlightInv (s.setThread call (.waiting target (attemptOf target answer))) :=
        h.setThread hthread
      simpa only [next, hphase] using hwaiting
    | _ => simpa only [next, hphase] using h
  | seeExit call =>
    have hthread := h.threads call
    cases hphase : s.thread call with
    | waiting target attempt | terminating target attempt | outlasted target attempt =>
      rw [hphase] at hthread
      simp only [next, hphase]
      split
      · exact h.setThread hthread
      · exact h
    | _ => simpa only [next, hphase] using h
  | terminate call =>
    have hthread := h.threads call
    cases hphase : s.thread call with
    | waiting target attempt =>
      rw [hphase] at hthread
      have hterminating : FlightInv (s.setThread call (.terminating target attempt)) :=
        h.setThread hthread
      simpa only [next, hphase] using hterminating.signal hthread
    | _ => simpa only [next, hphase] using h
  | outlast call =>
    have hthread := h.threads call
    cases hphase : s.thread call with
    | terminating target attempt =>
      rw [hphase] at hthread
      simpa only [next, hphase] using h.outlast hthread
    | _ => simpa only [next, hphase] using h
  | complete call =>
    have hthread := h.threads call
    cases hphase : s.thread call with
    | exitSeen target attempt code =>
      rw [hphase] at hthread
      simpa only [next, hphase] using h.complete hthread
    | _ => simpa only [next, hphase] using h
  | report call error =>
    cases hphase : s.thread call with
    | reporting target =>
      simp only [next, hphase]
      apply h.report
      intro herror
      obtain ⟨message, rfl⟩ := Option.isSome_iff_exists.mp herror
      simpa only [RecordsOwn, hphase] using hown
    | _ => simpa only [next, hphase] using h
  | close call =>
    have hfinished : FlightInv (s.setThread call .finished) := h.setThread trivial
    simp only [next]
    split
    · exact { hfinished with }
    · exact h

/-- What is recorded of a failed report is the current invocation's, or the status is not. -/
theorem recordsOwn_of_singleFlight {e : Event} (h : SingleFlight (next s e)) : RecordsOwn s e := by
  unfold RecordsOwn
  split
  · next call error =>
    cases hphase : s.thread call with
    | reporting target =>
      intro invocationId hinvocation
      simp only [next, hphase, State.report] at h
      exact (h.ownStatus invocationId hinvocation _ rfl).symm
    | _ => trivial
  · trivial

/-- Builds are single flights in every state that a run reaches exactly if no failed report of a
cancellation is recorded after its invocation. -/
theorem singleFlight_iff (events : List Event) :
    (∀ before, before <+: events → SingleFlight (run next initial before)) ↔
      Along next RecordsOwn initial events := by
  constructor
  · intro h
    rw [along_iff]
    rintro before e after rfl
    have hafter := h (before ++ [e]) ⟨after, by simp⟩
    rw [run_append] at hafter
    exact recordsOwn_of_singleFlight hafter
  · rintro h before ⟨after, rfl⟩
    have hbefore := ((along_append next).mp h).1
    exact (run_invariant next (I := FlightInv) (fun _ _ hinv hown => flightInv_next hinv hown)
      flightInv_initial hbefore).singleFlight

/-- The call that cancels build 0 is held up until build 1 is being cancelled; the thread of build 1
is then forgotten, and build 2 starts while its outcome is still to be reported. -/
def overtakenCancel : List Event :=
  [.start .spawned, .cancel 0 0, .sendInterrupt 0, .exit 0 130,
    .start .spawned, .cancel 1 1, .sendInterrupt 1, .storeThread 1, .startThread 1,
    .storeThread 0, .startThread 0, .cancelQuery 0 none, .seeExit 0, .complete 0,
    .cancelQuery 1 none, .exit 1 130, .seeExit 1, .complete 1,
    .start .spawned, .report 1 (some "timeout")]

/-- The status of build 2 is that of the cancellation of build 1. -/
theorem not_singleFlight : ¬ ∀ events, SingleFlight (run next initial events) := by
  intro h
  have hstatus := (h overtakenCancel).ownStatus 2 (by decide +kernel) ⟨.cancellationFailed, 1⟩
    (by decide +kernel)
  exact absurd hstatus (by decide)

end SqlTide.DevServer
