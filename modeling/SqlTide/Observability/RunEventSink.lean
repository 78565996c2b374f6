import SqlTide.Foundations.Runs

/-!
# The run event sink

The sink numbers the events of one run and writes each to the durable table as it happens. A write
is best effort: the number of a lost event is not given again. Payloads over a fixed size are
replaced by a marker without the keys that readers look for.
-/

namespace SqlTide.Observability

open Runs

inductive RunEventKind where
  | runStarted
  | runCompleted
  | statementStarted
  | statementCompleted
  | runHeartbeat
  | auditStarted
  | auditCompleted
  | cancellationRequested
  | cancellationCompleted
  | cancellationFailed
  deriving DecidableEq, Repr

/-- The keys of a payload that the run query reads. -/
structure RunEventPayload where
  totalStatements : Option ℤ := none
  statementSequence : Option ℤ := none
  outcome : Option String := none
  status : Option String := none
  deriving DecidableEq, Repr

structure RunEvent where
  sequence : ℕ
  /-- Milliseconds, as the warehouse stamps the row. -/
  emittedAt : ℤ
  event : RunEventKind
  stepId : Option String
  phase : Option String
  payload : RunEventPayload
  deriving DecidableEq, Repr

def maxObservationJsonBytes : ℕ := 16384

/-- `renderedBytes` is the size of the payload as JSON. The keys kept of an oversized payload occur
in no payload of the sink. -/
def boundedJson (renderedBytes : ℕ) (payload : RunEventPayload) : RunEventPayload :=
  if renderedBytes ≤ maxObservationJsonBytes then payload else {}

structure WarehouseStatement where
  sequence : ℤ
  stepId : String
  phase : String
  deriving DecidableEq, Repr

/-- The calls on a sink after `run_started`. The thread of the heartbeat is past its wait when the
sink stops at the earliest, so a heartbeat may follow any call. -/
inductive SinkCall where
  | statementStarted (statement : WarehouseStatement)
  | statementCompleted (statement : WarehouseStatement)
  | auditStarted (name : String)
  | auditCompleted (name status : String)
  | heartbeat
  | runCompleted (outcome : String) (completePayload : Bool)
  deriving DecidableEq, Repr

/-- What the surroundings decide about one event: the size of its payload, whether the write of its
row succeeds, and the timestamp of the row. -/
structure Emission where
  renderedBytes : ℕ
  persisted : Bool
  emittedAt : ℤ
  deriving DecidableEq, Repr

structure RunEventSink where
  sequence : ℕ
  rows : List RunEvent
  deriving DecidableEq, Repr

namespace RunEventSink

def emit (sink : RunEventSink) (emission : Emission) (eventKind : RunEventKind)
    (stepId phase : Option String) (payload : RunEventPayload)
    (completePayload : Bool) : RunEventSink where
  sequence := sink.sequence + 1
  rows :=
    if emission.persisted then
      sink.rows ++ [{
        sequence := sink.sequence + 1
        emittedAt := emission.emittedAt
        event := eventKind
        stepId := stepId
        phase := phase
        payload :=
          if completePayload then payload else boundedJson emission.renderedBytes payload }]
    else sink.rows

def call (sink : RunEventSink) : SinkCall × Emission → RunEventSink
  | (.statementStarted statement, emission) =>
    sink.emit emission .statementStarted statement.stepId statement.phase
      { statementSequence := statement.sequence } false
  | (.statementCompleted statement, emission) =>
    sink.emit emission .statementCompleted statement.stepId statement.phase
      { statementSequence := statement.sequence } false
  | (.auditStarted name, emission) =>
    sink.emit emission .auditStarted name "audit" {} false
  | (.auditCompleted name status, emission) =>
    sink.emit emission .auditCompleted name "audit" { status := status } false
  | (.heartbeat, emission) => sink.emit emission .runHeartbeat none none {} false
  | (.runCompleted outcome completePayload, emission) =>
    sink.emit emission .runCompleted none none { outcome := outcome } completePayload

/-- The first event of a run, whose row is written. -/
def runStarted (totalStatements emittedAt : ℤ) : RunEventSink :=
  emit ⟨0, []⟩ ⟨0, true, emittedAt⟩ .runStarted none none
    { totalStatements := totalStatements } true

end RunEventSink

/-- The rows of one run after the listed calls. -/
def sinkRows (totalStatements startedAt : ℤ) (calls : List (SinkCall × Emission)) :
    List RunEvent :=
  (run RunEventSink.call (.runStarted totalStatements startedAt) calls).rows

/-- What the sink writes after `run_started`: no second start, no event of a cancellation, and the
step of every statement and audit. -/
def RunEvent.FromSink (e : RunEvent) : Prop :=
  e.event ≠ .runStarted ∧ e.event ≠ .cancellationCompleted ∧ e.event ≠ .cancellationFailed ∧
    (e.event = .statementStarted ∨ e.event = .auditStarted → e.stepId ≠ none)

/-- The rows of a run: the start, then events of the sink, numbered in the order they happened. -/
structure SinkStream (rows : List RunEvent) (later : List RunEvent) (started : RunEvent) :
    Prop where
  eq : rows = started :: later
  started : started.event = .runStarted
  fromSink : ∀ e ∈ later, e.FromSink
  ordered : rows.Pairwise (·.sequence < ·.sequence)

theorem RunEventSink.call_eq_emit (sink : RunEventSink) (step : SinkCall × Emission) :
    ∃ eventKind stepId phase payload completePayload,
      sink.call step = sink.emit step.2 eventKind stepId phase payload completePayload ∧
      eventKind ≠ .runStarted ∧ eventKind ≠ .cancellationCompleted ∧
      eventKind ≠ .cancellationFailed ∧
      (eventKind = .statementStarted ∨ eventKind = .auditStarted → stepId ≠ none) := by
  obtain ⟨call, emission⟩ := step
  cases call <;> exact ⟨_, _, _, _, _, rfl, by simp⟩

/-- No row has a number above the last one given. -/
structure SinkInv (started : RunEvent) (sink : RunEventSink) : Prop where
  stream : ∃ later, SinkStream sink.rows later started
  bounded : ∀ e ∈ sink.rows, e.sequence ≤ sink.sequence

theorem SinkInv.call {started : RunEvent} {sink : RunEventSink} (h : SinkInv started sink)
    (step : SinkCall × Emission) : SinkInv started (sink.call step) := by
  obtain ⟨⟨later, hstream⟩, hbounded⟩ := h
  obtain ⟨eventKind, stepId, phase, payload, completePayload, hcall, hnotStarted, hnotCompleted,
    hnotFailed, hstep⟩ := sink.call_eq_emit step
  rw [hcall, RunEventSink.emit]
  by_cases hpersisted : step.2.persisted = true
  · rw [if_pos hpersisted]
    constructor
    · refine ⟨later ++ [_], by rw [hstream.eq]; rfl, hstream.started, ?_, ?_⟩
      · intro e he
        rcases List.mem_append.mp he with hold | hnew
        · exact hstream.fromSink e hold
        · rw [List.mem_singleton] at hnew
          subst hnew
          exact ⟨hnotStarted, hnotCompleted, hnotFailed, hstep⟩
      · rw [List.pairwise_append]
        refine ⟨hstream.ordered, List.pairwise_singleton _ _, ?_⟩
        intro e he e' he'
        rw [List.mem_singleton] at he'
        subst he'
        exact Nat.lt_succ_of_le (hbounded e he)
    · intro e he
      rcases List.mem_append.mp he with hold | hnew
      · exact Nat.le_succ_of_le (hbounded e hold)
      · rw [List.mem_singleton] at hnew
        subst hnew
        exact le_rfl
  · rw [if_neg hpersisted]
    exact ⟨⟨later, hstream⟩, fun e he => Nat.le_succ_of_le (hbounded e he)⟩

/-- Every run writes its start first and then events of the sink with increasing numbers. -/
theorem sinkStream_sinkRows (totalStatements startedAt : ℤ) (calls : List (SinkCall × Emission)) :
    ∃ started later, SinkStream (sinkRows totalStatements startedAt calls) later started := by
  obtain ⟨started, hstart⟩ : ∃ started, SinkInv started (.runStarted totalStatements startedAt) :=
    ⟨_, ⟨⟨[], rfl, rfl, by simp, List.pairwise_singleton _ _⟩,
      by simp [RunEventSink.runStarted, RunEventSink.emit]⟩⟩
  have hinv : SinkInv started
      (run RunEventSink.call (.runStarted totalStatements startedAt) calls) :=
    run_invariant RunEventSink.call (fun _ step hsink _ => hsink.call step) hstart
      (along_true RunEventSink.call _ calls)
  obtain ⟨later, hlater⟩ := hinv.stream
  exact ⟨started, later, hlater⟩

end SqlTide.Observability
