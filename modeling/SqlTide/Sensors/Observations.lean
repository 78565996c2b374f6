import SqlTide.Sensors.TickLog
import Mathlib.Data.Prod.Lex

/-!
# Observation streams and the events derived from them

Audits and commands leave rows in two metadata tables. A sensor reads one of them in the order
of `(completed_at, id)` with a keyset cursor: a page holds the first rows after a position. A
row may become visible later than rows with a larger position.
-/

namespace SqlTide.Sensors

open List

/-- One `(completed_at, id)` position in an ordered observation stream. -/
structure SensorStreamPosition where
  completedAt : ℤ
  resultId : String
  deriving DecidableEq, Repr

def positionKey (position : SensorStreamPosition) : ℤ ×ₗ String :=
  toLex (position.completedAt, position.resultId)

theorem positionKey_injective : Function.Injective positionKey := by
  rintro ⟨at₁, id₁⟩ ⟨at₂, id₂⟩ h
  simpa [positionKey] using h

/-- The warehouse and the dispatcher compare positions in the same way. -/
instance : LinearOrder SensorStreamPosition := LinearOrder.lift' positionKey positionKey_injective

def epochPosition : SensorStreamPosition := ⟨0, ""⟩

inductive QualityNodeKind
  | test
  | audit
  deriving DecidableEq, Repr

inductive QualityResultStatus
  | passed
  | warning
  | failed
  | error
  | deferred
  deriving DecidableEq, Repr

/-- `NodeResultObservation`, as far as the dispatcher reads it. -/
structure NodeResultObservation where
  resultId : String
  nodeKind : QualityNodeKind
  targetIdentity : String
  trigger : String
  status : QualityResultStatus
  completedAt : ℤ
  deriving DecidableEq, Repr

/-- `InvocationObservation`, as far as the dispatcher reads it. -/
structure InvocationObservation where
  invocationId : String
  command : String
  targetIdentity : String
  completedAt : ℤ
  deriving DecidableEq, Repr

/-- The two persisted streams. -/
inductive EventSource
  | nodeResults
  | invocations
  deriving DecidableEq, Repr

/-- A row of either stream. -/
inductive Observation
  | nodeResult (row : NodeResultObservation)
  | invocation (row : InvocationObservation)
  deriving DecidableEq, Repr

namespace Observation

def source : Observation → EventSource
  | .nodeResult _ => .nodeResults
  | .invocation _ => .invocations

def position : Observation → SensorStreamPosition
  | .nodeResult row => ⟨row.completedAt, row.resultId⟩
  | .invocation row => ⟨row.completedAt, row.invocationId⟩

def targetIdentity : Observation → String
  | .nodeResult row => row.targetIdentity
  | .invocation row => row.targetIdentity

end Observation

/-- The fields of `AuditCompleted` and `RunCompleted` that the dispatcher looks at. -/
structure SensorEvent where
  eventType : EventType
  id : String
  target : String
  trigger : Option String
  completedAt : ℤ
  deriving DecidableEq, Repr

/-- The values of `ObservedCommand`. -/
def observedCommands : List String :=
  ["audit", "test", "build", "deployment promote", "janitor", "destroy pipelines", "reset target"]

def eventsFromNodeResult (row : NodeResultObservation) (target : String) : List SensorEvent :=
  match row.nodeKind, row.status with
  | .test, _ => []
  | .audit, .deferred => []
  | .audit, .passed | .audit, .warning | .audit, .failed | .audit, .error =>
    [⟨.auditCompleted, row.resultId, target, some row.trigger, row.completedAt⟩]

def eventsFromInvocation (row : InvocationObservation) (target : String) : List SensorEvent :=
  if row.command ∈ observedCommands then
    [⟨.runCompleted, row.invocationId, target, none, row.completedAt⟩]
  else []

def Observation.events (target : String) : Observation → List SensorEvent
  | .nodeResult row => eventsFromNodeResult row target
  | .invocation row => eventsFromInvocation row target

theorem Observation.length_events_le (target : String) (row : Observation) :
    (row.events target).length ≤ 1 := by
  cases row with
  | nodeResult row =>
    simp only [Observation.events, eventsFromNodeResult]
    split <;> simp
  | invocation row =>
    simp only [Observation.events, eventsFromInvocation]
    split_ifs <;> simp

/-- `EventSensorDeclaration`, without the handler itself. Ages are milliseconds. -/
structure EventSensorDeclaration where
  eventType : EventType
  targets : Option (List String)
  triggers : Option (List String)
  maximumEventAge : Option ℤ
  deriving DecidableEq, Repr

def eventSourceFor : EventType → EventSource
  | .auditCompleted => .nodeResults
  | .runCompleted => .invocations

def EventSensorDeclaration.source (declaration : EventSensorDeclaration) : EventSource :=
  eventSourceFor declaration.eventType

def matchesSensor (declaration : EventSensorDeclaration) (event : SensorEvent) : Bool :=
  event.eventType = declaration.eventType &&
    declaration.targets.all (fun targets => event.target ∈ targets) &&
    declaration.triggers.all (fun triggers => event.trigger.any (· ∈ triggers))

/-- `shift_timestamp_text`. -/
def shiftTimestamp (value duration : ℤ) : ℤ := value + duration

def timestampIsBefore (value other : ℤ) : Bool := value < other

/-- The rows of one stream and target. -/
def inStream (source : EventSource) (target : String) (row : Observation) : Bool :=
  row.source = source ∧ row.targetIdentity = target

/-- `node_results_after_query` and `invocations_after_query`. -/
def observationsAfter (observations : List Observation) (source : EventSource) (target : String)
    (position : SensorStreamPosition) (limit : ℕ) : List Observation :=
  ((observations.filter fun row => inStream source target row ∧
    position < row.position).insertionSort
    (·.position ≤ ·.position)).take limit

/-- `ORDER BY .. DESC LIMIT 1`. -/
def newest (positions : List SensorStreamPosition) : Option SensorStreamPosition := positions.max?

/-- `newest_node_result_position` and `newest_invocation_position`. -/
def newestPosition (observations : List Observation) (source : EventSource) (target : String) :
    Option SensorStreamPosition :=
  newest ((observations.filter (inStream source target)).map (·.position))

theorem newest_concat (positions : List SensorStreamPosition) (position : SensorStreamPosition) :
    newest (positions ++ [position]) = some
      ((newest positions).elim position (max · position)) := by
  cases positions with
  | nil => rfl
  | cons first rest =>
    rw [newest, newest, cons_append, max?_cons', max?_cons', foldl_append]
    rfl

/-- No two rows of one stream have one id. -/
def IdsOnce (observations : List Observation) : Prop :=
  (observations.map fun row => (row.source, row.position.resultId)).Nodup

section Pages

variable {observations : List Observation} {source : EventSource} {target : String}
  {position : SensorStreamPosition} {limit : ℕ} {row : Observation}

theorem mem_observationsAfter
    (h : row ∈ observationsAfter observations source target position limit) :
    row ∈ observations ∧ inStream source target row = true ∧ position < row.position := by
  have hmem := (mem_insertionSort _).mp (mem_of_mem_take h)
  simpa using hmem

theorem eq_of_position_eq (hids : IdsOnce observations) {row' : Observation}
    (hrow : row ∈ observations) (hrow' : row' ∈ observations) (hsource : row.source = row'.source)
    (hposition : row.position = row'.position) : row = row' :=
  inj_on_of_nodup_map hids hrow hrow' (by rw [hsource, hposition])

theorem pairwise_rowsAfter (hids : IdsOnce observations) (source : EventSource) (target : String)
    (position : SensorStreamPosition) :
    ((observations.filter fun row => inStream source target row ∧
    position < row.position).insertionSort
      (·.position ≤ ·.position)).Pairwise (·.position < ·.position) := by
  have hsorted := pairwise_insertionSort (fun a b : Observation => a.position ≤ b.position)
    (observations.filter fun row => inStream source target row ∧ position < row.position)
  have hnodup := ((perm_insertionSort (fun a b : Observation => a.position ≤ b.position)
    (observations.filter fun row => inStream source target row ∧
    position < row.position)).nodup_iff).mpr
    (hids.of_map.filter _)
  refine (hsorted.and hnodup).imp_of_mem ?_
  intro a b ha hb hab
  obtain ⟨hle, hne⟩ := hab
  have ha' := (mem_insertionSort _).mp ha
  have hb' := (mem_insertionSort _).mp hb
  simp only [inStream, mem_filter, decide_eq_true_eq] at ha' hb'
  refine lt_of_le_of_ne hle fun heq => hne ?_
  exact eq_of_position_eq hids ha'.1 hb'.1 (ha'.2.1.1.trans hb'.2.1.1.symm) heq

theorem pairwise_observationsAfter (hids : IdsOnce observations) :
    (observationsAfter observations source target position limit).Pairwise
      (·.position < ·.position) :=
  (pairwise_rowsAfter hids source target position).sublist (take_sublist _ _)

theorem mem_observationsAfter_of_le (hids : IdsOnce observations) (hrow : row ∈ observations)
    (hstream : inStream source target row = true) (hafter : position < row.position)
    {last : Observation}
    (hlast : last ∈ observationsAfter observations source target position limit)
    (hle : row.position ≤ last.position) :
    row ∈ observationsAfter observations source target position limit := by
  set rows := (observations.filter fun row =>
    inStream source target row ∧ position < row.position).insertionSort
      (·.position ≤ ·.position) with hrows
  have hmem : row ∈ rows := by
    rw [hrows, mem_insertionSort]
    simp [hrow, hstream, hafter]
  have hsplit : row ∈ rows.take limit ∨ row ∈ rows.drop limit := by
    rw [← mem_append, take_append_drop]
    exact hmem
  refine hsplit.resolve_right fun hdrop => ?_
  have hpairwise := pairwise_rowsAfter hids source target position
  rw [← hrows, ← take_append_drop limit rows, pairwise_append] at hpairwise
  exact absurd hle (not_le.mpr (hpairwise.2.2 last hlast row hdrop))

end Pages

end SqlTide.Sensors
