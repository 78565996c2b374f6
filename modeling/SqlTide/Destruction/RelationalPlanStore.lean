import SqlTide.Foundations.Runs
import SqlTide.Destruction.Serialization

/-!
# The relational destruction plan store

Every call of the store is a sequence of single SQL statements, each in a
transaction of its own, with readings of the clock between them. A call in
flight is the position it has reached; between two of its steps any step of any
other call may run and time may pass.
-/

namespace SqlTide.Destruction

open Foundations Runs

inductive PlanStatus
  | pending
  | reviewed
  | consumed
  | expired
  deriving DecidableEq, Repr

/-- A row of `sqltide_destruction_plans`; the primary key `plan_id` is its index. -/
structure PlanRow where
  actor : String
  payloadVersion : Int
  payloadJson : Json
  payloadSha256 : String
  createdAt : Instant
  expiresAt : Instant
  reviewedAt : Option Instant
  consumedAt : Option Instant
  status : PlanStatus
  deriving DecidableEq, Repr

abbrev PlanTable := String → Option PlanRow

/-- `RelationalStoredDestructionPlan`: a validated row with its plan. -/
structure StoredRow where
  plan : DestructionPlan
  payloadJson : Json
  payloadSha256 : String
  status : PlanStatus
  reviewedAt : Option Instant
  consumedAt : Option Instant
  deriving DecidableEq, Repr

/-- What the store uses of other libraries: the digest of a payload text, and the
text of a failed validation. -/
structure StoreHost where
  sha256Hexdigest : Json → String
  validationMessage : Json → String

/-- The combinations of status and timestamps that a row may have. -/
def PlanRow.validState (row : PlanRow) : Bool :=
  (row.status = .pending && row.reviewedAt.isNone && row.consumedAt.isNone) ||
    (row.status = .reviewed && row.reviewedAt.isSome && row.consumedAt.isNone) ||
    (row.status = .consumed && row.reviewedAt.isSome && row.consumedAt.isSome) ||
    (row.status = .expired && row.consumedAt.isNone)

variable (H : StoreHost)

def storedPlanFromRow (row : PlanRow) (expectedPlanId : String) :
    Except DestructionError StoredRow := do
  if row.payloadVersion ≠ destructionPlanPayloadVersion then
    throw (.planCorrupt "Stored destruction plan payload version is incompatible")
  if row.payloadSha256 ≠ H.sha256Hexdigest row.payloadJson then
    throw (.planCorrupt "Stored destruction plan payload checksum does not match")
  let plan ← deserializeDestructionPlan H.validationMessage row.payloadJson
  if plan.planId ≠ expectedPlanId ∨ plan.createdAt ≠ row.createdAt ∨
      plan.expiresAt ≠ row.expiresAt then
    throw (.planCorrupt
      "Stored destruction plan identity or timestamps do not match its payload")
  if !row.validState then
    throw (.planCorrupt "Stored destruction plan lifecycle state is corrupt")
  pure { plan := plan
         payloadJson := row.payloadJson
         payloadSha256 := row.payloadSha256
         status := row.status
         reviewedAt := row.reviewedAt
         consumedAt := row.consumedAt }

/-- The row that `save` inserts. -/
def PlanRow.ofPlan (plan : DestructionPlan) (actor : String) : PlanRow where
  actor := actor
  payloadVersion := destructionPlanPayloadVersion
  payloadJson := serializeDestructionPlan plan
  payloadSha256 := H.sha256Hexdigest (serializeDestructionPlan plan)
  createdAt := plan.createdAt
  expiresAt := plan.expiresAt
  reviewedAt := none
  consumedAt := none
  status := .pending

/-- The calls that address a saved plan. -/
inductive PlanOperation
  | get
  | reviewedAt
  | markReviewed
  | consume (challengeResponses : List String)
  deriving DecidableEq, Repr

structure PlanCall where
  operation : PlanOperation
  planId : String
  actor : String
  deriving DecidableEq, Repr

/-- `_read`: the row of this plan and this actor, validated. -/
def readPlan (t : PlanTable) (call : PlanCall) : Except DestructionError StoredRow :=
  match t call.planId with
  | some row =>
    if row.actor = call.actor then storedPlanFromRow H row call.planId
    else .error (.planNotFound "Destruction plan was not found for this actor")
  | none => .error (.planNotFound "Destruction plan was not found for this actor")

/-- One `UPDATE ... WHERE plan_id = ... AND ...`, with the number of rows it affected. -/
def updateWhere (t : PlanTable) (planId : String) (condition : PlanRow → Bool)
    (values : PlanRow → PlanRow) : PlanTable × ℕ :=
  match t planId with
  | some row =>
    if condition row then (Function.update t planId (some (values row)), 1) else (t, 0)
  | none => (t, 0)

def markExpired (t : PlanTable) (call : PlanCall) (now : Instant) : PlanTable :=
  (updateWhere t call.planId
    (fun row => row.actor = call.actor ∧ (row.status = .pending ∨ row.status = .reviewed) ∧
      row.expiresAt ≤ now)
    (fun row => { row with status := .expired })).1

def updateReviewed (t : PlanTable) (call : PlanCall) (stored : StoredRow) (now : Instant) :
    PlanTable × ℕ :=
  updateWhere t call.planId
    (fun row => row.actor = call.actor ∧ (row.status = .pending ∨ row.status = .reviewed) ∧
      now < row.expiresAt ∧ row.payloadJson = stored.payloadJson ∧
      row.payloadSha256 = stored.payloadSha256)
    (fun row => { row with status := .reviewed, reviewedAt := some now })

def updateConsumed (t : PlanTable) (call : PlanCall) (stored : StoredRow) (now : Instant) :
    PlanTable × ℕ :=
  updateWhere t call.planId
    (fun row => row.actor = call.actor ∧ row.status = .reviewed ∧ row.reviewedAt.isSome ∧
      row.consumedAt = none ∧ now < row.expiresAt ∧ row.payloadJson = stored.payloadJson ∧
      row.payloadSha256 = stored.payloadSha256)
    (fun row => { row with status := .consumed, consumedAt := some now })

/-- The next statement or clock reading of a call. `again` marks the second
`_require_current`, made after an update that affected no row. -/
inductive CallPhase
  | read (again : Bool)
  | requireCurrent (again : Bool) (stored : StoredRow)
  | markExpired (now : Instant)
  | clock (stored : StoredRow)
  | update (stored : StoredRow) (now : Instant)
  deriving DecidableEq, Repr

inductive PlanResult
  | plan (plan : DestructionPlan)
  | reviewedAt (time : Instant)
  | failed (error : DestructionError)
  deriving DecidableEq, Repr

/-- A call that has ended, with the last clock value it used. -/
inductive Completion
  | saved (plan : DestructionPlan) (actor : String)
  | saveFailed (plan : DestructionPlan) (actor : String) (error : DestructionError)
  | returned (call : PlanCall) (result : PlanResult) (time : Instant)
  deriving DecidableEq, Repr

/-- The table, the clock, the calls in flight by their callers, and the calls that
have ended, the last one first. -/
structure StoreState where
  table : PlanTable
  clock : Instant
  callers : ℕ → Option (PlanCall × CallPhase)
  history : List Completion

namespace StoreState

def empty (clock : Instant) : StoreState :=
  { table := fun _ => none, clock := clock, callers := fun _ => none, history := [] }

/-- The call of `caller` goes on with `phase`. -/
def advance (s : StoreState) (caller : ℕ) (call : PlanCall) (phase : CallPhase) : StoreState :=
  { s with callers := Function.update s.callers caller (some (call, phase)) }

/-- The call of `caller` returns or raises, its last statement having left `table`. -/
def finish (s : StoreState) (caller : ℕ) (call : PlanCall) (table : PlanTable)
    (result : PlanResult) (time : Instant) : StoreState :=
  { s with
    table := table
    callers := Function.update s.callers caller none
    history := .returned call result time :: s.history }

def fail (s : StoreState) (caller : ℕ) (call : PlanCall) (error : DestructionError) :
    StoreState :=
  s.finish caller call s.table (.failed error) s.clock

def record (s : StoreState) (completion : Completion) : StoreState :=
  { s with history := completion :: s.history }

/-- `save`, one `INSERT` statement. -/
def save (s : StoreState) (plan : DestructionPlan) (actor : String) : StoreState :=
  if actor = "" then
    s.record (.saveFailed plan actor (.validation "Destruction plan actor must not be empty"))
  else
    match s.table plan.planId with
    | some _ =>
      s.record (.saveFailed plan actor
        (.validation ("Destruction plan " ++ pyRepr plan.planId ++ " already exists")))
    | none =>
      { s with table := Function.update s.table plan.planId (some (.ofPlan H plan actor)) }.record
        (.saved plan actor)

end StoreState

def notFoundError (call : PlanCall) : DestructionError :=
  .planNotFound ("Destruction plan " ++ pyRepr call.planId ++ " was not found")

def expiredError (call : PlanCall) : DestructionError :=
  .planExpired ("Destruction plan " ++ pyRepr call.planId ++ " has expired")

def notReviewedError (call : PlanCall) : DestructionError :=
  .planNotReviewed ("Destruction plan " ++ pyRepr call.planId ++ " has not been reviewed")

def challengeError : DestructionError :=
  .challenge "Challenge responses must exactly match the frozen plan in order"

/-- The error of an update that affected no row although the plan is current. -/
def changedError (call : PlanCall) : DestructionError :=
  match call.operation with
  | .consume _ =>
    .planNotFound ("Destruction plan " ++ pyRepr call.planId ++ " was already consumed")
  | _ => .planNotFound ("Destruction plan " ++ pyRepr call.planId ++ " changed during review")

/-- What a call does with the current plan that `_require_current` returned. -/
def currentStep (s : StoreState) (caller : ℕ) (call : PlanCall) (stored : StoredRow) :
    StoreState :=
  match call.operation with
  | .get => s.finish caller call s.table (.plan stored.plan) s.clock
  | .reviewedAt =>
    match stored.reviewedAt with
    | none => s.fail caller call (notReviewedError call)
    | some time => s.finish caller call s.table (.reviewedAt time) s.clock
  | .markReviewed => s.advance caller call (.clock stored)
  | .consume challengeResponses =>
    if stored.reviewedAt = none then s.fail caller call (notReviewedError call)
    else if challengeResponses ≠ stored.plan.challenges then s.fail caller call challengeError
    else s.advance caller call (.clock stored)

/-- The conditional `UPDATE` of `mark_reviewed` or `consume`. -/
def updateStep (s : StoreState) (caller : ℕ) (call : PlanCall) (stored : StoredRow)
    (now : Instant) : StoreState :=
  match call.operation with
  | .consume _ =>
    match updateConsumed s.table call stored now with
    | (table, 1) => s.finish caller call table (.plan stored.plan) now
    | (table, _) => { s with table := table }.advance caller call (.read true)
  | _ =>
    match updateReviewed s.table call stored now with
    | (table, 1) => s.finish caller call table (.reviewedAt now) now
    | (table, _) => { s with table := table }.advance caller call (.read true)

/-- One statement, or one reading of the clock, of the call of `caller`. -/
def callerStep (s : StoreState) (caller : ℕ) : StoreState :=
  match s.callers caller with
  | none => s
  | some (call, .read again) =>
    match readPlan H s.table call with
    | .error error => s.fail caller call error
    | .ok stored =>
      if stored.status = .consumed then s.fail caller call (notFoundError call)
      else s.advance caller call (.requireCurrent again stored)
  | some (call, .requireCurrent again stored) =>
    if stored.status = .expired ∨ stored.plan.expiresAt ≤ s.clock then
      s.advance caller call (.markExpired s.clock)
    else if again then s.fail caller call (changedError call)
    else currentStep s caller call stored
  | some (call, .markExpired now) =>
    s.finish caller call (markExpired s.table call now) (.failed (expiredError call)) now
  | some (call, .clock stored) => s.advance caller call (.update stored s.clock)
  | some (call, .update stored now) => updateStep s caller call stored now

/-- What can happen next: a plan is saved, a caller starts a call, takes a step of
it, or is stopped in the middle of it, or time passes. -/
inductive StoreEvent
  | save (plan : DestructionPlan) (actor : String)
  | call (caller : ℕ) (call : PlanCall)
  | step (caller : ℕ)
  | stop (caller : ℕ)
  | tick (now : Instant)
  deriving DecidableEq, Repr

def nextStore (s : StoreState) : StoreEvent → StoreState
  | .save plan actor => StoreState.save H s plan actor
  | .call caller call =>
    match s.callers caller with
    | none => s.advance caller call (.read false)
    | some _ => s
  | .step caller => callerStep H s caller
  | .stop caller => { s with callers := Function.update s.callers caller none }
  | .tick now => { s with clock := max s.clock now }

end SqlTide.Destruction
