import SqlTide.Foundations.Doubles
import SqlTide.Foundations.Runs

/-!
# Backoff of the schedulers after errors

`AuditScheduler` and `SensorScheduler` count their consecutive errors and put the next attempt off
by a delay that doubles with each of them. The counter is unbounded and its power of two becomes a
double before the delay is capped: the 1025th consecutive error is lost in the conversion. Readings
of the monotonic clock are taken as exact.
-/

namespace SqlTide.DevServer

open Doubles Runs

/-- An exception: the name of its type and its message. -/
structure PythonError where
  typeName : String
  message : String
  deriving DecidableEq, Repr

def pollSeconds : ℕ := 10

def maxBackoffSeconds : ℕ := 300

/-- The fields that both schedulers keep under their health lock. -/
structure SchedulerHealth (σ : Type) where
  healthState : σ
  consecutiveErrors : ℕ
  backoffUntil : WithTop ℚ
  latestError : Option String
  lastSuccessfulTick : Option String

/-- One call of `tick` with the readings of the clocks that it can make. -/
structure Tick (ε : Type) where
  checkedAt : ℚ
  environment : ε
  recordedAt : ℚ
  utcNow : String

inductive TickResult (α : Type)
  | waiting
  | returned (value : α)
  | raised (error : PythonError)
  | overflowed (error : OverflowError)
  deriving DecidableEq, Repr

namespace SchedulerHealth

variable {σ : Type}

def secondsUntilAttempt (health : SchedulerHealth σ) (monotonic : ℚ) : WithTop ℚ :=
  max (health.backoffUntil.map (· - monotonic)) 0

def nextTickSeconds (health : SchedulerHealth σ) (monotonic : ℚ) : WithTop ℚ :=
  max (health.secondsUntilAttempt monotonic) ((pollSeconds : ℚ) : WithTop ℚ)

/-- The delay is computed after the counter is written and before anything else is. -/
def recordError (health : SchedulerHealth σ) (delay : ℕ → Except OverflowError (WithTop ℕ))
    (latestError : String) (backingOff : σ) (monotonic : ℚ) :
    SchedulerHealth σ × Except OverflowError Unit :=
  let counted := { health with consecutiveErrors := health.consecutiveErrors + 1 }
  match delay counted.consecutiveErrors with
  | .error overflow => (counted, .error overflow)
  | .ok seconds =>
    ({ counted with
        backoffUntil := monotonic + seconds.map fun (n : ℕ) => (n : ℚ)
        latestError := some latestError
        healthState := backingOff }, .ok ())

def recordSuccess (health : SchedulerHealth σ) (state : σ) (completedAt : String) :
    SchedulerHealth σ :=
  { health with
    consecutiveErrors := 0
    backoffUntil := (0 : ℚ)
    latestError := none
    healthState := state
    lastSuccessfulTick := some completedAt }

/-- What `health` reports; it reads the clock once for each of its two durations. -/
structure Report (σ : Type) where
  state : σ
  consecutiveErrors : ℕ
  latestError : Option String
  backoffSeconds : WithTop ℚ
  nextTickSeconds : WithTop ℚ
  lastSuccessfulTick : Option String

def report (health : SchedulerHealth σ) (monotonic later : ℚ) : Report σ where
  state := health.healthState
  consecutiveErrors := health.consecutiveErrors
  latestError := health.latestError
  backoffSeconds := health.secondsUntilAttempt monotonic
  nextTickSeconds := health.nextTickSeconds later
  lastSuccessfulTick := health.lastSuccessfulTick

end SchedulerHealth

inductive AuditScheduleState
  | disabled
  | idle
  | due
  | scheduled
  | warmingUp
  | notMaterialized
  | running
  | blocked
  | backingOff
  deriving DecidableEq, Repr

structure LocalFeed where
  running : Bool
  invocationId : Option String
  deriving DecidableEq, Repr

structure BlockingBuild where
  invocationId : Option String
  status : String
  deriving DecidableEq, Repr

structure AuditPayload where
  enabled : Bool
  state : AuditScheduleState
  warehouseNow : String
  audits : List AuditScheduleState
  deriving DecidableEq, Repr

/-- What the calls of a tick return, in the order of the calls. -/
structure AuditEnvironment where
  configured : Bool
  localFeed : Except PythonError LocalFeed
  tickLockHeld : Bool
  lockedFeed : Except PythonError LocalFeed
  schedulerEnabled : Except PythonError Bool
  blockingMutatingBuild : Except PythonError (Option BlockingBuild)
  hasActiveScheduledAudit : Except PythonError Bool
  payload : Except PythonError AuditPayload
  executeDueAudits : ℕ → Except PythonError ℕ

/-- How `_tick_once` ends; nothing is recorded where another call holds the tick lock. -/
inductive AuditEnd
  | busy
  | success (state : AuditScheduleState) (completedAt : Option String) (value : ℕ)
  | blocked (warning : String)
  | failed (running : ℕ) (error : PythonError)

/-- `invocation or 'unknown'`. -/
def orUnknown (invocationId : Option String) : String :=
  (invocationId.filter (· ≠ "")).getD "unknown"

def localBuildWarning (feed : LocalFeed) : String :=
  "local build " ++ orUnknown feed.invocationId ++ " is running"

def AuditEnvironment.attempt (env : AuditEnvironment) : Except PythonError AuditEnd := do
  if !env.configured then
    return .success .disabled none 0
  let localFeed ← env.localFeed
  if localFeed.running then
    return .blocked (localBuildWarning localFeed)
  if env.tickLockHeld then
    return .busy
  let lockedFeed ← env.lockedFeed
  if lockedFeed.running then
    return .blocked (localBuildWarning lockedFeed)
  if !(← env.schedulerEnabled) then
    return .success .disabled none 0
  if let some build ← env.blockingMutatingBuild then
    return .blocked ("build " ++ orUnknown build.invocationId ++ " is " ++ build.status)
  if ← env.hasActiveScheduledAudit then
    return .blocked "another scheduler process has an active scheduled audit run"
  let payload ← env.payload
  if !payload.enabled then
    return .success .disabled none 0
  let due := payload.audits.filter (· = .due)
  if due.isEmpty then
    return .success payload.state (some payload.warehouseNow) 0
  match env.executeDueAudits due.length with
  | .error error => return .failed due.length error
  | .ok count => return .success .idle none count

def AuditEnvironment.tickOnce (env : AuditEnvironment) : AuditEnd :=
  match env.attempt with
  | .error error => .failed 0 error
  | .ok ended => ended

/-- Between two calls no audit is running, so that the count of them is left out. -/
structure AuditScheduler extends SchedulerHealth AuditScheduleState

namespace AuditScheduler

def initial (configured : Bool) : AuditScheduler where
  healthState := if configured then .idle else .disabled
  consecutiveErrors := 0
  backoffUntil := (0 : ℚ)
  latestError := none
  lastSuccessfulTick := none

def delay (consecutiveErrors : ℕ) : Except OverflowError (WithTop ℕ) := do
  let factor ← ofNat (2 ^ (consecutiveErrors - 1))
  return min (mul pollSeconds factor) maxBackoffSeconds

def setRunningAuditCount (scheduler : AuditScheduler) (count : ℕ) : AuditScheduler :=
  { scheduler with healthState := if count = 0 then scheduler.healthState else .running }

def recordError (scheduler : AuditScheduler) (error : PythonError) (monotonic : ℚ) :
    AuditScheduler × Except OverflowError Unit :=
  let (health, result) :=
    scheduler.toSchedulerHealth.recordError delay error.message .backingOff monotonic
  (⟨health⟩, result)

def recordSuccess (scheduler : AuditScheduler) (state : AuditScheduleState)
    (completedAt : Option String) (utcNow : String) : AuditScheduler :=
  ⟨scheduler.toSchedulerHealth.recordSuccess state ((completedAt.filter (· ≠ "")).getD utcNow)⟩

def recordBlocked (scheduler : AuditScheduler) (warning utcNow : String) : AuditScheduler :=
  { scheduler.recordSuccess .blocked none utcNow with latestError := some warning }

def tick (scheduler : AuditScheduler) (call : Tick AuditEnvironment) :
    AuditScheduler × TickResult ℕ :=
  if scheduler.secondsUntilAttempt call.checkedAt > 0 then
    (scheduler, .waiting)
  else
    match call.environment.tickOnce with
    | .busy => (scheduler, .returned 0)
    | .success state completedAt value =>
      (scheduler.recordSuccess state completedAt call.utcNow, .returned value)
    | .blocked warning => (scheduler.recordBlocked warning call.utcNow, .returned 0)
    | .failed running error =>
      match (scheduler.setRunningAuditCount running).recordError error call.recordedAt with
      | (recorded, .ok ()) => (recorded, .raised error)
      | (recorded, .error overflow) => (recorded, .overflowed overflow)

end AuditScheduler

inductive SensorSchedulerState
  | disabled
  | idle
  | running
  | standby
  | backingOff
  deriving DecidableEq, Repr

/-- What `health` adds to its report of a `SensorDispatchSummary`. -/
structure DispatchSummary where
  leaseAcquired : Bool
  evaluated : ℕ
  deriving DecidableEq, Repr

structure SensorEnvironment where
  configured : Bool
  tickLockHeld : Bool
  sensorsEnabled : Except PythonError Bool
  hasSensors : Bool
  hasDispatcher : Bool
  dispatchOnce : Except PythonError DispatchSummary
  applyRetention : Except PythonError Unit

inductive SensorEnd
  | busy
  | success (state : SensorSchedulerState) (summary : Option DispatchSummary)
  | failed (error : PythonError)

def SensorEnvironment.attempt (env : SensorEnvironment) : Except PythonError SensorEnd := do
  if !env.configured then
    return .success .disabled none
  if env.tickLockHeld then
    return .busy
  if !(← env.sensorsEnabled) then
    return .success .disabled none
  if !env.hasSensors then
    return .success .disabled none
  if !env.hasDispatcher then
    return .success .disabled none
  let summary ← env.dispatchOnce
  env.applyRetention
  return .success (if summary.leaseAcquired then .idle else .standby) (some summary)

def SensorEnvironment.tickOnce (env : SensorEnvironment) : SensorEnd :=
  match env.attempt with
  | .error error => .failed error
  | .ok ended => ended

structure SensorScheduler extends SchedulerHealth SensorSchedulerState where
  lastSummary : Option DispatchSummary

namespace SensorScheduler

def initial (configured : Bool) : SensorScheduler where
  healthState := if configured then .idle else .disabled
  consecutiveErrors := 0
  backoffUntil := (0 : ℚ)
  latestError := none
  lastSuccessfulTick := none
  lastSummary := none

def delay (consecutiveErrors : ℕ) : Except OverflowError (WithTop ℕ) := do
  let factor ← ofNat (2 ^ (consecutiveErrors - 1))
  return min (maxBackoffSeconds : WithTop ℕ) (mul pollSeconds factor)

def recordError (scheduler : SensorScheduler) (error : PythonError) (monotonic : ℚ) :
    SensorScheduler × Except OverflowError Unit :=
  let (health, result) := scheduler.toSchedulerHealth.recordError delay
    (error.typeName ++ ": " ++ error.message) .backingOff monotonic
  ({ scheduler with toSchedulerHealth := health }, result)

def recordSuccess (scheduler : SensorScheduler) (state : SensorSchedulerState)
    (summary : Option DispatchSummary) (utcNow : String) : SensorScheduler where
  toSchedulerHealth := scheduler.toSchedulerHealth.recordSuccess state utcNow
  lastSummary := summary.or scheduler.lastSummary

def tick (scheduler : SensorScheduler) (call : Tick SensorEnvironment) :
    SensorScheduler × TickResult (Option DispatchSummary) :=
  if scheduler.secondsUntilAttempt call.checkedAt > 0 then
    (scheduler, .waiting)
  else
    match call.environment.tickOnce with
    | .busy => (scheduler, .returned none)
    | .success state summary =>
      (scheduler.recordSuccess state summary call.utcNow, .returned summary)
    | .failed error =>
      match scheduler.recordError error call.recordedAt with
      | (recorded, .ok ()) => (recorded, .raised error)
      | (recorded, .error overflow) => (recorded, .overflowed overflow)

end SensorScheduler

/-- What an attempt is to the backoff. -/
inductive Outcome
  | unrecorded
  | succeeded
  | failed (error : PythonError)
  deriving DecidableEq, Repr

def AuditEnd.outcome : AuditEnd → Outcome
  | .busy => .unrecorded
  | .success _ _ _ => .succeeded
  | .blocked _ => .succeeded
  | .failed _ error => .failed error

def SensorEnd.outcome : SensorEnd → Outcome
  | .busy => .unrecorded
  | .success _ _ => .succeeded
  | .failed error => .failed error

def AuditEnvironment.outcome (env : AuditEnvironment) : Outcome := env.tickOnce.outcome

def SensorEnvironment.outcome (env : SensorEnvironment) : Outcome := env.tickOnce.outcome

/-- The failures since the last success, the latest one first, and when the next attempt is due. -/
structure Backoff where
  failures : List PythonError
  retryAt : ℚ

/-- The delay after the `n`-th consecutive failure. -/
def retryDelay (n : ℕ) : ℕ := min 300 (10 * 2 ^ (n - 1))

namespace Backoff

def initial : Backoff := ⟨[], 0⟩

variable {ε α : Type} (outcome : ε → Outcome)

def next (backoff : Backoff) (call : Tick ε) : Backoff :=
  if call.checkedAt < backoff.retryAt then
    backoff
  else
    match outcome call.environment with
    | .unrecorded => backoff
    | .succeeded => initial
    | .failed error =>
      { failures := error :: backoff.failures
        retryAt := call.recordedAt + retryDelay (backoff.failures.length + 1) }

/-- An attempt is made when it is due, and it ends with its own outcome. -/
def Answers (backoff : Backoff) (call : Tick ε) : TickResult α → Prop
  | .waiting => call.checkedAt < backoff.retryAt
  | .returned _ => backoff.retryAt ≤ call.checkedAt ∧
      ∀ error, outcome call.environment ≠ .failed error
  | .raised error => backoff.retryAt ≤ call.checkedAt ∧ outcome call.environment = .failed error
  | .overflowed _ => False

end Backoff

variable {σ τ ε α : Type}

/-- A scheduler keeps to the backoff: its counter, the time of the next attempt, and the error that
it reports, which is the latest one. -/
structure SchedulerHealth.Agrees (health : SchedulerHealth σ) (text : PythonError → String)
    (backoff : Backoff) : Prop where
  consecutiveErrors : health.consecutiveErrors = backoff.failures.length
  backoffUntil : health.backoffUntil = backoff.retryAt
  reported : ∀ error ∈ backoff.failures.head?, ∀ monotonic later,
    (health.report monotonic later).latestError = some (text error)

/-- What a call of `tick` does, by the outcome of its attempt. -/
structure TickSpec (health : τ → SchedulerHealth σ) (text : PythonError → String)
    (outcome : ε → Outcome) (tick : τ → Tick ε → τ × TickResult α) : Prop where
  waiting : ∀ s call, (health s).secondsUntilAttempt call.checkedAt > 0 →
    tick s call = (s, .waiting)
  unrecorded : ∀ s call, ¬ (health s).secondsUntilAttempt call.checkedAt > 0 →
    outcome call.environment = .unrecorded → ∃ value, tick s call = (s, .returned value)
  succeeded : ∀ s call, ¬ (health s).secondsUntilAttempt call.checkedAt > 0 →
    outcome call.environment = .succeeded →
      ∃ s' value, tick s call = (s', .returned value) ∧
        (health s').consecutiveErrors = 0 ∧ (health s').backoffUntil = (0 : ℚ)
  failed : ∀ s call error, ¬ (health s).secondsUntilAttempt call.checkedAt > 0 →
    outcome call.environment = .failed error → (health s).consecutiveErrors < 1024 →
      ∃ s', tick s call = (s', .raised error) ∧
        (health s').consecutiveErrors = (health s).consecutiveErrors + 1 ∧
        (health s').backoffUntil =
          ((call.recordedAt + retryDelay ((health s).consecutiveErrors + 1) : ℚ) : WithTop ℚ) ∧
        (health s').latestError = some (text error)
  overflowed : ∀ s call error, ¬ (health s).secondsUntilAttempt call.checkedAt > 0 →
    outcome call.environment = .failed error → 1024 ≤ (health s).consecutiveErrors →
      ∃ s' overflow, tick s call = (s', .overflowed overflow)

/-- The scheduler next to the backoff that it is to keep to. -/
def besideBackoff (outcome : ε → Outcome) (tick : τ → Tick ε → τ × TickResult α)
    (s : τ × Backoff) (call : Tick ε) : τ × Backoff :=
  ((tick s.1 call).1, s.2.next outcome call)

/-- The call answers as the backoff says and leaves the scheduler in agreement with it. -/
def KeepsBackoff (health : τ → SchedulerHealth σ) (text : PythonError → String)
    (outcome : ε → Outcome) (tick : τ → Tick ε → τ × TickResult α)
    (s : τ × Backoff) (call : Tick ε) : Prop :=
  s.2.Answers outcome call (tick s.1 call).2 ∧
    (health (tick s.1 call).1).Agrees text (s.2.next outcome call)

/-- A failing attempt finds fewer than 1024 consecutive errors recorded. -/
def FewErrors (health : τ → SchedulerHealth σ) (outcome : ε → Outcome) (s : τ) (call : Tick ε) :
    Prop :=
  (health s).secondsUntilAttempt call.checkedAt > 0 ∨
    (∀ error, outcome call.environment ≠ .failed error) ∨ (health s).consecutiveErrors < 1024

variable {health : SchedulerHealth σ} {error : PythonError} {ended : SensorEnd}

theorem SchedulerHealth.secondsUntilAttempt_pos {retryAt : ℚ} (h : health.backoffUntil = retryAt)
    (monotonic : ℚ) : health.secondsUntilAttempt monotonic > 0 ↔ monotonic < retryAt := by
  have hmap : health.secondsUntilAttempt monotonic =
      max ((retryAt - monotonic : ℚ) : WithTop ℚ) 0 := by
    rw [secondsUntilAttempt, h, WithTop.map_coe]
  rw [hmap, gt_iff_lt, lt_max_iff, or_iff_left (lt_irrefl _), ← WithTop.coe_zero,
    WithTop.coe_lt_coe, sub_pos]

section Runs

variable {health : τ → SchedulerHealth σ} {text : PythonError → String} {outcome : ε → Outcome}
  {tick : τ → Tick ε → τ × TickResult α}

/-- In agreement with the backoff, a call keeps to it exactly where the delay can be computed. -/
theorem TickSpec.keepsBackoff_iff (spec : TickSpec health text outcome tick) {s : τ}
    {backoff : Backoff} (hagrees : (health s).Agrees text backoff) (call : Tick ε) :
    KeepsBackoff health text outcome tick (s, backoff) call ↔ FewErrors health outcome s call := by
  have hpos := SchedulerHealth.secondsUntilAttempt_pos hagrees.backoffUntil call.checkedAt
  by_cases hwait : (health s).secondsUntilAttempt call.checkedAt > 0
  · have hlt := hpos.mp hwait
    refine iff_of_true ?_ (.inl hwait)
    rw [KeepsBackoff, spec.waiting s call hwait, Backoff.next, if_pos hlt]
    exact ⟨hlt, hagrees⟩
  have hnot : ¬ call.checkedAt < backoff.retryAt := fun hlt => hwait (hpos.mpr hlt)
  have hdue : backoff.retryAt ≤ call.checkedAt := not_lt.mp hnot
  cases houtcome : outcome call.environment with
  | unrecorded =>
    obtain ⟨value, htick⟩ := spec.unrecorded s call hwait houtcome
    refine iff_of_true ?_ (.inr (.inl (by simp [houtcome])))
    rw [KeepsBackoff, htick, Backoff.next, if_neg hnot, houtcome]
    exact ⟨⟨hdue, by simp [houtcome]⟩, hagrees⟩
  | succeeded =>
    obtain ⟨s', value, htick, herrors, huntil⟩ := spec.succeeded s call hwait houtcome
    refine iff_of_true ?_ (.inr (.inl (by simp [houtcome])))
    rw [KeepsBackoff, htick, Backoff.next, if_neg hnot, houtcome]
    refine ⟨⟨hdue, by simp [houtcome]⟩, herrors, huntil, ?_⟩
    simp [Backoff.initial]
  | failed error =>
    by_cases hfew : (health s).consecutiveErrors < 1024
    · obtain ⟨s', htick, herrors, huntil, hlatest⟩ := spec.failed s call error hwait houtcome hfew
      refine iff_of_true ?_ (.inr (.inr hfew))
      rw [KeepsBackoff, htick, Backoff.next, if_neg hnot, houtcome]
      rw [hagrees.consecutiveErrors] at herrors huntil
      refine ⟨⟨hdue, houtcome⟩, herrors, huntil, ?_⟩
      rintro latest hhead monotonic later
      obtain rfl : error = latest := by simpa using hhead
      exact hlatest
    · obtain ⟨s', overflow, htick⟩ :=
        spec.overflowed s call error hwait houtcome (not_lt.mp hfew)
      refine iff_of_false ?_ ?_
      · rintro ⟨hanswers, -⟩
        rw [htick] at hanswers
        exact hanswers
      · rintro (h | h | h)
        · exact hwait h
        · exact h error houtcome
        · exact hfew h

/-- A run keeps to the backoff exactly where no failing attempt of it finds 1024 errors. -/
theorem TickSpec.run_keepsBackoff_iff (spec : TickSpec health text outcome tick) {s : τ}
    {backoff : Backoff} (hagrees : (health s).Agrees text backoff) (calls : List (Tick ε)) :
    Along (besideBackoff outcome tick) (KeepsBackoff health text outcome tick) (s, backoff) calls ↔
      Along (fun s call => (tick s call).1) (FewErrors health outcome) s calls := by
  have hproject := along_project (besideBackoff outcome tick) (fun s call => (tick s call).1)
    Prod.fst (fun _ _ => rfl) (FewErrors health outcome) (s, backoff) calls
  rw [← hproject]
  apply along_congr _ (I := fun s => (health s.1).Agrees text s.2)
  · intro s call h
    exact spec.keepsBackoff_iff h call
  · intro s call _ hkeeps
    exact hkeeps.2
  · exact hagrees

end Runs

theorem min_mul_pollSeconds (n : ℕ) :
    min (mul pollSeconds (2 ^ n)) (maxBackoffSeconds : WithTop ℕ) =
      ((retryDelay (n + 1) : ℕ) : WithTop ℕ) := by
  have hcap : maxBackoffSeconds < range :=
    lt_trans (by decide : maxBackoffSeconds < 2 ^ 9) (two_pow_lt_range.mpr (by norm_num))
  rw [min_mul_two_pow (by decide) hcap, min_comm]
  rfl

theorem SchedulerHealth.recordError_of_ok {delay : ℕ → Except OverflowError (WithTop ℕ)}
    {seconds : ℕ} (h : delay (health.consecutiveErrors + 1) = .ok seconds) (latestError : String)
    (backingOff : σ) (monotonic : ℚ) :
    health.recordError delay latestError backingOff monotonic =
      ({ health with
          consecutiveErrors := health.consecutiveErrors + 1
          backoffUntil := ((monotonic + seconds : ℚ) : WithTop ℚ)
          latestError := some latestError
          healthState := backingOff }, .ok ()) := by
  simp only [recordError, h]
  rfl

/-- The counter is kept, while the backoff and the error stay those of the call before. -/
theorem SchedulerHealth.recordError_of_error {delay : ℕ → Except OverflowError (WithTop ℕ)}
    {overflow : OverflowError} (h : delay (health.consecutiveErrors + 1) = .error overflow)
    (latestError : String) (backingOff : σ) (monotonic : ℚ) :
    health.recordError delay latestError backingOff monotonic =
      ({ health with consecutiveErrors := health.consecutiveErrors + 1 }, .error overflow) := by
  simp only [recordError, h]

variable {n : ℕ} {scheduler : AuditScheduler} {text : PythonError → String} {environment : ε}
  {s : τ}

theorem AuditScheduler.delay_of_lt (hn : n < 1024) :
    delay (n + 1) = .ok ((retryDelay (n + 1) : ℕ) : WithTop ℕ) := by
  rw [delay, Nat.add_sub_cancel, ofNat_two_pow_of_lt hn]
  exact congrArg Except.ok (min_mul_pollSeconds n)

theorem AuditScheduler.delay_of_le (hn : 1024 ≤ n) : delay (n + 1) = .error .integerTooLarge := by
  rw [delay, Nat.add_sub_cancel, ofNat_two_pow_of_le hn]
  rfl

/-- The arguments of the minimum are the other way about, which finite delays do not show. -/
theorem SensorScheduler.delay_eq : SensorScheduler.delay = AuditScheduler.delay := by
  funext n
  simp only [delay, AuditScheduler.delay, min_comm]

theorem AuditScheduler.recordError_of_lt
    (h : scheduler.consecutiveErrors < 1024) (error : PythonError) (monotonic : ℚ) :
    ∃ recorded, scheduler.recordError error monotonic = (recorded, .ok ()) ∧
      recorded.consecutiveErrors = scheduler.consecutiveErrors + 1 ∧
      recorded.backoffUntil =
        ((monotonic + retryDelay (scheduler.consecutiveErrors + 1) : ℚ) : WithTop ℚ) ∧
      recorded.latestError = some error.message := by
  have hhealth := SchedulerHealth.recordError_of_ok (delay_of_lt h) error.message .backingOff
    monotonic
  unfold recordError
  rw [hhealth]
  exact ⟨_, rfl, rfl, rfl, rfl⟩

theorem AuditScheduler.recordError_of_le
    (h : 1024 ≤ scheduler.consecutiveErrors) (error : PythonError) (monotonic : ℚ) :
    ∃ recorded, scheduler.recordError error monotonic = (recorded, .error .integerTooLarge) := by
  have hhealth := SchedulerHealth.recordError_of_error (delay_of_le h) error.message .backingOff
    monotonic
  unfold recordError
  rw [hhealth]
  exact ⟨_, rfl⟩

theorem SensorScheduler.recordError_of_lt {scheduler : SensorScheduler}
    (h : scheduler.consecutiveErrors < 1024) (error : PythonError) (monotonic : ℚ) :
    ∃ recorded, scheduler.recordError error monotonic = (recorded, .ok ()) ∧
      recorded.consecutiveErrors = scheduler.consecutiveErrors + 1 ∧
      recorded.backoffUntil =
        ((monotonic + retryDelay (scheduler.consecutiveErrors + 1) : ℚ) : WithTop ℚ) ∧
      recorded.latestError = some (error.typeName ++ ": " ++ error.message) := by
  have hhealth := SchedulerHealth.recordError_of_ok (AuditScheduler.delay_of_lt h)
    (error.typeName ++ ": " ++ error.message) .backingOff monotonic
  unfold recordError
  rw [delay_eq, hhealth]
  exact ⟨_, rfl, rfl, rfl, rfl⟩

theorem SensorScheduler.recordError_of_le {scheduler : SensorScheduler}
    (h : 1024 ≤ scheduler.consecutiveErrors) (error : PythonError) (monotonic : ℚ) :
    ∃ recorded, scheduler.recordError error monotonic = (recorded, .error .integerTooLarge) := by
  have hhealth := SchedulerHealth.recordError_of_error (AuditScheduler.delay_of_le h)
    (error.typeName ++ ": " ++ error.message) .backingOff monotonic
  unfold recordError
  rw [delay_eq, hhealth]
  exact ⟨_, rfl⟩

@[simp] theorem AuditScheduler.setRunningAuditCount_consecutiveErrors (scheduler : AuditScheduler)
    (count : ℕ) :
    (scheduler.setRunningAuditCount count).consecutiveErrors = scheduler.consecutiveErrors := rfl

theorem AuditEnd.outcome_eq_unrecorded {ended : AuditEnd} :
    ended.outcome = .unrecorded ↔ ended = .busy := by
  cases ended <;> simp [outcome]

theorem AuditEnd.outcome_eq_failed {ended : AuditEnd} :
    ended.outcome = .failed error ↔ ∃ running, ended = .failed running error := by
  cases ended <;> simp [outcome]

theorem SensorEnd.outcome_eq_unrecorded : ended.outcome = .unrecorded ↔ ended = .busy := by
  cases ended <;> simp [outcome]

theorem SensorEnd.outcome_eq_succeeded :
    ended.outcome = .succeeded ↔ ∃ state summary, ended = .success state summary := by
  cases ended <;> simp [outcome]

theorem SensorEnd.outcome_eq_failed : ended.outcome = .failed error ↔ ended = .failed error := by
  cases ended <;> simp [outcome]

theorem AuditScheduler.tickSpec :
    TickSpec AuditScheduler.toSchedulerHealth PythonError.message AuditEnvironment.outcome
      AuditScheduler.tick where
  waiting s call h := by
    rw [tick, if_pos h]
  unrecorded s call h houtcome := by
    rw [tick, if_neg h, AuditEnd.outcome_eq_unrecorded.mp houtcome]
    exact ⟨_, rfl⟩
  succeeded s call h houtcome := by
    rw [tick, if_neg h]
    rw [AuditEnvironment.outcome] at houtcome
    cases hend : call.environment.tickOnce with
    | busy => simp [hend, AuditEnd.outcome] at houtcome
    | success state completedAt value => exact ⟨_, _, rfl, rfl, rfl⟩
    | blocked warning => exact ⟨_, _, rfl, rfl, rfl⟩
    | failed running error => simp [hend, AuditEnd.outcome] at houtcome
  failed s call error h houtcome hfew := by
    obtain ⟨running, hend⟩ := AuditEnd.outcome_eq_failed.mp houtcome
    rw [← s.setRunningAuditCount_consecutiveErrors running] at hfew
    obtain ⟨recorded, hrecorded, hfields⟩ := recordError_of_lt hfew error call.recordedAt
    rw [tick, if_neg h, hend]
    dsimp only
    rw [hrecorded]
    exact ⟨recorded, rfl, hfields⟩
  overflowed s call error h houtcome hmany := by
    obtain ⟨running, hend⟩ := AuditEnd.outcome_eq_failed.mp houtcome
    rw [← s.setRunningAuditCount_consecutiveErrors running] at hmany
    obtain ⟨recorded, hrecorded⟩ := recordError_of_le hmany error call.recordedAt
    rw [tick, if_neg h, hend]
    dsimp only
    rw [hrecorded]
    exact ⟨recorded, _, rfl⟩

theorem SensorScheduler.tickSpec :
    TickSpec SensorScheduler.toSchedulerHealth
      (fun error => error.typeName ++ ": " ++ error.message) SensorEnvironment.outcome
      SensorScheduler.tick where
  waiting s call h := by
    rw [tick, if_pos h]
  unrecorded s call h houtcome := by
    rw [tick, if_neg h, SensorEnd.outcome_eq_unrecorded.mp houtcome]
    exact ⟨_, rfl⟩
  succeeded s call h houtcome := by
    obtain ⟨state, summary, hend⟩ := SensorEnd.outcome_eq_succeeded.mp houtcome
    rw [tick, if_neg h, hend]
    exact ⟨_, _, rfl, rfl, rfl⟩
  failed s call error h houtcome hfew := by
    obtain ⟨recorded, hrecorded, hfields⟩ := recordError_of_lt hfew error call.recordedAt
    rw [tick, if_neg h, SensorEnd.outcome_eq_failed.mp houtcome]
    dsimp only
    rw [hrecorded]
    exact ⟨recorded, rfl, hfields⟩
  overflowed s call error h houtcome hmany := by
    obtain ⟨recorded, hrecorded⟩ := recordError_of_le hmany error call.recordedAt
    rw [tick, if_neg h, SensorEnd.outcome_eq_failed.mp houtcome]
    dsimp only
    rw [hrecorded]
    exact ⟨recorded, _, rfl⟩

/-- Recording an error never fails, the delays double up to the cap and hold off every attempt, and
the error that is reported is the latest one: in both schedulers, in exactly those runs where no
attempt fails after 1024 errors in a row. -/
theorem schedulers_keep_backoff_iff (configured : Bool) :
    (∀ calls, Along (besideBackoff AuditEnvironment.outcome AuditScheduler.tick)
        (KeepsBackoff AuditScheduler.toSchedulerHealth PythonError.message
          AuditEnvironment.outcome AuditScheduler.tick)
        (AuditScheduler.initial configured, Backoff.initial) calls ↔
      Along (fun s call => (AuditScheduler.tick s call).1)
        (FewErrors AuditScheduler.toSchedulerHealth AuditEnvironment.outcome)
        (AuditScheduler.initial configured) calls) ∧
    (∀ calls, Along (besideBackoff SensorEnvironment.outcome SensorScheduler.tick)
        (KeepsBackoff SensorScheduler.toSchedulerHealth
          (fun error => error.typeName ++ ": " ++ error.message)
          SensorEnvironment.outcome SensorScheduler.tick)
        (SensorScheduler.initial configured, Backoff.initial) calls ↔
      Along (fun s call => (SensorScheduler.tick s call).1)
        (FewErrors SensorScheduler.toSchedulerHealth SensorEnvironment.outcome)
        (SensorScheduler.initial configured) calls) := by
  constructor
  · intro calls
    apply AuditScheduler.tickSpec.run_keepsBackoff_iff
    exact ⟨rfl, rfl, by simp [Backoff.initial]⟩
  · intro calls
    apply SensorScheduler.tickSpec.run_keepsBackoff_iff
    exact ⟨rfl, rfl, by simp [Backoff.initial]⟩

/-- Attempts that fail one after the other, 300 seconds apart. -/
def outage (environment : ε) (n : ℕ) : List (Tick ε) :=
  (List.range n).map fun (k : ℕ) => ⟨300 * k, environment, 300 * k, ""⟩

theorem outage_succ (environment : ε) (n : ℕ) :
    outage environment (n + 1) =
      outage environment n ++ [⟨300 * n, environment, 300 * n, ""⟩] := by
  simp [outage, List.range_succ]

theorem TickSpec.run_outage {health : τ → SchedulerHealth σ} {outcome : ε → Outcome}
    {tick : τ → Tick ε → τ × TickResult α} (spec : TickSpec health text outcome tick)
    (hfails : outcome environment = .failed error)
    (hstart : (health s).consecutiveErrors = 0 ∧ (health s).backoffUntil = (0 : ℚ)) (n : ℕ)
    (hn : n ≤ 1024) :
    (health (run (fun s call => (tick s call).1) s (outage environment n))).consecutiveErrors = n ∧
      ∃ retryAt : ℚ, retryAt ≤ 300 * n ∧
        (health (run (fun s call => (tick s call).1) s (outage environment n))).backoffUntil =
          retryAt := by
  induction n with
  | zero => exact ⟨hstart.1, 0, by simp, hstart.2⟩
  | succ n ih =>
    obtain ⟨herrors, retryAt, hretry, huntil⟩ := ih (by omega)
    rw [outage_succ, run_append]
    generalize run (fun s call => (tick s call).1) s (outage environment n) = reached at *
    have hdue : ¬ (health reached).secondsUntilAttempt (300 * n) > 0 := by
      rw [SchedulerHealth.secondsUntilAttempt_pos huntil]
      exact not_lt.mpr hretry
    obtain ⟨s', htick, herrors', huntil', -⟩ := spec.failed reached
      ⟨300 * n, environment, 300 * n, ""⟩ error hdue hfails (by omega)
    simp only [run_cons, run_nil, htick]
    refine ⟨by omega, _, ?_, huntil'⟩
    have hdelay : ((retryDelay ((health reached).consecutiveErrors + 1) : ℕ) : ℚ) ≤ 300 := by
      exact_mod_cast min_le_left _ _
    push_cast
    linarith

theorem TickSpec.not_keepsBackoff_outage {health : τ → SchedulerHealth σ} {outcome : ε → Outcome}
    {tick : τ → Tick ε → τ × TickResult α} (spec : TickSpec health text outcome tick)
    (hfails : outcome environment = .failed error)
    (hagrees : (health s).Agrees text Backoff.initial) :
    ¬ Along (besideBackoff outcome tick) (KeepsBackoff health text outcome tick)
      (s, Backoff.initial) (outage environment 1025) := by
  rw [spec.run_keepsBackoff_iff hagrees, outage_succ, along_append]
  rintro ⟨-, hfew, -⟩
  obtain ⟨herrors, retryAt, hretry, huntil⟩ :=
    spec.run_outage hfails ⟨hagrees.consecutiveErrors, hagrees.backoffUntil⟩ 1024 le_rfl
  rcases hfew with hwait | hother | hless
  · rw [SchedulerHealth.secondsUntilAttempt_pos huntil] at hwait
    exact absurd hwait (not_lt.mpr hretry)
  · exact hother error hfails
  · omega

def unreachableAudits : AuditEnvironment where
  configured := true
  localFeed := .ok ⟨false, none⟩
  tickLockHeld := false
  lockedFeed := .ok ⟨false, none⟩
  schedulerEnabled := .ok true
  blockingMutatingBuild := .error ⟨"OperationalError", "connection refused"⟩
  hasActiveScheduledAudit := .ok false
  payload := .error ⟨"OperationalError", "connection refused"⟩
  executeDueAudits := fun _ => .ok 0

def unreachableSensors : SensorEnvironment where
  configured := true
  tickLockHeld := false
  sensorsEnabled := .ok true
  hasSensors := true
  hasDispatcher := true
  dispatchOnce := .error ⟨"OperationalError", "connection refused"⟩
  applyRetention := .ok ()

theorem schedulers_lose_error_after_1024 :
    ¬ Along (besideBackoff AuditEnvironment.outcome AuditScheduler.tick)
        (KeepsBackoff AuditScheduler.toSchedulerHealth PythonError.message
          AuditEnvironment.outcome AuditScheduler.tick)
        (AuditScheduler.initial true, Backoff.initial) (outage unreachableAudits 1025) ∧
    ¬ Along (besideBackoff SensorEnvironment.outcome SensorScheduler.tick)
        (KeepsBackoff SensorScheduler.toSchedulerHealth
          (fun error => error.typeName ++ ": " ++ error.message)
          SensorEnvironment.outcome SensorScheduler.tick)
        (SensorScheduler.initial true, Backoff.initial) (outage unreachableSensors 1025) := by
  constructor
  · apply AuditScheduler.tickSpec.not_keepsBackoff_outage
    · rfl
    · exact ⟨rfl, rfl, by simp [Backoff.initial]⟩
  · apply SensorScheduler.tickSpec.not_keepsBackoff_outage
    · rfl
    · exact ⟨rfl, rfl, by simp [Backoff.initial]⟩

end SqlTide.DevServer
