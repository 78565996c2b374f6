import SqlTide.Foundations.Runs
import SqlTide.Sensors.TickLog

/-!
# Durable steps of a handler

A handler memoizes a side effect under a key: the runner reads the markers of the key, writes
one, calls the function and writes the result. A handler that timed out is not stopped, so the
calls of a later attempt come between the reads and writes of an earlier one. Every read, write
and call is a step of its own here, and any attempt can die before any of them.
-/

namespace SqlTide.Sensors

open SqlTide.Runs Function

inductive StepPolicy
  | atLeastOnce
  | atMostOnce
  deriving DecidableEq, Repr

structure StepKey where
  sensorName : String
  eventId : String
  stepKey : String
  deriving DecidableEq, Repr

structure AdapterSensorStepRecord where
  key : StepKey
  policy : StepPolicy
  status : SensorTickStatus
  attempt : ℕ
  resultJson : Option String
  errorMessage : Option String
  deriving DecidableEq, Repr

structure StepMarker where
  status : SensorTickStatus
  resultJson : Option String
  attempt : ℕ
  deriving DecidableEq, Repr

/-- `step_markers_query`; the records are listed in the order in which they were written. -/
def stepMarkers (records : List AdapterSensorStepRecord) (key : StepKey) :
    List AdapterSensorStepRecord := records.filter (·.key = key)

def readStep (records : List AdapterSensorStepRecord) (key : StepKey) : Option StepMarker :=
  let rows := stepMarkers records key
  (rows.map (·.attempt)).max?.map fun attempt =>
    match (rows.filter (·.status = .succeeded)).getLast? with
    | some row => { status := .succeeded, resultJson := row.resultJson, attempt }
    | none =>
      { status := if rows.any (·.status = .failed) then .failed else .started
        resultJson := none
        attempt }

structure StepRequest where
  key : StepKey
  policy : StepPolicy
  deriving DecidableEq, Repr

/-- How the function of a step ends. A value is given by its JSON text. -/
inductive FunctionOutcome
  | returned (resultJson : String)
  | notSerializable (error : String)
  | raised (error : String)
  deriving DecidableEq, Repr

/-- What `DurableStepRunner.run` gives to the handler. -/
inductive StepResult
  | value (resultJson : String)
  | sensorStepError (message : String)
  | functionError (error : String)
  deriving DecidableEq, Repr

/-- Where one call of `DurableStepRunner.run` is. -/
inductive StepPhase
  | idle
  | readStep (request : StepRequest)
  | recordStarted (request : StepRequest)
  | invoke (request : StepRequest) (attempt : ℕ)
  | recordResult (record : AdapterSensorStepRecord) (result : StepResult)
  | finished (result : Option StepResult)
  deriving DecidableEq, Repr

def decodeResult (stepKey : String) : Option String → StepResult
  | none => .sensorStepError ("Step '" ++ stepKey ++ "' succeeded without a memoized result")
  | some resultJson => .value resultJson

/-- `run`, after the markers have been read. -/
def afterRead (request : StepRequest) (existing : Option StepMarker) : StepPhase :=
  match existing, request.policy with
  | some marker, policy =>
    if marker.status = .succeeded then
      .finished (decodeResult request.key.stepKey marker.resultJson)
    else match policy with
      | .atMostOnce => .finished (StepResult.sensorStepError
        ("Step '" ++ request.key.stepKey ++ "' was already attempted under at-most-once policy " ++
          "and produced no memoized result"))
      | .atLeastOnce => .invoke request (marker.attempt + 1)
  | none, .atMostOnce => .recordStarted request
  | none, .atLeastOnce => .invoke request 1

def startedRecord (request : StepRequest) : AdapterSensorStepRecord :=
  { key := request.key
    policy := request.policy
    status := .started
    attempt := 1
    resultJson := none
    errorMessage := none }

/-- `_run_at_least_once` and `_run_at_most_once`, after the function. Only the latter records a
failure of the function, and neither records a value it cannot encode. -/
def afterInvoke (request : StepRequest) (attempt : ℕ) : FunctionOutcome → StepPhase
  | .returned resultJson =>
    .recordResult
      { key := request.key
        policy := request.policy
        status := .succeeded
        attempt
        resultJson := some resultJson
        errorMessage := none }
      (.value resultJson)
  | .notSerializable error => .finished (StepResult.sensorStepError
    ("Step '" ++ request.key.stepKey ++ "' returned a value that is not JSON-serializable: " ++
      error))
  | .raised error =>
    match request.policy with
    | .atLeastOnce => .finished (StepResult.functionError error)
    | .atMostOnce =>
      .recordResult
        { key := request.key
          policy := .atMostOnce
          status := .failed
          attempt
          resultJson := none
          errorMessage := some error }
        (.functionError error)

/-- The records of the warehouse, the calls of `run` made so far by number, and, for the proofs,
the keys of the function calls. -/
structure StepState where
  records : List AdapterSensorStepRecord
  calls : ℕ → StepPhase
  invocations : List StepKey

inductive StepEvent
  | run (call : ℕ) (request : StepRequest)
  | step (call : ℕ) (outcome : FunctionOutcome)
  | crash (call : ℕ)

namespace StepState

variable (state : StepState)

def goto (call : ℕ) (phase : StepPhase) : StepState :=
  { state with calls := update state.calls call phase }

def recordStep (record : AdapterSensorStepRecord) : StepState :=
  { state with records := state.records ++ [record] }

/-- One read, write or function call. -/
def stepCall (call : ℕ) (outcome : FunctionOutcome) : StepState :=
  match state.calls call with
  | .idle | .finished _ => state
  | .readStep request => state.goto call (afterRead request (readStep state.records request.key))
  | .recordStarted request =>
    (state.recordStep (startedRecord request)).goto call (.invoke request 1)
  | .invoke request attempt =>
    { state with invocations := state.invocations ++ [request.key] }.goto call
      (afterInvoke request attempt outcome)
  | .recordResult record result => (state.recordStep record).goto call (.finished result)

end StepState

def nextStep (state : StepState) : StepEvent → StepState
  | .run call request => if state.calls call = .idle then state.goto call
    (.readStep request) else state
  | .step call outcome => state.stepCall call outcome
  | .crash call => state.goto call (.finished none)

def StepState.fresh : StepState := ⟨[], fun _ => .idle, []⟩

variable {state : StepState} {key : StepKey} {call : ℕ}

/-- The function of the key has been called at most once. -/
def InvokedAtMostOnce (key : StepKey) (state : StepState) : Prop := state.invocations.count key ≤ 1

instance (key : StepKey) (state : StepState) : Decidable (InvokedAtMostOnce key state) :=
  inferInstanceAs (Decidable (_ ≤ _))

/-- The key is always used with the at-most-once policy. -/
def UsedAtMostOnce (key : StepKey) : StepEvent → Prop
  | .run _ request => request.key = key → request.policy = .atMostOnce
  | .step _ _ | .crash _ => True

instance (key : StepKey) : DecidablePred (UsedAtMostOnce key)
  | .run _ request => inferInstanceAs (Decidable (request.key = key → request.policy = .atMostOnce))
  | .step _ _ | .crash _ => isTrue trivial

/-- The call that is about to write STARTED. -/
def StepPhase.starting? : StepPhase → Option StepRequest
  | .recordStarted request => some request
  | _ => none

/-- A call of the key that is about to write STARTED, having read that there is no marker, is
right about that. -/
def Unraced (key : StepKey) (state : StepState) : StepEvent → Prop
  | .step call _ => ∀ request ∈ (state.calls call).starting?, request.key = key →
    stepMarkers state.records key = []
  | .run _ _ | .crash _ => True

instance (key : StepKey) (state : StepState) : DecidablePred (Unraced key state)
  | .step call _ => inferInstanceAs (Decidable (∀ request ∈ (state.calls call).starting?,
    request.key = key → stepMarkers state.records key = []))
  | .run _ _ | .crash _ => isTrue trivial

/-- The calls of a key are at-most-once calls, and until one of them has written a marker the
function is not about to be called. -/
structure StepInv (key : StepKey) (state : StepState) : Prop where
  reading : ∀ call request, state.calls call = .readStep request → request.key = key →
    request.policy = .atMostOnce
  unmarked : stepMarkers state.records key = [] → state.invocations.count key = 0 ∧
    ∀ call request attempt, state.calls call = .invoke request attempt → request.key ≠ key
  atMostOnce : state.invocations.count key ≤ 1
  invoking : ∀ call request attempt, state.calls call = .invoke request attempt →
    request.key = key → state.invocations.count key = 0 ∧
      ∀ call' request' attempt', state.calls call' = .invoke request' attempt' →
        request'.key = key → call' = call

namespace StepInv

section

variable (h : StepInv key state)

include h

/-- A call goes on to a phase in which the function of the key is not called. -/
theorem goto {phase : StepPhase}
    (hreading : ∀ request, phase = .readStep request → request.key = key →
      request.policy = .atMostOnce)
    (hinvoking : ∀ request attempt, phase = .invoke request attempt → request.key ≠ key) :
    StepInv key (state.goto call phase) := by
  have hinvoke : ∀ call' request attempt, (state.goto call phase).calls call' =
      .invoke request attempt → request.key = key →
        state.calls call' = .invoke request attempt := by
    intro call' request attempt hcall hkey
    by_cases hsame : call' = call
    · subst hsame
      simp only [StepState.goto, update_self] at hcall
      exact absurd hkey (hinvoking request attempt hcall)
    · simpa [StepState.goto, update_of_ne hsame] using hcall
  refine ⟨?_, ?_, h.atMostOnce, ?_⟩
  · intro call' request hcall hkey
    by_cases hsame : call' = call
    · subst hsame
      simp only [StepState.goto, update_self] at hcall
      exact hreading request hcall hkey
    · exact h.reading call' request
        (by simpa [StepState.goto, update_of_ne hsame] using hcall)
        hkey
  · intro hmarkers
    obtain ⟨hcount, hnone⟩ := h.unmarked hmarkers
    exact ⟨hcount, fun call' request attempt hcall hkey =>
      hnone call' request attempt (hinvoke call' request attempt hcall hkey) hkey⟩
  · intro call' request attempt hcall hkey
    obtain ⟨hcount, honly⟩ := h.invoking call' request attempt
      (hinvoke call' request attempt hcall hkey) hkey
    exact ⟨hcount, fun call'' request' attempt' hcall' hkey' =>
      honly call'' request' attempt' (hinvoke call'' request' attempt' hcall' hkey') hkey'⟩

theorem recordStep (record : AdapterSensorStepRecord) : StepInv key (state.recordStep record) := by
  refine ⟨h.reading, fun hmarkers => h.unmarked ?_, h.atMostOnce, h.invoking⟩
  have happend : stepMarkers state.records key ++ stepMarkers [record] key = [] := by
    simpa only [StepState.recordStep, stepMarkers, List.filter_append] using hmarkers
  exact (List.append_eq_nil_iff.mp happend).1

/-- The call that writes the first marker is the only one about to call the function. -/
theorem recordStarted {request : StepRequest} (hkey : request.key = key)
    (hmarkers : stepMarkers state.records key = []) :
    StepInv key ((state.recordStep (startedRecord request)).goto call (.invoke request 1)) := by
  obtain ⟨hcount, hnone⟩ := h.unmarked hmarkers
  have honly : ∀ call' request' attempt', ((state.recordStep (startedRecord request)).goto call
      (.invoke request 1)).calls call' = .invoke request' attempt' → request'.key = key →
        call' = call := by
    intro call' request' attempt' hcall hkey'
    by_contra hne
    simp only [StepState.goto, StepState.recordStep, update_of_ne hne] at hcall
    exact hnone call' request' attempt' hcall hkey'
  refine ⟨?_, ?_, h.atMostOnce, ?_⟩
  · intro call' request' hcall hkey'
    by_cases hsame : call' = call
    · subst hsame
      simp [StepState.goto] at hcall
    · exact h.reading call' request'
        (by simpa [StepState.goto, StepState.recordStep, update_of_ne hsame] using hcall)
        hkey'
  · intro hmarkers'
    simp [StepState.goto, StepState.recordStep, stepMarkers, startedRecord, hkey] at hmarkers'
  · intro call' request' attempt' hcall hkey'
    obtain rfl := honly call' request' attempt' hcall hkey'
    exact ⟨hcount, honly⟩

theorem invoke {request : StepRequest} {attempt : ℕ}
    (hcall : state.calls call = .invoke request attempt) (hkey : request.key = key)
    {phase : StepPhase} (hphase : ∀ request' attempt', phase ≠ .invoke request' attempt')
    (hreading : ∀ request', phase ≠ .readStep request') :
    StepInv key ({ state with invocations := state.invocations ++ [request.key] }.goto call
      phase) := by
  obtain ⟨hcount, honly⟩ := h.invoking call request attempt hcall hkey
  have hnone : ∀ call' request' attempt',
      ({ state with invocations := state.invocations ++ [request.key] }.goto call phase).calls
        call' = .invoke request' attempt' → request'.key ≠ key := by
    intro call' request' attempt' hcall' hkey'
    by_cases hsame : call' = call
    · subst hsame
      simp only [StepState.goto, update_self] at hcall'
      exact hphase request' attempt' hcall'
    · simp only [StepState.goto, update_of_ne hsame] at hcall'
      exact hsame (honly call' request' attempt' hcall' hkey')
  refine ⟨?_, ?_, ?_, ?_⟩
  · intro call' request' hcall' hkey'
    by_cases hsame : call' = call
    · subst hsame
      simp only [StepState.goto, update_self] at hcall'
      exact absurd hcall' (hreading request')
    · exact h.reading call' request'
        (by simpa [StepState.goto, update_of_ne hsame] using hcall') hkey'
  · intro hmarkers
    exact absurd hkey ((h.unmarked hmarkers).2 call request attempt hcall)
  · simp [StepState.goto, List.count_append, hkey, hcount]
  · intro call' request' attempt' hcall' hkey'
    exact absurd hkey' (hnone call' request' attempt' hcall')

theorem invokeOther {other : StepKey} (hother : other ≠ key) :
    StepInv key { state with invocations := state.invocations ++ [other] } := by
  have hcount : (state.invocations ++ [other]).count key = state.invocations.count key := by
    simp [List.count_append, hother]
  refine ⟨h.reading, ?_, ?_, ?_⟩
  · rw [hcount]
    exact h.unmarked
  · rw [hcount]
    exact h.atMostOnce
  · rw [hcount]
    exact h.invoking

theorem stepCall (outcome : FunctionOutcome) (hunraced : Unraced key state (.step call outcome)) :
    StepInv key (state.stepCall call outcome) := by
  unfold StepState.stepCall
  cases hcall : state.calls call with
  | idle => exact h
  | finished result => exact h
  | readStep request =>
    refine h.goto ?_ ?_
    · intro request' hphase
      unfold afterRead at hphase
      split at hphase
      · split_ifs at hphase
        split at hphase <;> simp at hphase
      · simp at hphase
      · simp at hphase
    · -- Only an at-least-once call goes on to the function at once.
      intro request' attempt hphase hkey
      have hrequest : request'.policy = .atLeastOnce ∧ request' = request := by
        unfold afterRead at hphase
        split at hphase
        · split_ifs at hphase
          split at hphase
          · simp at hphase
          · next hpolicy =>
            obtain ⟨rfl, -⟩ := StepPhase.invoke.inj hphase
            exact ⟨hpolicy, rfl⟩
        · simp at hphase
        · next hpolicy =>
          obtain ⟨rfl, -⟩ := StepPhase.invoke.inj hphase
          exact ⟨hpolicy, rfl⟩
      obtain ⟨hpolicy, rfl⟩ := hrequest
      have := h.reading call request' hcall hkey
      rw [hpolicy] at this
      exact absurd this (by simp)
  | recordStarted request =>
    by_cases hkey : request.key = key
    · exact h.recordStarted hkey (hunraced request (by rw [hcall]; rfl) hkey)
    · refine (h.recordStep _).goto (by simp) ?_
      intro request' attempt hphase
      obtain ⟨rfl, -⟩ := StepPhase.invoke.inj hphase
      exact hkey
  | invoke request attempt =>
    have hphase : ∀ request' attempt', afterInvoke request attempt outcome ≠
        .invoke request' attempt' := by
      intro request' attempt'
      cases outcome <;> simp only [afterInvoke]
      · simp
      · simp
      · split <;> simp
    have hreading : ∀ request', afterInvoke request attempt outcome ≠ .readStep request' := by
      intro request'
      cases outcome <;> simp only [afterInvoke]
      · simp
      · simp
      · split <;> simp
    by_cases hkey : request.key = key
    · exact h.invoke hcall hkey hphase hreading
    · exact (h.invokeOther hkey).goto (fun request' heq => absurd heq (hreading request'))
        fun request' attempt' heq => absurd heq (hphase request' attempt')
  | recordResult record result => exact (h.recordStep record).goto (by simp) (by simp)

theorem next {e : StepEvent} (hused : UsedAtMostOnce key e)
    (hunraced : Unraced key state e) : StepInv key (nextStep state e) := by
  cases e with
  | run call request =>
    simp only [nextStep]
    split_ifs
    · refine h.goto ?_ (by simp)
      intro request' hphase hkey
      obtain rfl := StepPhase.readStep.inj hphase
      exact hused hkey
    · exact h
  | step call outcome => exact h.stepCall outcome hunraced
  | crash call => exact h.goto (by simp) (by simp)

end

theorem fresh (key : StepKey) : StepInv key .fresh :=
  ⟨by simp [StepState.fresh], by simp [StepState.fresh], by simp [StepState.fresh],
    by simp [StepState.fresh]⟩

end StepInv

/-- The function of a key that is always used at most once is called at most once, unless two
calls write STARTED after both have read that there is no marker. -/
theorem run_invokedAtMostOnce {events : List StepEvent} (hused : ∀ e ∈ events, UsedAtMostOnce key e)
    (hunraced : Along nextStep (Unraced key) .fresh events) :
    InvokedAtMostOnce key (run nextStep .fresh events) :=
  have hinv : StepInv key (run nextStep .fresh events) :=
    run_invariant nextStep (fun _ _ h hallowed => h.next hallowed.1 hallowed.2) (.fresh key)
      (hunraced.and_forall _ hused)
  hinv.atMostOnce

def chargeKey : StepKey := ⟨"audit_alert", "r1", "charge"⟩

def chargeOnce : StepRequest := ⟨chargeKey, .atMostOnce⟩

/-- The first call hangs in the function, and the retry of the handler is refused. -/
theorem run_invokedAtMostOnce_refused :
    InvokedAtMostOnce chargeKey (run nextStep .fresh
      [.run 0 chargeOnce, .step 0 (.returned "1"), .step 0 (.returned "1"),
        .step 0 (.returned "1"), .run 1 chargeOnce, .step 1 (.returned "1"), .crash 0]) :=
  run_invokedAtMostOnce (by decide) (by decide)

/-- The first call hangs between its read and its marker, and the retry of the handler reads that
there is none. -/
theorem not_run_invokedAtMostOnce :
    ¬ ∀ (key : StepKey) (events : List StepEvent), (∀ e ∈ events, UsedAtMostOnce key e) →
      InvokedAtMostOnce key (run nextStep .fresh events) := by
  intro h
  have htwice := h chargeKey
    [.run 0 chargeOnce, .step 0 (.returned "1"), .run 1 chargeOnce, .step 1 (.returned "1"),
      .step 1 (.returned "1"), .step 1 (.returned "1"), .step 0 (.returned "1"),
      .step 0 (.returned "1")] (by decide)
  exact absurd htwice (by decide)

end SqlTide.Sensors
