import SqlTide.Destruction.PlanConsumption

/-!
# The two destruction plan stores

The in-memory store deletes a plan when it is consumed or found expired; the
relational store keeps its row. A call on the relational store made while no
other is in flight is the run of its own statements. Both stores give the same
answers to the same calls as long as no plan is saved under the id of a plan
that has been consumed or has expired: there the in-memory store starts afresh
and the relational store refuses.
-/

namespace SqlTide.Destruction

open Foundations Runs StoreState Function

/-- `StoredDestructionPlan`. -/
structure MemoryPlan where
  plan : DestructionPlan
  actor : String
  reviewedAt : Option Instant := none
  deriving DecidableEq, Repr

abbrev MemoryStore := String → Option MemoryPlan

def memorySave (m : MemoryStore) (plan : DestructionPlan) (actor : String) :
    MemoryStore × Except DestructionError Unit :=
  match m plan.planId with
  | some _ => (m, .error (.validation
      ("Destruction plan " ++ pyRepr plan.planId ++ " already exists")))
  | none =>
    if actor = "" then (m, .error (.validation "Destruction plan actor must not be empty"))
    else (update m plan.planId (some { plan := plan, actor := actor }), .ok ())

/-- `_require_current`, which deletes a plan it finds expired, whoever asks. -/
def memoryRequireCurrent (m : MemoryStore) (call : PlanCall) (now : Instant) :
    MemoryStore × Except DestructionError MemoryPlan :=
  match m call.planId with
  | none => (m, .error (notFoundError call))
  | some stored =>
    if stored.plan.expiresAt ≤ now then
      (update m call.planId none, .error (expiredError call))
    else (m, .ok stored)

def requireActor (stored : MemoryPlan) (call : PlanCall) : Except DestructionError MemoryPlan :=
  if stored.actor ≠ call.actor then
    .error (.planNotFound "Destruction plan was not found for this actor")
  else .ok stored

/-- What a call does with the plan it may see. -/
def memoryOperation (m : MemoryStore) (call : PlanCall) (stored : MemoryPlan) (now : Instant) :
    MemoryStore × PlanResult :=
  match call.operation with
  | .get => (m, .plan stored.plan)
  | .reviewedAt =>
    match stored.reviewedAt with
    | none => (m, .failed (notReviewedError call))
    | some time => (m, .reviewedAt time)
  | .markReviewed =>
    (update m call.planId (some { stored with reviewedAt := some now }), .reviewedAt now)
  | .consume challengeResponses =>
    if stored.reviewedAt = none then (m, .failed (notReviewedError call))
    else if challengeResponses ≠ stored.plan.challenges then (m, .failed challengeError)
    else (update m call.planId none, .plan stored.plan)

def memoryCall (m : MemoryStore) (call : PlanCall) (now : Instant) : MemoryStore × PlanResult :=
  match memoryRequireCurrent m call now with
  | (m, .error error) => (m, .failed error)
  | (m, .ok stored) =>
    match requireActor stored call with
    | .error error => (m, .failed error)
    | .ok stored => memoryOperation m call stored now

variable (H : StoreHost)

/-- No call is longer than seven steps. -/
def callAlone (s : StoreState) (call : PlanCall) : StoreState :=
  run (nextStore H) s (.call 0 call :: List.replicate 7 (.step 0))

/-- The call has ended and no other one is in flight. -/
def StoreState.done (s : StoreState) (call : PlanCall) (t : PlanTable) (result : PlanResult)
    (time : Instant) : StoreState :=
  { s with table := t, history := .returned call result time :: s.history }

/-- The table and the answer a call alone leaves, when it reads `stored`. -/
def currentOutcome (t : PlanTable) (call : PlanCall) (stored : StoredRow) (now : Instant) :
    PlanTable × PlanResult :=
  match call.operation with
  | .get => (t, .plan stored.plan)
  | .reviewedAt =>
    match stored.reviewedAt with
    | none => (t, .failed (notReviewedError call))
    | some time => (t, .reviewedAt time)
  | .markReviewed => ((updateReviewed t call stored now).1, .reviewedAt now)
  | .consume challengeResponses =>
    if stored.reviewedAt = none then (t, .failed (notReviewedError call))
    else if challengeResponses ≠ stored.plan.challenges then (t, .failed challengeError)
    else ((updateConsumed t call stored now).1, .plan stored.plan)

def relationalOutcome (t : PlanTable) (call : PlanCall) (now : Instant) : PlanTable × PlanResult :=
  match readPlan H t call with
  | .error error => (t, .failed error)
  | .ok stored =>
    if stored.status = .consumed then (t, .failed (notFoundError call))
    else if stored.status = .expired ∨ stored.plan.expiresAt ≤ now then
      (markExpired t call now, .failed (expiredError call))
    else currentOutcome t call stored now

variable {H} {s : StoreState}

@[simp] theorem StoreState.advance_advance (s : StoreState) (caller : ℕ) (call : PlanCall)
    (phase phase' : CallPhase) :
    (s.advance caller call phase).advance caller call phase' = s.advance caller call phase' := by
  simp [advance]

variable {caller : ℕ} {t : PlanTable} {stored : StoredRow} {now : Instant}

theorem StoreState.finish_advance (hidle : s.callers caller = none) (call : PlanCall)
    (phase : CallPhase) (t : PlanTable) (result : PlanResult) (time : Instant) :
    (s.advance caller call phase).finish caller call t result time =
      s.done call t result time := by
  have hback : update s.callers caller none = s.callers := by
    rw [← hidle, update_eq_self]
  simp [advance, finish, done, hback]

theorem run_steps_idle (hidle : s.callers caller = none) (n : ℕ) :
    run (nextStore H) s (List.replicate n (.step caller)) = s := by
  induction n with
  | zero => rfl
  | succ n ih => simpa [List.replicate_succ, nextStore, callerStep, hidle] using ih

/-- The `UPDATE` of a review affects the row that was just read as current. -/
theorem updateReviewed_of_read {call : PlanCall}
    (hread : readPlan H t call = .ok stored) (hconsumed : stored.status ≠ .consumed)
    (hcurrent : ¬ (stored.status = .expired ∨ stored.plan.expiresAt ≤ now)) :
    ∃ row, t call.planId = some row ∧ ReadsAs H row call.planId stored ∧
      updateReviewed t call stored now = (update t call.planId
        (some { row with status := .reviewed, reviewedAt := some now }), 1) := by
  obtain ⟨row, hrow, hactor, hreads⟩ := readPlan_ok hread
  refine ⟨row, hrow, hreads, ?_⟩
  simp only [not_or, not_le] at hcurrent
  rw [hreads.status] at hconsumed hcurrent
  rw [hreads.expiresAt] at hcurrent
  have hstatus : row.status = .pending ∨ row.status = .reviewed := by
    cases hstatus : row.status <;> simp_all
  simp [updateReviewed, updateWhere, hrow, hactor, hstatus, hcurrent.2, hreads.payloadJson,
    hreads.payloadSha256]

/-- The `UPDATE` of a consumption affects the row that was just read as reviewed. -/
theorem updateConsumed_of_read {call : PlanCall}
    (hread : readPlan H t call = .ok stored) (hconsumed : stored.status ≠ .consumed)
    (hcurrent : ¬ (stored.status = .expired ∨ stored.plan.expiresAt ≤ now))
    (hreviewed : stored.reviewedAt ≠ none) :
    ∃ row, t call.planId = some row ∧ ReadsAs H row call.planId stored ∧
      updateConsumed t call stored now = (update t call.planId
        (some { row with status := .consumed, consumedAt := some now }), 1) := by
  obtain ⟨row, hrow, hactor, hreads⟩ := readPlan_ok hread
  refine ⟨row, hrow, hreads, ?_⟩
  have hvalid := hreads.valid
  simp only [not_or, not_le] at hcurrent
  rw [hreads.status] at hconsumed hcurrent
  rw [hreads.expiresAt] at hcurrent
  rw [hreads.reviewedAt] at hreviewed
  have hsome : row.reviewedAt.isSome = true := by simpa [Option.isSome_iff_ne_none] using hreviewed
  have hstate : row.status = .reviewed ∧ row.consumedAt = none := by
    cases hstatus : row.status <;> simp_all [PlanRow.validState]
  simp [updateConsumed, updateWhere, hrow, hactor, hstate, hsome, hcurrent.2, hreads.payloadJson,
    hreads.payloadSha256]

theorem run_advance (s : StoreState) (caller : ℕ) (call : PlanCall) (phase : CallPhase) (n : ℕ) :
    run (nextStore H) (s.advance caller call phase) (List.replicate (n + 1) (.step caller)) =
      run (nextStore H) (callerStep H (s.advance caller call phase) caller)
        (List.replicate n (.step caller)) := rfl

@[simp] theorem StoreState.advance_callers (s : StoreState) (caller : ℕ) (call : PlanCall)
    (phase : CallPhase) : (s.advance caller call phase).callers caller = some (call, phase) := by
  simp [advance]

@[simp] theorem StoreState.advance_table (s : StoreState) (caller : ℕ) (call : PlanCall)
    (phase : CallPhase) : (s.advance caller call phase).table = s.table := rfl

@[simp] theorem StoreState.advance_clock (s : StoreState) (caller : ℕ) (call : PlanCall)
    (phase : CallPhase) : (s.advance caller call phase).clock = s.clock := rfl

/-- The run of a call alone, from the point where it has read a current plan. -/
theorem run_current (hidle : s.callers 0 = none) {call : PlanCall}
    (hread : readPlan H s.table call = .ok stored) (hconsumed : stored.status ≠ .consumed)
    (hcurrent : ¬ (stored.status = .expired ∨ stored.plan.expiresAt ≤ s.clock)) :
    run (nextStore H) (s.advance 0 call (.requireCurrent false stored))
        (List.replicate 6 (.step 0)) =
      s.done call (currentOutcome s.table call stored s.clock).1
        (currentOutcome s.table call stored s.clock).2 s.clock := by
  have hdone : ∀ n t result time, run (nextStore H) (s.done call t result time)
      (List.replicate n (.step 0)) = s.done call t result time :=
    fun n t result time => run_steps_idle (s := s.done call t result time) hidle n
  rw [run_advance]
  simp only [callerStep, advance_callers, advance_clock, hcurrent, if_false, Bool.false_eq_true]
  cases hop : call.operation with
  | get =>
    simp only [currentStep, currentOutcome, hop, advance_table, advance_clock,
      finish_advance hidle, hdone]
  | reviewedAt =>
    cases hreviewed : stored.reviewedAt <;>
      simp only [currentStep, currentOutcome, hop, hreviewed, fail,
        advance_table, advance_clock, finish_advance hidle, hdone]
  | markReviewed =>
    obtain ⟨row, -, -, hupdate⟩ := updateReviewed_of_read hread hconsumed hcurrent
    simp only [currentStep, hop, advance_advance]
    rw [run_advance]
    simp only [callerStep, advance_callers, advance_advance, advance_clock]
    rw [run_advance]
    simp only [callerStep, advance_callers, updateStep, hop, advance_table,
      hupdate, finish_advance hidle, hdone, currentOutcome]
  | consume responses =>
    simp only [currentStep, currentOutcome, hop]
    split_ifs with hreviewed hresponses
    · simp only [fail, advance_table, advance_clock, finish_advance hidle, hdone]
    · simp only [fail, advance_table, advance_clock, finish_advance hidle, hdone]
    · obtain ⟨row, -, -, hupdate⟩ := updateConsumed_of_read hread hconsumed hcurrent hreviewed
      simp only [advance_advance]
      rw [run_advance]
      simp only [callerStep, advance_callers, advance_advance, advance_clock]
      rw [run_advance]
      simp only [callerStep, advance_callers, updateStep, hop, advance_table,
        hupdate, finish_advance hidle, hdone]

theorem callAlone_eq (hidle : s.callers 0 = none) (call : PlanCall) :
    callAlone H s call = s.done call (relationalOutcome H s.table call s.clock).1
      (relationalOutcome H s.table call s.clock).2 s.clock := by
  have hdone : ∀ n t result time, run (nextStore H) (s.done call t result time)
      (List.replicate n (.step 0)) = s.done call t result time :=
    fun n t result time => run_steps_idle (s := s.done call t result time) hidle n
  have hstart : callAlone H s call =
      run (nextStore H) (s.advance 0 call (.read false)) (List.replicate 7 (.step 0)) := by
    simp [callAlone, nextStore, hidle]
  rw [hstart, run_advance]
  simp only [callerStep, advance_callers, advance_table, relationalOutcome]
  cases hread : readPlan H s.table call with
  | error error =>
    simp only [fail, advance_table, advance_clock, finish_advance hidle, hdone]
  | ok stored =>
    by_cases hconsumed : stored.status = .consumed
    · simp only [hconsumed, if_true, fail, advance_table,
        advance_clock, finish_advance hidle, hdone]
    · simp only [hconsumed, if_false, advance_advance]
      by_cases hcurrent : stored.status = .expired ∨ stored.plan.expiresAt ≤ s.clock
      · rw [run_advance]
        simp only [callerStep, advance_callers, advance_clock, hcurrent, if_true, advance_advance]
        rw [run_advance]
        simp only [callerStep, advance_callers, advance_table, finish_advance hidle, hdone]
      · rw [run_current hidle hread hconsumed hcurrent]
        simp only [hcurrent, if_false]

/-- A plan the in-memory store holds, and its row. -/
structure LiveRow (H : StoreHost) (clock : Instant) (id : String) (stored : MemoryPlan)
    (row : PlanRow) : Prop where
  planId : stored.plan.planId = id
  frozen : row.frozen = .ofPlan H stored.plan stored.actor
  reviewedAt : row.reviewedAt = stored.reviewedAt
  valid : row.validState = true
  notConsumed : row.status ≠ .consumed
  expired : row.status = .expired → row.expiresAt ≤ clock
  ordered : stored.plan.createdAt < stored.plan.expiresAt

/-- A row of a plan that the in-memory store has given up. -/
def PlanRow.Dead (clock : Instant) (row : PlanRow) : Prop :=
  row.status = .consumed ∨ row.expiresAt ≤ clock

def RowsMatch (H : StoreHost) (clock : Instant) (id : String) :
    Option MemoryPlan → Option PlanRow → Prop
  | none, none => True
  | none, some row => row.Dead clock
  | some stored, some row => LiveRow H clock id stored row
  | some _, none => False

section Matching

variable {clock : Instant} {m : MemoryStore} {t : PlanTable} {call : PlanCall}

variable {id : String} {stored : MemoryPlan} {row : PlanRow}

theorem LiveRow.expiresAt
    (h : LiveRow H clock id stored row) : row.expiresAt = stored.plan.expiresAt :=
  congrArg PlanRow.expiresAt h.frozen

theorem LiveRow.actor (h : LiveRow H clock id stored row) : row.actor = stored.actor :=
  congrArg PlanRow.actor h.frozen

/-- The row of a live plan is read as that plan, by the actor that saved it. -/
theorem LiveRow.readPlan (h : LiveRow H clock call.planId stored row)
    (hrow : t call.planId = some row) (hactor : stored.actor = call.actor) :
    readPlan H t call = .ok ⟨stored.plan, row.payloadJson, row.payloadSha256, row.status,
      row.reviewedAt, row.consumedAt⟩ := by
  have hversion : row.payloadVersion = destructionPlanPayloadVersion :=
    congrArg PlanRow.payloadVersion h.frozen
  have hpayload : row.payloadJson = serializeDestructionPlan stored.plan :=
    congrArg PlanRow.payloadJson h.frozen
  have hdigest : row.payloadSha256 = H.sha256Hexdigest row.payloadJson :=
    (congrArg PlanRow.payloadSha256 h.frozen).trans (congrArg H.sha256Hexdigest hpayload).symm
  have hcreated : row.createdAt = stored.plan.createdAt := congrArg PlanRow.createdAt h.frozen
  have hplan : deserializeDestructionPlan H.validationMessage row.payloadJson =
      .ok stored.plan := by
    rw [hpayload, deserialize_serialize, if_neg (not_le.mpr h.ordered)]
  simp only [Destruction.readPlan, hrow, h.actor, hactor, if_true, storedPlanFromRow, hversion,
    hdigest, ne_eq, not_true_eq_false, if_false, hplan, h.planId, hcreated, h.expiresAt, or_self,
    h.valid, Bool.not_true, Bool.false_eq_true, bind, Except.bind, pure, Except.pure]

theorem readPlan_other_actor (hrow : t call.planId = some row)
    (hactor : row.actor ≠ call.actor) : ∃ error, readPlan H t call = .error error := by
  simp [Destruction.readPlan, hrow, hactor]

theorem updateWhere_other {id' : String} (hne : id' ≠ id) (condition : PlanRow → Bool)
    (values : PlanRow → PlanRow) : (updateWhere t id condition values).1 id' = t id' := by
  unfold updateWhere
  split
  · split_ifs
    · simp [hne]
    · rfl
  · rfl

theorem currentOutcome_other (hne : id ≠ call.planId) (stored : StoredRow) :
    (currentOutcome t call stored clock).1 id = t id := by
  unfold currentOutcome
  split
  · rfl
  · split <;> rfl
  · exact updateWhere_other hne _ _
  · split_ifs
    · rfl
    · rfl
    · exact updateWhere_other hne _ _

theorem relationalOutcome_other (hne : id ≠ call.planId) :
    (relationalOutcome H t call clock).1 id = t id := by
  unfold relationalOutcome
  split
  · rfl
  · split_ifs
    · rfl
    · exact updateWhere_other hne _ _
    · exact currentOutcome_other hne _

theorem memoryCall_absent (hstored : m call.planId = none) :
    memoryCall m call clock = (m, .failed (notFoundError call)) := by
  simp [memoryCall, memoryRequireCurrent, hstored]

theorem memoryCall_expired (hstored : m call.planId = some stored)
    (hexpired : stored.plan.expiresAt ≤ clock) :
    memoryCall m call clock =
      (update m call.planId none, .failed (expiredError call)) := by
  simp [memoryCall, memoryRequireCurrent, hstored, hexpired]

theorem memoryCall_foreign (hstored : m call.planId = some stored)
    (hcurrent : ¬ stored.plan.expiresAt ≤ clock) (hactor : stored.actor ≠ call.actor) :
    memoryCall m call clock =
      (m, .failed (.planNotFound "Destruction plan was not found for this actor")) := by
  simp [memoryCall, memoryRequireCurrent, hstored, hcurrent, requireActor, hactor]

theorem memoryCall_current (hstored : m call.planId = some stored)
    (hcurrent : ¬ stored.plan.expiresAt ≤ clock) (hactor : stored.actor = call.actor) :
    memoryCall m call clock = memoryOperation m call stored clock := by
  simp [memoryCall, memoryRequireCurrent, hstored, hcurrent, requireActor, hactor]

theorem memoryOperation_other (hne : id ≠ call.planId) (stored : MemoryPlan) :
    (memoryOperation m call stored clock).1 id = m id := by
  unfold memoryOperation
  split
  · rfl
  · split <;> rfl
  · simp [hne]
  · split_ifs
    · rfl
    · rfl
    · simp [hne]

theorem memoryCall_other (hne : id ≠ call.planId) : (memoryCall m call clock).1 id = m id := by
  cases hstored : m call.planId with
  | none => rw [memoryCall_absent hstored]
  | some stored =>
    by_cases hexpired : stored.plan.expiresAt ≤ clock
    · rw [memoryCall_expired hstored hexpired]
      simp [hne]
    · by_cases hactor : stored.actor = call.actor
      · rw [memoryCall_current hstored hexpired hactor]
        exact memoryOperation_other hne stored
      · rw [memoryCall_foreign hstored hexpired hactor]

/-- What a call returned, if it returned. -/
def PlanResult.success : PlanResult → Option PlanResult
  | .failed _ => none
  | result => some result

theorem relationalOutcome_dead (hrow : t call.planId = some row) (hdead : row.Dead clock) :
    (relationalOutcome H t call clock).2.success = none ∧
      ∃ row', (relationalOutcome H t call clock).1 call.planId = some row' ∧ row'.Dead clock := by
  unfold relationalOutcome
  cases hread : readPlan H t call with
  | error error => exact ⟨rfl, row, hrow, hdead⟩
  | ok stored =>
    obtain ⟨row', hrow', -, hreads⟩ := readPlan_ok hread
    obtain rfl : row = row' := by simpa [hrow] using hrow'
    simp only
    split_ifs with hconsumed hexpired
    · exact ⟨rfl, row, hrow, hdead⟩
    · refine ⟨rfl, ?_⟩
      obtain ⟨row'', hrow'', hfrozen, hsame⟩ := persists_markExpired t call clock _ _ hrow
      refine ⟨row'', hrow'', ?_⟩
      rcases hdead with hstatus | hexpires
      · exact .inl (by rw [hsame hstatus, hstatus])
      · have hsame : row''.frozen.expiresAt = row.frozen.expiresAt := by rw [hfrozen]
        change row''.expiresAt = row.expiresAt at hsame
        exact .inr (hsame ▸ hexpires)
    · simp only [not_or, hreads.status, hreads.expiresAt] at hexpired hconsumed
      rcases hdead with hstatus | hexpires
      · exact absurd hstatus hconsumed
      · exact absurd hexpires hexpired.2

/-- A plan that both stores hold gets the same treatment from both. -/
theorem operation_agrees (h : LiveRow H clock call.planId stored row)
    (hstored : m call.planId = some stored) (hrow : t call.planId = some row)
    (hactor : stored.actor = call.actor) (hcurrent : ¬ stored.plan.expiresAt ≤ clock) :
    (memoryOperation m call stored clock).2 =
        (relationalOutcome H t call clock).2 ∧
      RowsMatch H clock call.planId ((memoryOperation m call stored clock).1 call.planId)
        ((relationalOutcome H t call clock).1 call.planId) := by
  have hread := h.readPlan hrow hactor
  have hlive : ¬ (row.status = .expired ∨ stored.plan.expiresAt ≤ clock) := by
    rintro (hstatus | hexpires)
    · exact hcurrent (h.expiresAt ▸ h.expired hstatus)
    · exact hcurrent hexpires
  have hmatch : RowsMatch H clock call.planId (m call.planId) (t call.planId) := by
    rw [hstored, hrow]
    exact h
  have houtcome := relationalOutcome.eq_1 H t call clock
  simp only [hread, h.notConsumed, hlive, if_false] at houtcome
  rw [houtcome]
  unfold memoryOperation currentOutcome
  cases hop : call.operation with
  | get => exact ⟨rfl, hmatch⟩
  | reviewedAt =>
    simp only [h.reviewedAt]
    cases stored.reviewedAt <;> exact ⟨rfl, hmatch⟩
  | markReviewed =>
    obtain ⟨row', hrow', -, hupdate⟩ := updateReviewed_of_read hread h.notConsumed hlive
    obtain rfl : row = row' := by simpa [hrow] using hrow'
    refine ⟨rfl, ?_⟩
    simp only [hupdate, update_self]
    have hvalid := h.valid
    refine ⟨h.planId, h.frozen, rfl, ?_, by simp, by simp, h.ordered⟩
    have hnotConsumed := h.notConsumed
    simp only [not_or] at hlive
    cases hstatus : row.status <;> simp_all [PlanRow.validState]
  | consume responses =>
    simp only [h.reviewedAt]
    split_ifs with hreviewed hresponses
    · exact ⟨rfl, hmatch⟩
    · exact ⟨rfl, hmatch⟩
    · have hsome : row.reviewedAt ≠ none := h.reviewedAt ▸ hreviewed
      obtain ⟨row', hrow', -, hupdate⟩ :=
        updateConsumed_of_read hread h.notConsumed hlive hsome
      refine ⟨rfl, ?_⟩
      rw [← h.reviewedAt]
      simp only [hupdate, update_self]
      exact .inl rfl

/-- One call, whatever it is, keeps the stores matched and gets the same answer. -/
theorem call_agrees (h : ∀ id, RowsMatch H clock id (m id) (t id)) (call : PlanCall) :
    (memoryCall m call clock).2.success = (relationalOutcome H t call clock).2.success ∧
      ∀ id, RowsMatch H clock id ((memoryCall m call clock).1 id)
        ((relationalOutcome H t call clock).1 id) := by
  suffices hsame : (memoryCall m call clock).2.success =
      (relationalOutcome H t call clock).2.success ∧
        RowsMatch H clock call.planId ((memoryCall m call clock).1 call.planId)
          ((relationalOutcome H t call clock).1 call.planId) by
    refine ⟨hsame.1, ?_⟩
    intro id
    by_cases hid : id = call.planId
    · exact hid ▸ hsame.2
    · rw [memoryCall_other hid, relationalOutcome_other hid]
      exact h id
  have hmatch := h call.planId
  cases hstored : m call.planId with
  | none =>
    rw [memoryCall_absent hstored]
    cases hrow : t call.planId with
    | none => simp [relationalOutcome, readPlan, hrow, hstored, PlanResult.success, RowsMatch]
    | some row =>
      rw [hstored, hrow] at hmatch
      obtain ⟨hnone, row', hrow', hdead⟩ := relationalOutcome_dead (H := H) hrow hmatch
      refine ⟨hnone.symm, ?_⟩
      simp only [hstored, hrow']
      exact hdead
  | some stored =>
    cases hrow : t call.planId with
    | none => simp [hstored, hrow, RowsMatch] at hmatch
    | some row =>
      rw [hstored, hrow] at hmatch
      by_cases hexpired : stored.plan.expiresAt ≤ clock
      · have hdead : row.Dead clock := .inr (LiveRow.expiresAt hmatch ▸ hexpired)
        obtain ⟨hnone, row', hrow', hdead'⟩ := relationalOutcome_dead (H := H) hrow hdead
        rw [memoryCall_expired hstored hexpired]
        refine ⟨hnone.symm, ?_⟩
        simp only [hrow', update_self]
        exact hdead'
      · by_cases hactor : stored.actor = call.actor
        · obtain ⟨hresult, hrows⟩ := operation_agrees hmatch hstored hrow hactor hexpired
          rw [memoryCall_current hstored hexpired hactor]
          exact ⟨congrArg PlanResult.success hresult, hrows⟩
        · have hactor' : row.actor ≠ call.actor := LiveRow.actor hmatch ▸ hactor
          obtain ⟨error, herror⟩ := readPlan_other_actor (H := H) hrow hactor'
          rw [memoryCall_foreign hstored hexpired hactor]
          simp only [relationalOutcome, herror, hstored, hrow]
          exact ⟨rfl, hmatch⟩

end Matching

inductive StoreCall
  | save (plan : DestructionPlan) (actor : String)
  | call (call : PlanCall)
  deriving DecidableEq, Repr

structure BothStores where
  memory : MemoryStore
  relational : StoreState

def BothStores.empty (clock : Instant) : BothStores := ⟨fun _ => none, .empty clock⟩

/-- A call made at `now`, or at the last clock value if that is later. -/
abbrev TimedCall := Instant × StoreCall

section Sequences

variable (H)

def BothStores.clock (b : BothStores) (now : Instant) : Instant := max b.relational.clock now

def nextBoth (b : BothStores) : TimedCall → BothStores
  | (now, .save plan actor) =>
    { memory := (memorySave b.memory plan actor).1
      relational := nextStore H (nextStore H b.relational (.tick now)) (.save plan actor) }
  | (now, .call call) =>
    { memory := (memoryCall b.memory call (b.clock now)).1
      relational := callAlone H (nextStore H b.relational (.tick now)) call }

def lastResult : List Completion → Option PlanResult
  | .returned _ result _ :: _ => some result
  | _ => none

/-- What each store answers to a call made now. -/
def memoryAnswer (b : BothStores) (now : Instant) (call : PlanCall) : PlanResult :=
  (memoryCall b.memory call (b.clock now)).2

def relationalAnswer (b : BothStores) (now : Instant) (call : PlanCall) : Option PlanResult :=
  lastResult (callAlone H (nextStore H b.relational (.tick now)) call).history

/-- A saved plan ends after it begins, and its id is not that of a plan that has been
consumed or has expired. -/
def FreshSave (b : BothStores) : TimedCall → Prop
  | (now, .save plan _) =>
    plan.createdAt < plan.expiresAt ∧
      ∀ row, b.relational.table plan.planId = some row →
        row.status ≠ .consumed ∧ b.clock now < row.expiresAt
  | (_, .call _) => True

instance (b : BothStores) (e : TimedCall) : Decidable (FreshSave b e) :=
  match e with
  | (now, .save plan _) =>
    match h : b.relational.table plan.planId with
    | none => decidable_of_iff (plan.createdAt < plan.expiresAt) (by simp [FreshSave, h])
    | some row => decidable_of_iff (plan.createdAt < plan.expiresAt ∧
        row.status ≠ .consumed ∧ b.clock now < row.expiresAt) (by simp [FreshSave, h])
  | (_, .call _) => instDecidableTrue

/-- A `consume` succeeds on one store exactly when it does on the other, and returns
the same plan. -/
def ConsumeAgrees (b : BothStores) : Prop :=
  ∀ now planId challengeResponses actor plan,
    memoryAnswer b now ⟨.consume challengeResponses, planId, actor⟩ = .plan plan ↔
      relationalAnswer H b now ⟨.consume challengeResponses, planId, actor⟩ = some (.plan plan)

/-- A `mark_reviewed` succeeds on one store exactly when it does on the other. -/
def ReviewAgrees (b : BothStores) : Prop :=
  ∀ now planId actor,
    (∃ time, memoryAnswer b now ⟨.markReviewed, planId, actor⟩ = .reviewedAt time) ↔
      ∃ time, relationalAnswer H b now ⟨.markReviewed, planId, actor⟩ = some (.reviewedAt time)

/-- The stores hold the same live plans and no relational call is in flight. -/
structure Matched (b : BothStores) : Prop where
  idle : b.relational.callers 0 = none
  rows : ∀ id, RowsMatch H b.relational.clock id (b.memory id) (b.relational.table id)

variable {H} {b : BothStores}

theorem RowsMatch.later {clock clock' : Instant} (hclock : clock ≤ clock') {id : String}
    {stored : Option MemoryPlan} {row : Option PlanRow} (h : RowsMatch H clock id stored row) :
    RowsMatch H clock' id stored row := by
  cases stored with
  | none =>
    cases row with
    | none => trivial
    | some row => exact h.imp_right fun hexpires => hexpires.trans hclock
  | some stored =>
    cases row with
    | none => exact h
    | some row => exact { h with expired := fun hstatus => (h.expired hstatus).trans hclock }

/-- A call now: the relational call is the run of its own statements. -/
theorem Matched.call (h : Matched H b) (now : Instant) (call : PlanCall) :
    (∃ result, relationalAnswer H b now call = some result ∧
        result.success = (memoryAnswer b now call).success) ∧
      Matched H (nextBoth H b (now, .call call)) := by
  have hrows : ∀ id, RowsMatch H (b.clock now) id (b.memory id) (b.relational.table id) :=
    fun id => (h.rows id).later (le_max_left _ _)
  have halone := callAlone_eq (H := H) (s := nextStore H b.relational (.tick now)) h.idle call
  obtain ⟨hresult, hnext⟩ := call_agrees hrows call
  constructor
  · refine ⟨(relationalOutcome H b.relational.table call (b.clock now)).2, ?_, hresult.symm⟩
    rw [relationalAnswer, halone]
    rfl
  · constructor
    · simp only [Destruction.nextBoth, halone]
      exact h.idle
    · simp only [Destruction.nextBoth, halone]
      exact hnext

theorem Matched.save (h : Matched H b) {now : Instant} {plan : DestructionPlan} {actor : String}
    (fresh : FreshSave b (now, .save plan actor)) :
    Matched H (nextBoth H b (now, .save plan actor)) := by
  have hrows : ∀ id, RowsMatch H (b.clock now) id (b.memory id) (b.relational.table id) :=
    fun id => (h.rows id).later (le_max_left _ _)
  have hmatch := hrows plan.planId
  cases hstored : b.memory plan.planId with
  | some stored =>
    cases hrow : b.relational.table plan.planId with
    | none => simp [hstored, hrow, RowsMatch] at hmatch
    | some row =>
      constructor <;>
        simp only [Destruction.nextBoth, memorySave, nextStore, StoreState.save, hstored, hrow] <;>
        split_ifs
      · exact h.idle
      · exact h.idle
      · exact hrows
      · exact hrows
  | none =>
    have hrow : b.relational.table plan.planId = none := by
      cases hrow : b.relational.table plan.planId with
      | none => rfl
      | some row =>
        obtain ⟨hstatus, hexpires⟩ := fresh.2 row hrow
        rw [hstored, hrow] at hmatch
        rcases hmatch with hconsumed | hexpired
        · exact absurd hconsumed hstatus
        · exact absurd hexpired (not_le.mpr hexpires)
    constructor <;>
      simp only [Destruction.nextBoth, memorySave, nextStore, StoreState.save, hstored, hrow] <;>
      split_ifs with hactor
    · exact h.idle
    · exact h.idle
    · exact hrows
    · intro id
      by_cases hid : id = plan.planId
      · subst hid
        simp only [record, update_self]
        exact ⟨rfl, rfl, rfl, by simp [PlanRow.validState, PlanRow.ofPlan],
          by simp [PlanRow.ofPlan], by simp [PlanRow.ofPlan], fresh.1⟩
      · simp only [record, update_of_ne hid]
        exact hrows id

theorem Matched.nextBoth (h : Matched H b) {e : TimedCall} (fresh : FreshSave b e) :
    Matched H (nextBoth H b e) := by
  obtain ⟨now, call⟩ := e
  cases call with
  | save plan actor => exact h.save fresh
  | call call => exact (h.call now call).2

theorem Matched.empty (clock : Instant) : Matched H (.empty clock) :=
  ⟨rfl, fun _ => trivial⟩

theorem PlanResult.success_eq_plan {result : PlanResult} {plan : DestructionPlan} :
    result.success = some (.plan plan) ↔ result = .plan plan := by
  cases result <;> simp [success]

theorem PlanResult.success_eq_reviewedAt {result : PlanResult} {time : Instant} :
    result.success = some (.reviewedAt time) ↔ result = .reviewedAt time := by
  cases result <;> simp [success]

theorem Matched.consumeAgrees (h : Matched H b) : ConsumeAgrees H b := by
  intro now planId challengeResponses actor plan
  obtain ⟨⟨result, hanswer, hsame⟩, -⟩ := h.call now ⟨.consume challengeResponses, planId, actor⟩
  rw [hanswer, Option.some.injEq, ← PlanResult.success_eq_plan, ← PlanResult.success_eq_plan, hsame]

theorem Matched.reviewAgrees (h : Matched H b) : ReviewAgrees H b := by
  intro now planId actor
  obtain ⟨⟨result, hanswer, hsame⟩, -⟩ := h.call now ⟨.markReviewed, planId, actor⟩
  simp only [hanswer, Option.some.injEq, ← PlanResult.success_eq_reviewedAt, hsame]

/-- After every sequence of calls in which no save reuses the id of a plan that is over,
the next call gets the same answer from both stores. -/
theorem run_storesAgree (clock : Instant) {calls : List TimedCall}
    (fresh : Along (nextBoth H) FreshSave (.empty clock) calls) :
    ConsumeAgrees H (run (nextBoth H) (.empty clock) calls) ∧
      ReviewAgrees H (run (nextBoth H) (.empty clock) calls) := by
  have h : Matched H (run (nextBoth H) (.empty clock) calls) :=
    run_invariant (nextBoth H) (fun _ _ h hfresh => h.nextBoth hfresh) (.empty clock) fresh
  exact ⟨h.consumeAgrees, h.reviewAgrees⟩

end Sequences

def sampleStart : Instant := 1767225600000000

def samplePlan : DestructionPlan where
  planId := "plan-1"
  operation := .destroyPipelines
  target := "dev"
  database := "analytics"
  metadataDatabase := "analytics"
  requestedPipelineNames := ["orders"]
  includedDependentPipelineNames := []
  affectedPipelineNames := ["orders"]
  affectedModelNames := ["daily_orders"]
  affectedSourceNames := []
  relations := []
  challenges := ["orders"]
  preservesSources := true
  preservesReplayData := true
  manifestFingerprint := "m"
  planFingerprint := "p"
  createdAt := sampleStart
  expiresAt := sampleStart + 900000000
  relationDropSizePolicyObserved := true

/-- A host with the digest of the payload of the sample plan. -/
def sampleHost : StoreHost where
  sha256Hexdigest _ := "fa93f09c76eb868c65009cc18cec700353a1f011c56b34e08c69676df9d901b6"
  validationMessage _ := ""

def sampleReview : PlanCall := ⟨.markReviewed, "plan-1", "ops"⟩

def sampleConsume : PlanCall := ⟨.consume ["orders"], "plan-1", "ops"⟩

/-- The plan is saved, somebody else tries to review it, and its actor does. -/
def reviewedCalls : List TimedCall :=
  [(sampleStart + 1, .save samplePlan "ops"),
    (sampleStart + 2, .call ⟨.markReviewed, "plan-1", "guest"⟩),
    (sampleStart + 3, .call sampleReview)]

theorem run_storesAgree_reviewed :
    memoryAnswer (run (nextBoth sampleHost) (.empty sampleStart) reviewedCalls)
        (sampleStart + 4) sampleConsume = .plan samplePlan ∧
      ConsumeAgrees sampleHost (run (nextBoth sampleHost) (.empty sampleStart) reviewedCalls) ∧
      ReviewAgrees sampleHost (run (nextBoth sampleHost) (.empty sampleStart) reviewedCalls) :=
  ⟨by decide +kernel, run_storesAgree sampleStart (by decide +kernel)⟩

/-- The plan is consumed, and saved and reviewed once more. -/
def reusedCalls : List TimedCall :=
  reviewedCalls ++ [(sampleStart + 4, .call sampleConsume),
    (sampleStart + 5, .save samplePlan "ops"), (sampleStart + 6, .call sampleReview)]

/-- The in-memory store lets the same plan be consumed a second time. -/
theorem not_run_storesAgree :
    ¬ ∀ (H : StoreHost) (clock : Instant) (calls : List TimedCall),
      ConsumeAgrees H (run (nextBoth H) (.empty clock) calls) := by
  intro h
  have hmemory : memoryAnswer (run (nextBoth sampleHost) (.empty sampleStart) reusedCalls)
      (sampleStart + 7) sampleConsume = .plan samplePlan := by decide +kernel
  have hrelational : relationalAnswer sampleHost
      (run (nextBoth sampleHost) (.empty sampleStart) reusedCalls)
      (sampleStart + 7) sampleConsume = some (.failed (notFoundError sampleConsume)) := by
    decide +kernel
  have hagree := (h sampleHost sampleStart reusedCalls (sampleStart + 7) "plan-1" ["orders"] "ops"
    samplePlan).mp hmemory
  rw [show (⟨.consume ["orders"], "plan-1", "ops"⟩ : PlanCall) = sampleConsume from rfl,
    hrelational] at hagree
  simp at hagree

end SqlTide.Destruction
