import SqlTide.Destruction.RelationalPlanStore

/-!
# One-time authorised consumption

Rows are never deleted and never change their actor or payload, and a consumed
row never changes at all. From this a call that resumes after its own reading of
the row still speaks about the same plan, and an `UPDATE` that consumes a plan
cannot have been preceded by another one.
-/

namespace SqlTide.Destruction

open Foundations List Runs Function

/-- What no statement changes in a row: everything but the lifecycle columns. -/
def PlanRow.frozen (row : PlanRow) : PlanRow :=
  { row with reviewedAt := none, consumedAt := none, status := .pending }

/-- Rows stay, their frozen part stays, and consumed rows stay as they are. -/
def Persists (t t' : PlanTable) : Prop :=
  ∀ id row, t id = some row →
    ∃ row', t' id = some row' ∧ row'.frozen = row.frozen ∧ (row.status = .consumed → row' = row)

theorem Persists.refl (t : PlanTable) : Persists t t :=
  fun _ row h => ⟨row, h, rfl, fun _ => rfl⟩

variable {t : PlanTable} {id : String} {clock now : Instant} {row : PlanRow} {call : PlanCall}
  {stored : StoredRow}

variable {condition : PlanRow → Bool} {values : PlanRow → PlanRow} {clock' time : Instant}
  {t' : PlanTable} {c : Completion} {result : PlanResult}

/-- A conditional `UPDATE` of the lifecycle columns that spares consumed rows. -/
theorem persists_updateWhere (hfrozen : ∀ row, (values row).frozen = row.frozen)
    (hconsumed : ∀ row, row.status = .consumed → condition row = false) :
    Persists t (updateWhere t id condition values).1 := by
  intro id' row hrow
  unfold updateWhere
  cases hid : t id with
  | none => exact ⟨row, hrow, rfl, fun _ => rfl⟩
  | some found =>
    by_cases hcond : condition found = true
    · by_cases hsame : id' = id
      · subst hsame
        obtain rfl : row = found := by simpa [hrow] using hid
        refine ⟨values row, by simp [hcond], hfrozen row, ?_⟩
        intro hstatus
        rw [hconsumed row hstatus] at hcond
        exact absurd hcond (by simp)
      · exact ⟨row, by simp [hcond, hsame, hrow], rfl, fun _ => rfl⟩
    · exact ⟨row, by simpa [hcond] using hrow, rfl, fun _ => rfl⟩

/-- A conditional `UPDATE` either changes the one row that meets its condition, or nothing. -/
theorem updateWhere_cases (t : PlanTable) (id : String) (condition : PlanRow → Bool)
    (values : PlanRow → PlanRow) :
    (∃ row, t id = some row ∧ condition row = true ∧
      updateWhere t id condition values = (Function.update t id (some (values row)), 1)) ∨
      updateWhere t id condition values = (t, 0) := by
  unfold updateWhere
  cases hid : t id with
  | none => exact .inr rfl
  | some row =>
    by_cases hcond : condition row = true
    · exact .inl ⟨row, rfl, hcond, by simp [hcond]⟩
    · exact .inr (by simp [hcond])

theorem persists_markExpired (t : PlanTable) (call : PlanCall) (now : Instant) :
    Persists t (markExpired t call now) := by
  apply persists_updateWhere
  · intro row
    rfl
  · intro row hrow
    simp [hrow]

theorem persists_updateReviewed (t : PlanTable) (call : PlanCall) (stored : StoredRow)
    (now : Instant) : Persists t (updateReviewed t call stored now).1 := by
  apply persists_updateWhere
  · intro row
    rfl
  · intro row hrow
    simp [hrow]

theorem persists_updateConsumed (t : PlanTable) (call : PlanCall) (stored : StoredRow)
    (now : Instant) : Persists t (updateConsumed t call stored now).1 := by
  apply persists_updateWhere
  · intro row
    rfl
  · intro row hrow
    simp [hrow]

theorem persists_insert (hfree : t id = none) (row : PlanRow) :
    Persists t (Function.update t id (some row)) := by
  intro id' row' hold
  have hne : id' ≠ id := by
    rintro rfl
    simp [hfree] at hold
  exact ⟨row', by rw [update_of_ne hne, hold], rfl, fun _ => rfl⟩

/-- This completion is a successful `consume` of the plan `id`. -/
def Completion.consumes (id : String) : Completion → Bool
  | .returned ⟨.consume _, planId, _⟩ (.plan _) _ => planId = id
  | _ => false

/-- A successful `consume` is preceded by the `save` of that plan by the same actor
and by a successful review; it used a clock value before the expiry, and its
responses are the challenges of the plan in order. -/
def Completion.Authorised (older : List Completion) : Completion → Prop
  | .returned ⟨.consume responses, planId, actor⟩ (.plan plan) time =>
    plan.planId = planId ∧ .saved plan actor ∈ older ∧
      (∃ reviewed, .returned ⟨.markReviewed, planId, actor⟩ (.reviewedAt reviewed) reviewed ∈
        older) ∧
      time < plan.expiresAt ∧ responses = plan.challenges
  | _ => True

variable (H : StoreHost)

/-- What every stored row satisfies, given the clock and the calls that have ended. -/
structure RowInv (clock : Instant) (history : List Completion) (id : String)
    (row : PlanRow) : Prop where
  payload : ∃ plan : DestructionPlan, plan.planId = id ∧
    row.frozen = .ofPlan H plan row.actor ∧ .saved plan row.actor ∈ history
  valid : row.validState = true
  reviewed : row.reviewedAt.isSome → ∃ time,
    .returned ⟨.markReviewed, id, row.actor⟩ (.reviewedAt time) time ∈ history
  expired : row.status = .expired → row.expiresAt ≤ clock

/-- The snapshot a call works with is of the row that is still there. -/
def Snapshot (t : PlanTable) (call : PlanCall) (stored : StoredRow) : Prop :=
  ∃ row, t call.planId = some row ∧ row.frozen = .ofPlan H stored.plan call.actor ∧
    stored.plan.planId = call.planId

/-- What a call in flight knows at each of its steps. -/
def PhaseInv (t : PlanTable) (clock : Instant) (call : PlanCall) : CallPhase → Prop
  | .read _ => True
  | .requireCurrent _ stored => Snapshot H t call stored
  | .markExpired now => now ≤ clock
  | .clock stored | .update stored _ =>
    Snapshot H t call stored ∧
      (call.operation = .markReviewed ∨ call.operation = .consume stored.plan.challenges)

structure StoreInv (s : StoreState) : Prop where
  rows : ∀ id row, s.table id = some row → RowInv H s.clock s.history id row
  calls : ∀ caller call phase, s.callers caller = some (call, phase) →
    PhaseInv H s.table s.clock call phase
  settled : ∀ id, ∀ c ∈ s.history, c.consumes id = true →
    ∃ row, s.table id = some row ∧ row.status = .consumed
  once : ∀ id, s.history.countP (Completion.consumes id) ≤ 1
  authorised : ∀ newer c older, s.history = newer ++ c :: older → c.Authorised older

variable {H} {s : StoreState}

theorem RowInv.mono {history history' : List Completion}
    (h : RowInv H clock history id row) (hclock : clock ≤ clock')
    (hhistory : history ⊆ history') : RowInv H clock' history' id row := by
  obtain ⟨plan, hid, hfrozen, hsaved⟩ := h.payload
  constructor
  · exact ⟨plan, hid, hfrozen, hhistory hsaved⟩
  · exact h.valid
  · intro hsome
    obtain ⟨time, hmem⟩ := h.reviewed hsome
    exact ⟨time, hhistory hmem⟩
  · intro hstatus
    exact (h.expired hstatus).trans hclock

theorem Snapshot.persists
    (h : Snapshot H t call stored) (persists : Persists t t') : Snapshot H t' call stored := by
  obtain ⟨row, hrow, hfrozen, hid⟩ := h
  obtain ⟨row', hrow', hsame, -⟩ := persists _ _ hrow
  exact ⟨row', hrow', hsame.trans hfrozen, hid⟩

theorem PhaseInv.persists {phase : CallPhase} (h : PhaseInv H t clock call phase)
    (persists : Persists t t') (hclock : clock ≤ clock') : PhaseInv H t' clock' call phase := by
  cases phase with
  | read again => trivial
  | requireCurrent again stored => exact Snapshot.persists h persists
  | markExpired now => exact le_trans h hclock
  | clock stored => exact ⟨h.1.persists persists, h.2⟩
  | update stored now => exact ⟨h.1.persists persists, h.2⟩

/-- The one way the invariant is kept: the table persists, its rows are justified, at
most one call ends, and it is authorised if it consumes. -/
theorem StoreInv.transition (h : StoreInv H s) (ended : Option Completion)
    {callers : ℕ → Option (PlanCall × CallPhase)}
    (persists : Persists s.table t) (hclock : s.clock ≤ clock)
    (rows : ∀ id row, t id = some row → RowInv H clock (ended.toList ++ s.history) id row)
    (calls : ∀ caller call phase, callers caller = some (call, phase) →
      s.callers caller = some (call, phase) ∨ PhaseInv H t clock call phase)
    (authorised : ∀ c ∈ ended, c.Authorised s.history)
    (consumed : ∀ c ∈ ended, ∀ id, c.consumes id = true →
      (∃ row, s.table id = some row ∧ row.status ≠ .consumed) ∧
        ∃ row, t id = some row ∧ row.status = .consumed) :
    StoreInv H ⟨t, clock, callers, ended.toList ++ s.history⟩ := by
  constructor
  · exact rows
  · intro caller call phase hcaller
    rcases calls caller call phase hcaller with hold | hnew
    · exact (h.calls caller call phase hold).persists persists hclock
    · exact hnew
  · intro id c hc hconsumes
    rcases mem_append.mp hc with hnew | hold
    · exact (consumed c (by simpa using hnew) id hconsumes).2
    · obtain ⟨row, hrow, hstatus⟩ := h.settled id c hold hconsumes
      obtain ⟨row', hrow', -, hsame⟩ := persists _ _ hrow
      exact ⟨row', hrow', by rw [hsame hstatus, hstatus]⟩
  · intro id
    cases ended with
    | none => simpa using h.once id
    | some c =>
      by_cases hconsumes : c.consumes id = true
      · obtain ⟨⟨row, hrow, hstatus⟩, -⟩ := consumed c (by simp) id hconsumes
        have hnone : s.history.countP (Completion.consumes id) = 0 := by
          rw [countP_eq_zero]
          intro c' hc' hconsumes'
          obtain ⟨row', hrow', hstatus'⟩ := h.settled id c' hc' hconsumes'
          rw [hrow, Option.some.injEq] at hrow'
          exact hstatus (hrow' ▸ hstatus')
        simp [hconsumes, hnone]
      · simpa [countP_cons, hconsumes] using h.once id
  · intro newer c older hsplit
    cases ended with
    | none => exact h.authorised newer c older (by simpa using hsplit)
    | some c' =>
      cases newer with
      | nil =>
        simp only [Option.toList_some, cons_append, nil_append, List.cons.injEq] at hsplit
        obtain ⟨rfl, rfl⟩ := hsplit
        exact authorised c' (by simp)
      | cons c'' newer =>
        simp only [Option.toList_some, cons_append, nil_append, List.cons.injEq] at hsplit
        exact h.authorised newer c older hsplit.2

theorem Completion.authorised_of_consumes_eq_false {older : List Completion}
    (h : ∀ id, c.consumes id = false) : c.Authorised older := by
  unfold Completion.Authorised
  split
  · next responses planId actor plan time => exact absurd (h planId) (by simp [consumes])
  · trivial

theorem StoreInv.advance (h : StoreInv H s) (caller : ℕ) {phase : CallPhase}
    (hphase : PhaseInv H s.table s.clock call phase) :
    StoreInv H (s.advance caller call phase) := by
  refine h.transition none (.refl _) le_rfl h.rows ?_ (by simp) (by simp)
  intro caller' call' phase' hcaller
  by_cases hsame : caller' = caller
  · subst hsame
    simp only [update_self, Option.some.injEq, Prod.mk.injEq] at hcaller
    obtain ⟨rfl, rfl⟩ := hcaller
    exact .inr hphase
  · rw [update_of_ne hsame] at hcaller
    exact .inl hcaller

theorem StoreInv.finish (h : StoreInv H s) (caller : ℕ)
    (persists : Persists s.table t) (rows : ∀ id row, t id = some row →
      RowInv H s.clock (.returned call result time :: s.history) id row)
    (authorised : (Completion.returned call result time).Authorised s.history)
    (consumed : ∀ id, (Completion.returned call result time).consumes id = true →
      (∃ row, s.table id = some row ∧ row.status ≠ .consumed) ∧
        ∃ row, t id = some row ∧ row.status = .consumed) :
    StoreInv H (s.finish caller call t result time) := by
  refine h.transition (some (.returned call result time)) persists le_rfl rows ?_
    (by simpa using authorised) (by simpa using consumed)
  intro caller' call' phase' hcaller
  by_cases hsame : caller' = caller
  · simp [hsame] at hcaller
  · rw [update_of_ne hsame] at hcaller
    exact .inl hcaller

theorem StoreInv.finish_same (h : StoreInv H s) (caller : ℕ)
    (hresult : ∀ id, (Completion.returned call result time).consumes id = false) :
    StoreInv H (s.finish caller call s.table result time) := by
  apply h.finish caller (.refl _)
  · intro id row hrow
    exact (h.rows id row hrow).mono le_rfl (subset_cons_self _ _)
  · exact Completion.authorised_of_consumes_eq_false hresult
  · intro id hconsumes
    simp [hresult id] at hconsumes

theorem StoreInv.fail (h : StoreInv H s) (caller : ℕ) (call : PlanCall) (error : DestructionError) :
    StoreInv H (s.fail caller call error) :=
  h.finish_same caller (by simp [Completion.consumes])

/-- The rows of a table after a conditional `UPDATE` in a step that ends a call. -/
theorem StoreInv.rows_updateWhere (h : StoreInv H s)
    (hvalues : ∀ row, s.table id = some row → condition row = true →
      RowInv H s.clock s.history id row → RowInv H s.clock (c :: s.history) id (values row)) :
    ∀ id' row, (updateWhere s.table id condition values).1 id' = some row →
      RowInv H s.clock (c :: s.history) id' row := by
  intro id' row hrow
  have hkeep : s.table id' = some row → RowInv H s.clock (c :: s.history) id' row := fun hold =>
    (h.rows id' row hold).mono le_rfl (subset_cons_self _ _)
  rcases updateWhere_cases s.table id condition values with ⟨found, hfound, hcond, heq⟩ | heq
  · rw [heq] at hrow
    by_cases hsame : id' = id
    · subst hsame
      simp only [update_self, Option.some.injEq] at hrow
      subst hrow
      exact hvalues found hfound hcond (h.rows _ _ hfound)
    · exact hkeep (by simpa [update_of_ne hsame] using hrow)
  · exact hkeep (by simpa [heq] using hrow)

theorem StoreInv.markExpired (h : StoreInv H s) (caller : ℕ) (hnow : now ≤ s.clock) :
    StoreInv H (s.finish caller call (markExpired s.table call now)
      (.failed (expiredError call)) now) := by
  apply h.finish caller
  · exact persists_markExpired s.table call now
  · apply h.rows_updateWhere
    intro row hrow hcond hinv
    simp only [decide_eq_true_eq] at hcond
    obtain ⟨-, hstatus, hexpires⟩ := hcond
    have hvalid := hinv.valid
    have hmono := hinv.mono (le_refl s.clock)
      (subset_cons_self (.returned call (.failed (expiredError call)) now) s.history)
    refine ⟨hmono.payload, ?_, hmono.reviewed, fun _ => le_trans hexpires hnow⟩
    rcases hstatus with hstatus | hstatus <;> simp_all [PlanRow.validState]
  · apply Completion.authorised_of_consumes_eq_false
    simp [Completion.consumes]
  · simp [Completion.consumes]

/-- What the validation of a row has checked, and what it returns. -/
structure ReadsAs (H : StoreHost) (row : PlanRow) (id : String) (stored : StoredRow) : Prop where
  plan : deserializeDestructionPlan H.validationMessage row.payloadJson = .ok stored.plan
  planId : stored.plan.planId = id
  expiresAt : stored.plan.expiresAt = row.expiresAt
  payloadJson : stored.payloadJson = row.payloadJson
  payloadSha256 : stored.payloadSha256 = row.payloadSha256
  status : stored.status = row.status
  reviewedAt : stored.reviewedAt = row.reviewedAt
  valid : row.validState = true

theorem storedPlanFromRow_ok
    (h : storedPlanFromRow H row id = .ok stored) : ReadsAs H row id stored := by
  unfold storedPlanFromRow at h
  cases hplan : deserializeDestructionPlan H.validationMessage row.payloadJson with
  | error e =>
    rw [hplan] at h
    simp only [bind, Except.bind, throw, throwThe, MonadExceptOf.throw] at h
    split_ifs at h
  | ok plan =>
    rw [hplan] at h
    simp only [bind, Except.bind, throw, throwThe, MonadExceptOf.throw, pure, Except.pure] at h
    split_ifs at h with h₁ h₂ h₃ h₄
    simp only [Except.ok.injEq] at h
    subst h
    simp only [not_or, not_not] at h₃
    exact ⟨hplan, h₃.1, h₃.2.2, rfl, rfl, rfl, rfl, by simpa using h₄⟩

theorem readPlan_ok (h : readPlan H t call = .ok stored) :
    ∃ row, t call.planId = some row ∧ row.actor = call.actor ∧
      ReadsAs H row call.planId stored := by
  unfold readPlan at h
  cases hrow : t call.planId with
  | none => simp [hrow] at h
  | some row =>
    simp only [hrow] at h
    split_ifs at h with hactor
    exact ⟨row, rfl, hactor, storedPlanFromRow_ok h⟩

section

variable (h : StoreInv H s)

include h

theorem StoreInv.snapshot_of_readPlan
    (hread : readPlan H s.table call = .ok stored) : Snapshot H s.table call stored := by
  obtain ⟨row, hrow, hactor, hreads⟩ := readPlan_ok hread
  obtain ⟨plan, -, hfrozen, -⟩ := (h.rows _ _ hrow).payload
  refine ⟨row, hrow, ?_, hreads.planId⟩
  have hplan := hreads.plan
  have hpayload : row.payloadJson = serializeDestructionPlan plan :=
    congrArg PlanRow.payloadJson hfrozen
  rw [hpayload, deserialize_serialize] at hplan
  split_ifs at hplan
  simp only [Except.ok.injEq] at hplan
  rw [hfrozen, ← hplan, hactor]

theorem StoreInv.currentStep (caller : ℕ)
    (hsnap : Snapshot H s.table call stored) : StoreInv H (currentStep s caller call stored) := by
  unfold Destruction.currentStep
  split
  · next hop =>
    apply h.finish_same
    obtain ⟨operation, planId, actor⟩ := call
    cases hop
    simp [Completion.consumes]
  · split
    · exact h.fail _ _ _
    · next hop _ _ =>
      apply h.finish_same
      simp [Completion.consumes]
  · next hop =>
    apply h.advance
    exact ⟨hsnap, .inl hop⟩
  · next responses hop =>
    split_ifs with hreviewed hresponses
    · exact h.fail _ _ _
    · exact h.fail _ _ _
    · apply h.advance
      rw [not_not.mp hresponses] at hop
      exact ⟨hsnap, .inr hop⟩

/-- The row behind a snapshot, with what the snapshot and the row's own history say about it. -/
theorem StoreInv.row_of_snapshot (hsnap : Snapshot H s.table call stored)
    (hrow : s.table call.planId = some row) :
    row.actor = call.actor ∧ row.expiresAt = stored.plan.expiresAt ∧
      stored.plan.planId = call.planId ∧ .saved stored.plan call.actor ∈ s.history := by
  obtain ⟨row', hrow', hfrozen, hid⟩ := hsnap
  obtain rfl : row = row' := by simpa [hrow] using hrow'
  have hactor : row.actor = call.actor := congrArg PlanRow.actor hfrozen
  obtain ⟨plan, -, hplan, hsaved⟩ := (h.rows _ _ hrow).payload
  have hpayload : serializeDestructionPlan stored.plan = serializeDestructionPlan plan :=
    congrArg PlanRow.payloadJson (hfrozen.symm.trans hplan)
  obtain rfl : stored.plan = plan := serializeDestructionPlan_injective hpayload
  exact ⟨hactor, congrArg PlanRow.expiresAt hfrozen, hid, hactor ▸ hsaved⟩

theorem StoreInv.updateReviewed (caller : ℕ) (hop : call.operation = .markReviewed)
    (hupdate : updateReviewed s.table call stored now = (t, 1)) :
    StoreInv H (s.finish caller call t (.reviewedAt now) now) := by
  have ht : t = (Destruction.updateReviewed s.table call stored now).1 := by rw [hupdate]
  subst ht
  apply h.finish caller
  · exact persists_updateReviewed s.table call stored now
  · apply h.rows_updateWhere
    intro row hrow hcond hinv
    simp only [decide_eq_true_eq] at hcond
    have hvalid := hinv.valid
    have hmono := hinv.mono (le_refl s.clock)
      (subset_cons_self (.returned call (.reviewedAt now) now) s.history)
    refine ⟨hmono.payload, ?_, ?_, by simp⟩
    · rcases hcond.2.1 with hstatus | hstatus <;> simp_all [PlanRow.validState]
    · intro _
      refine ⟨now, ?_⟩
      obtain ⟨operation, planId, actor⟩ := call
      simp_all
  · apply Completion.authorised_of_consumes_eq_false
    simp [Completion.consumes]
  · simp [Completion.consumes]

theorem StoreInv.updateConsumed (caller : ℕ)
    (hop : call.operation = .consume stored.plan.challenges)
    (hsnap : Snapshot H s.table call stored)
    (hupdate : updateConsumed s.table call stored now = (t, 1)) :
    StoreInv H (s.finish caller call t (.plan stored.plan) now) := by
  obtain ⟨operation, planId, actor⟩ := call
  cases hop
  have ht : t = (Destruction.updateConsumed s.table ⟨.consume stored.plan.challenges, planId, actor⟩
    stored now).1 := by rw [hupdate]
  rcases updateWhere_cases s.table planId _ _ with ⟨row, hrow, hcond, heq⟩ | heq
  swap
  · exact absurd (congrArg Prod.snd (heq.symm.trans hupdate)) (by simp)
  simp only [decide_eq_true_eq] at hcond
  obtain ⟨hactor, hstatus, hreviewed, -, hnow, -⟩ := hcond
  obtain ⟨-, hexpires, hid, hsaved⟩ := h.row_of_snapshot hsnap hrow
  apply h.finish caller
  · rw [ht]
    exact persists_updateConsumed s.table _ stored now
  · rw [ht]
    apply h.rows_updateWhere
    intro row hrow hcond hinv
    simp only [decide_eq_true_eq] at hcond
    have hmono := hinv.mono (le_refl s.clock) (subset_cons_self
      (.returned ⟨.consume stored.plan.challenges, planId, actor⟩ (.plan stored.plan) now)
      s.history)
    refine ⟨hmono.payload, ?_, hmono.reviewed, by simp⟩
    simp [PlanRow.validState, hcond.2.2.1]
  · refine ⟨hid, hsaved, ?_, hexpires ▸ hnow, rfl⟩
    have := (h.rows _ _ hrow).reviewed hreviewed
    rwa [hactor] at this
  · intro id hconsumes
    obtain rfl : planId = id := by simpa [Completion.consumes] using hconsumes
    refine ⟨⟨row, hrow, by simp [hstatus]⟩, ?_⟩
    have ht' : t = Function.update s.table planId
        (some { row with status := .consumed, consumedAt := some now }) :=
      ht.trans (congrArg Prod.fst heq)
    exact ⟨_, by rw [ht', update_self], rfl⟩

theorem StoreInv.updateStep (caller : ℕ)
    (hphase : PhaseInv H s.table s.clock call (.update stored now)) :
    StoreInv H (updateStep s caller call stored now) := by
  obtain ⟨hsnap, hop⟩ := hphase
  rcases hop with hop | hop
  · simp only [Destruction.updateStep, hop]
    rcases updateWhere_cases s.table call.planId _ _ with ⟨row, hrow, hcond, heq⟩ | heq
    · rw [Destruction.updateReviewed, heq]
      exact h.updateReviewed caller hop heq
    · rw [Destruction.updateReviewed, heq]
      exact h.advance caller trivial
  · simp only [Destruction.updateStep, hop]
    rcases updateWhere_cases s.table call.planId _ _ with ⟨row, hrow, hcond, heq⟩ | heq
    · rw [Destruction.updateConsumed, heq]
      exact h.updateConsumed caller hop hsnap heq
    · rw [Destruction.updateConsumed, heq]
      exact h.advance caller trivial

theorem StoreInv.callerStep (caller : ℕ) : StoreInv H (callerStep H s caller) := by
  unfold Destruction.callerStep
  split
  · exact h
  · next call again hcaller =>
    split
    · exact h.fail _ _ _
    · next stored hread =>
      split_ifs with hconsumed
      · exact h.fail _ _ _
      · exact h.advance caller (h.snapshot_of_readPlan hread)
  · next call again stored hcaller =>
    have hphase := h.calls caller call _ hcaller
    split_ifs with hexpired hagain
    · exact h.advance caller (le_refl s.clock)
    · exact h.fail _ _ _
    · exact h.currentStep caller hphase
  · next call now hcaller => exact h.markExpired caller (h.calls caller call _ hcaller)
  · next call stored hcaller =>
    have hphase := h.calls caller call _ hcaller
    exact h.advance caller hphase
  · next call stored now hcaller => exact h.updateStep caller (h.calls caller call _ hcaller)

theorem StoreInv.save (plan : DestructionPlan) (actor : String) :
    StoreInv H (s.save H plan actor) := by
  have hfailed : ∀ error, StoreInv H (s.record (.saveFailed plan actor error)) := by
    intro error
    refine h.transition (some (.saveFailed plan actor error)) (.refl _) le_rfl ?_
      (fun _ _ _ => .inl) ?_ ?_
    · intro id row hrow
      exact (h.rows id row hrow).mono le_rfl (subset_cons_self _ _)
    · simp [Completion.Authorised]
    · simp [Completion.consumes]
  unfold StoreState.save
  split_ifs with hactor
  · exact hfailed _
  · cases hrow : s.table plan.planId with
    | some row => exact hfailed _
    | none =>
      refine h.transition (some (.saved plan actor)) (persists_insert hrow _) le_rfl ?_
        (fun _ _ _ => .inl) ?_ ?_
      · intro id row hnew
        change Function.update s.table plan.planId _ id = some row at hnew
        by_cases hsame : id = plan.planId
        · subst hsame
          simp only [update_self, Option.some.injEq] at hnew
          subst hnew
          exact ⟨⟨plan, rfl, rfl, by simp [PlanRow.ofPlan]⟩, by simp [PlanRow.validState,
            PlanRow.ofPlan], by simp [PlanRow.ofPlan], by simp [PlanRow.ofPlan]⟩
        · rw [update_of_ne hsame] at hnew
          exact (h.rows id row hnew).mono le_rfl (subset_cons_self _ _)
      · simp [Completion.Authorised]
      · simp [Completion.consumes]

theorem StoreInv.nextStore (e : StoreEvent) : StoreInv H (nextStore H s e) := by
  cases e with
  | save plan actor => exact h.save plan actor
  | call caller call =>
    simp only [Destruction.nextStore]
    split
    · exact h.advance caller trivial
    · exact h
  | step caller => exact h.callerStep caller
  | stop caller =>
    refine h.transition none (.refl _) le_rfl h.rows ?_ (by simp) (by simp)
    intro caller' call phase hcaller
    by_cases hsame : caller' = caller
    · simp [hsame] at hcaller
    · rw [update_of_ne hsame] at hcaller
      exact .inl hcaller
  | tick now =>
    refine h.transition none (.refl _) (le_max_left _ _) ?_ (fun _ _ _ => .inl) (by simp) (by simp)
    intro id row hrow
    exact (h.rows id row hrow).mono (le_max_left _ _) (List.Subset.refl _)

end

theorem currentStep_table (s : StoreState) (caller : ℕ) (call : PlanCall) (stored : StoredRow) :
    (currentStep s caller call stored).table = s.table := by
  unfold Destruction.currentStep
  split
  · rfl
  · split <;> rfl
  · rfl
  · split_ifs <;> rfl

/-- Whatever happens next, no row is lost and consumed rows stay as they are. -/
theorem persists_nextStore (s : StoreState) (e : StoreEvent) :
    Persists s.table (nextStore H s e).table := by
  cases e with
  | save plan actor =>
    simp only [Destruction.nextStore, StoreState.save]
    split_ifs
    · exact .refl _
    · split
      · exact .refl _
      · next hrow => exact persists_insert hrow _
  | call caller call =>
    simp only [Destruction.nextStore]
    split <;> exact .refl _
  | stop caller => exact .refl _
  | tick now => exact .refl _
  | step caller =>
    simp only [Destruction.nextStore, Destruction.callerStep]
    split
    · exact .refl _
    · split
      · exact .refl _
      · split_ifs <;> exact .refl _
    · split_ifs
      · exact .refl _
      · exact .refl _
      · rw [currentStep_table]
        exact .refl _
    · exact persists_markExpired _ _ _
    · exact .refl _
    · next call stored now _ =>
      unfold Destruction.updateStep
      have hconsumed := persists_updateConsumed s.table call stored now
      have hreviewed := persists_updateReviewed s.table call stored now
      split
      · split
        · next table heq => rwa [heq] at hconsumed
        · next table _ heq => rwa [heq] at hconsumed
      · split
        · next table heq => rwa [heq] at hreviewed
        · next table _ heq => rwa [heq] at hreviewed

theorem StoreInv.empty (clock : Instant) : StoreInv H (.empty clock) := by
  constructor <;> simp [StoreState.empty]

theorem consumed_stays (s : StoreState) (later : List StoreEvent) (hrow : s.table id = some row)
    (hstatus : row.status = .consumed) : (run (nextStore H) s later).table id = some row := by
  induction later generalizing s with
  | nil => exact hrow
  | cons e later ih =>
    obtain ⟨row', hrow', -, hsame⟩ := persists_nextStore (H := H) s e id row hrow
    rw [hsame hstatus] at hrow'
    exact ih _ hrow'

/-- The contract of the store, for the calls that have ended and the rows there are. -/
structure ConsumedOnce (H : StoreHost) (s : StoreState) : Prop where
  once : ∀ id, s.history.countP (Completion.consumes id) ≤ 1
  authorised : ∀ newer c older, s.history = newer ++ c :: older → c.Authorised older
  lifecycle : ∀ id row, s.table id = some row → row.validState = true
  absorbing : ∀ id row, s.table id = some row → row.status = .consumed →
    ∀ later, (run (nextStore H) s later).table id = some row

/-- Over every interleaving of the statements of any calls by any actors. -/
theorem run_consumedOnce (clock : Instant) (events : List StoreEvent) :
    ConsumedOnce H (run (nextStore H) (.empty clock) events) := by
  have h : StoreInv H (run (nextStore H) (.empty clock) events) :=
    run_invariant (nextStore H) (P := fun _ _ => True) (fun _ e h _ => h.nextStore e)
      (.empty clock) (along_true _ _ _)
  constructor
  · exact h.once
  · exact h.authorised
  · intro id row hrow
    exact (h.rows id row hrow).valid
  · intro id row hrow hstatus later
    exact consumed_stays _ later hrow hstatus

end SqlTide.Destruction
