import Mathlib.Data.List.Sort
import Mathlib.Data.String.Basic
import Mathlib.Tactic

/-!
# The tick log of the sensors

Every attempt of a sensor leaves a STARTED row and, unless the process dies in between, a
terminal row under the same tick id. What a later pass knows about an event it reads back
from these rows: `tickAttemptState` reduces them to one view for each tick. The lemmas say
that the reduction neither loses nor invents a terminal row as long as no tick has two.
-/

namespace SqlTide.Sensors

open List

inductive SensorTickStatus
  | started
  | skipped
  | succeeded
  | failed
  | deadLettered
  deriving DecidableEq, Repr

/-- `_TERMINAL_TICK_STATUSES`. -/
def SensorTickStatus.isTerminal : SensorTickStatus → Bool
  | .started => false
  | .skipped | .succeeded | .failed | .deadLettered => true

/-- `_RESOLVED_TICK_STATUSES`. -/
def SensorTickStatus.isResolved : SensorTickStatus → Bool
  | .skipped | .succeeded | .deadLettered => true
  | .started | .failed => false

/-- The statuses an evaluation of a handler ends with. -/
def SensorTickStatus.isEvaluated : SensorTickStatus → Bool
  | .skipped | .succeeded | .failed => true
  | .started | .deadLettered => false

theorem SensorTickStatus.isEvaluated_iff_failed {status : SensorTickStatus}
    (h : status.isResolved = false) : status.isEvaluated = true ↔ status = .failed := by
  cases status <;> simp_all [isResolved, isEvaluated]

inductive SensorKind
  | event
  | polling
  deriving DecidableEq, Repr

/-- The catalog of event types a sensor can react to. -/
inductive EventType
  | auditCompleted
  | runCompleted
  deriving DecidableEq, Repr

/-- One persisted tick row, which `_decode_tick` turns into a view of the same fields. Warehouse
timestamps are milliseconds since the epoch. -/
structure AdapterSensorTickRecord where
  tickId : String
  sensorName : String
  definitionFingerprint : String
  kind : SensorKind
  eventId : Option String
  eventKind : Option EventType
  attempt : ℕ
  status : SensorTickStatus
  startedAt : ℤ
  completedAt : Option ℤ
  errorMessage : Option String
  skipReason : Option String
  cursor : Option String
  deriving DecidableEq, Repr

abbrev SensorTickView := AdapterSensorTickRecord

namespace AdapterSensorTickRecord

def isTerminal (tick : AdapterSensorTickRecord) : Bool := tick.status.isTerminal

def isResolved (tick : AdapterSensorTickRecord) : Bool := tick.status.isResolved

def isFailed (tick : AdapterSensorTickRecord) : Bool := tick.status = .failed

def isEvaluated (tick : AdapterSensorTickRecord) : Bool := tick.status.isEvaluated

def isDeadLettered (tick : AdapterSensorTickRecord) : Bool := tick.status = .deadLettered

theorem isTerminal_of_isResolved {tick : AdapterSensorTickRecord} (h : tick.isResolved = true) :
    tick.isTerminal = true := by
  unfold isResolved at h
  unfold isTerminal
  cases hstatus : tick.status <;> simp_all [SensorTickStatus.isResolved,
    SensorTickStatus.isTerminal]

theorem isTerminal_of_isFailed {tick : AdapterSensorTickRecord} (h : tick.isFailed = true) :
    tick.isTerminal = true := by
  have hstatus : tick.status = .failed := by simpa [isFailed] using h
  simp [isTerminal, hstatus, SensorTickStatus.isTerminal]

end AdapterSensorTickRecord

/-- `TickAttemptState`: what the ticks of one sensor and event add up to. -/
structure TickAttemptState where
  failedAttempts : ℕ
  lastFailedAt : Option ℤ
  lastErrorMessage : Option String
  resolved : Bool
  deriving DecidableEq, Repr

def startOrder (tick : AdapterSensorTickRecord) : ℤ ×ₗ String :=
  toLex (tick.startedAt, tick.tickId)

/-- `event_ticks_query`. -/
def eventTicks (ticks : List AdapterSensorTickRecord) (sensorName eventId : String) :
    List AdapterSensorTickRecord :=
  (ticks.filter fun tick => tick.sensorName = sensorName ∧
    tick.eventId = some eventId).insertionSort
    (startOrder · ≤ startOrder ·)

/-- One row enters `by_tick`: a view is replaced unless it is terminal already. -/
def mergeTick (views : List SensorTickView) (row : AdapterSensorTickRecord) :
    List SensorTickView :=
  if views.any (·.tickId = row.tickId) then
    views.map fun view =>
      if view.tickId = row.tickId ∧ view.isTerminal = false then row else view
  else views ++ [row]

def reduceTicks (rows : List AdapterSensorTickRecord) : List SensorTickView :=
  (rows.foldl mergeTick []).insertionSort (startOrder · ≤ startOrder ·)

def tickAttemptState (ticks : List AdapterSensorTickRecord) (sensorName eventId : String) :
    TickAttemptState :=
  let views := reduceTicks (eventTicks ticks sensorName eventId)
  let failed := views.filter (·.isFailed)
  let lastFailed := failed.getLast?
  { failedAttempts := failed.length
    lastFailedAt := lastFailed.map fun tick => tick.completedAt.getD tick.startedAt
    lastErrorMessage := lastFailed.bind (·.errorMessage)
    resolved := views.any (·.isResolved) }

variable {ticks ticks' rows : List AdapterSensorTickRecord} {views : List SensorTickView}
  {row : AdapterSensorTickRecord}

/-- No two terminal rows carry one tick id. -/
def TerminalOnce (ticks : List AdapterSensorTickRecord) : Prop :=
  ((ticks.filter (·.isTerminal)).map (·.tickId)).Nodup

theorem TerminalOnce.sublist (h : TerminalOnce ticks) (hsub : ticks'.Sublist ticks) :
    TerminalOnce ticks' := List.Nodup.sublist ((hsub.filter _).map _) h

theorem TerminalOnce.perm (h : TerminalOnce ticks) (hperm : ticks'.Perm ticks) :
    TerminalOnce ticks' := (((hperm.filter _).map _).nodup_iff).mpr h

theorem terminalOnce_append_singleton :
    TerminalOnce (ticks ++ [row]) ↔ TerminalOnce ticks ∧
      (row.isTerminal = true →
        ∀ tick ∈ ticks, tick.isTerminal = true → tick.tickId ≠ row.tickId) := by
  by_cases hrow : row.isTerminal = true
  · simp only [TerminalOnce, filter_append, filter_cons_of_pos hrow, filter_nil, map_append,
      map_cons, map_nil, nodup_append, nodup_singleton, true_and, hrow, forall_const]
    refine and_congr_right fun _ => ⟨?_, ?_⟩
    · intro h tick htick hterminal
      exact h _ (mem_map_of_mem (mem_filter.mpr ⟨htick, hterminal⟩)) _ (by simp)
    · intro h i hi j hj
      obtain ⟨tick, htick, rfl⟩ := mem_map.mp hi
      obtain rfl := mem_singleton.mp hj
      exact h tick (mem_filter.mp htick).1 (mem_filter.mp htick).2
  · simp [TerminalOnce, hrow]

/-- The views after some rows: one for each tick, each of them one of the rows. -/
structure Merged (rows : List AdapterSensorTickRecord) (views : List SensorTickView) : Prop where
  ids : (views.map (·.tickId)).Nodup
  subset : views ⊆ rows
  terminal : (views.filter (·.isTerminal)).Perm (rows.filter (·.isTerminal))

/-- The view of a tick is replaced by a row of that tick. -/
def replaceOpen (row view : AdapterSensorTickRecord) : SensorTickView :=
  if view.tickId = row.tickId ∧ view.isTerminal = false then row else view

theorem map_replaceOpen_of_ne (h : ∀ view ∈ views, view.tickId ≠ row.tickId) :
    views.map (replaceOpen row) = views := by
  refine (map_congr_left fun view hview => ?_).trans (map_id views)
  simp [replaceOpen, h view hview]

theorem tickId_replaceOpen (view : SensorTickView) :
    (replaceOpen row view).tickId = view.tickId := by
  unfold replaceOpen
  split_ifs with h
  · exact h.1.symm
  · rfl

/-- Replacing the one view of a tick, which is not terminal, brings in the row alone. -/
theorem filter_terminal_replaceOpen (hids : (views.map (·.tickId)).Nodup)
    (hmem : ∃ view ∈ views, view.tickId = row.tickId)
    (hopen : ∀ view ∈ views, view.tickId = row.tickId → view.isTerminal = false) :
    ((views.map (replaceOpen row)).filter (·.isTerminal)).Perm
      (views.filter (·.isTerminal) ++ [row].filter (·.isTerminal)) := by
  induction views with
  | nil => simp at hmem
  | cons head rest ih =>
    rw [map_cons, nodup_cons] at hids
    by_cases hhead : head.tickId = row.tickId
    · have hclosed : head.isTerminal = false := hopen head (by simp) hhead
      have hrest : rest.map (replaceOpen row) = rest := by
        refine map_replaceOpen_of_ne fun view hview heq => hids.1 ?_
        rw [hhead, ← heq]
        exact mem_map_of_mem hview
      have hrow : replaceOpen row head = row := if_pos ⟨hhead, hclosed⟩
      have hdropped : (head :: rest).filter (·.isTerminal) = rest.filter (·.isTerminal) :=
        filter_cons_of_neg (by simp [hclosed])
      rw [map_cons, hrow, hrest, hdropped, ← singleton_append, filter_append]
      exact perm_append_comm
    · have hkept : replaceOpen row head = head := if_neg (by simp [hhead])
      have hrest := ih hids.2
        (by
          obtain ⟨view, hview, heq⟩ := hmem
          rcases mem_cons.mp hview with rfl | hview
          · exact absurd heq hhead
          · exact ⟨view, hview, heq⟩)
        (fun view hview => hopen view (mem_cons_of_mem _ hview))
      rw [map_cons, hkept]
      by_cases hterminal : head.isTerminal = true
      · rw [filter_cons_of_pos hterminal, filter_cons_of_pos hterminal]
        exact hrest.cons head
      · rw [filter_cons_of_neg hterminal, filter_cons_of_neg hterminal]
        exact hrest

theorem mergeTick_of_mem (h : ∃ view ∈ views, view.tickId = row.tickId) :
    mergeTick views row = views.map (replaceOpen row) := if_pos (by simpa using h)

theorem mergeTick_of_notMem (h : ∀ view ∈ views, view.tickId ≠ row.tickId) :
    mergeTick views row = views ++ [row] := if_neg (by simpa using h)

theorem Merged.mergeTick (h : Merged rows views) (honce : TerminalOnce (rows ++ [row])) :
    Merged (rows ++ [row]) (mergeTick views row) := by
  by_cases hmem : ∃ view ∈ views, view.tickId = row.tickId
  · rw [mergeTick_of_mem hmem]
    have hids : ((views.map (replaceOpen row)).map (·.tickId)).Nodup := by
      rw [map_map, Function.comp_def]
      simpa only [tickId_replaceOpen] using h.ids
    have hsubset : views.map (replaceOpen row) ⊆ rows ++ [row] := by
      intro tick htick
      obtain ⟨view, hview, rfl⟩ := mem_map.mp htick
      unfold replaceOpen
      split_ifs
      · simp
      · exact mem_append_left _ (h.subset hview)
    refine ⟨hids, hsubset, ?_⟩
    rw [filter_append]
    by_cases hopen : ∀ view ∈ views, view.tickId = row.tickId → view.isTerminal = false
    · exact (filter_terminal_replaceOpen h.ids hmem hopen).trans (h.terminal.append_right _)
    · push Not at hopen
      obtain ⟨closed, hclosed, hid, hterminal⟩ := hopen
      have hterminal : closed.isTerminal = true := by simpa using hterminal
      have hrow : row.isTerminal = false := by
        by_contra hrow
        exact (terminalOnce_append_singleton.mp honce).2 (by simpa using hrow) closed
          (h.subset hclosed) hterminal hid
      have hkept : views.map (replaceOpen row) = views := by
        refine (map_congr_left fun view hview => ?_).trans (map_id views)
        refine if_neg fun hview' => ?_
        have hsame : view = closed :=
          inj_on_of_nodup_map h.ids hview hclosed (hview'.1.trans hid.symm)
        rw [hsame, hterminal] at hview'
        exact absurd hview'.2 (by simp)
      rw [hkept, filter_cons_of_neg (by simp [hrow]), filter_nil, append_nil]
      exact h.terminal
  · push Not at hmem
    rw [mergeTick_of_notMem hmem]
    refine ⟨?_, ?_, ?_⟩
    · rw [map_append, nodup_append]
      refine ⟨h.ids, by simp, ?_⟩
      intro i hi j hj
      obtain ⟨view, hview, rfl⟩ := mem_map.mp hi
      obtain rfl := mem_singleton.mp hj
      exact hmem view hview
    · exact append_subset.mpr ⟨fun view hview => mem_append_left _ (h.subset hview),
        fun view hview => mem_append_right _ hview⟩
    · rw [filter_append, filter_append]
      exact h.terminal.append_right _

theorem merged_foldl (honce : TerminalOnce rows) : Merged rows (rows.foldl mergeTick []) := by
  induction rows using reverseRecOn with
  | nil => exact ⟨nodup_nil, List.Subset.refl _, List.Perm.refl _⟩
  | append_singleton rows row ih =>
    rw [foldl_append]
    exact (ih (honce.sublist (sublist_append_left _ _))).mergeTick honce

theorem reduceTicks_terminal (honce : TerminalOnce rows) :
    ((reduceTicks rows).filter (·.isTerminal)).Perm (rows.filter (·.isTerminal)) :=
  ((perm_insertionSort _ _).filter _).trans (merged_foldl honce).terminal

theorem countP_reduceTicks (honce : TerminalOnce rows) {p : AdapterSensorTickRecord → Bool}
    (hp : ∀ tick, p tick = true → tick.isTerminal = true) :
    (reduceTicks rows).countP p = rows.countP p := by
  have hfilter : ∀ ticks : List AdapterSensorTickRecord,
      (ticks.filter (·.isTerminal)).countP p = ticks.countP p := by
    intro ticks
    rw [countP_filter]
    refine countP_congr fun tick _ => ?_
    simpa using hp tick
  rw [← hfilter, ← hfilter rows]
  exact (reduceTicks_terminal honce).countP_eq p

variable {sensorName eventId : String}

/-- The rows of one sensor about one event. -/
def concerns (sensorName eventId : String) (tick : AdapterSensorTickRecord) : Bool :=
  tick.sensorName = sensorName ∧ tick.eventId = some eventId

theorem eventTicks_perm :
    (eventTicks ticks sensorName eventId).Perm (ticks.filter (concerns sensorName eventId)) :=
  perm_insertionSort _ _

theorem TerminalOnce.eventTicks (h : TerminalOnce ticks) (sensorName eventId : String) :
    TerminalOnce (eventTicks ticks sensorName eventId) :=
  (h.sublist filter_sublist).perm eventTicks_perm

theorem failedAttempts_eq (h : TerminalOnce ticks) :
    (tickAttemptState ticks sensorName eventId).failedAttempts =
      ticks.countP fun tick => concerns sensorName eventId tick && tick.isFailed := by
  have hcount := countP_reduceTicks (h.eventTicks sensorName eventId)
    (fun _ => AdapterSensorTickRecord.isTerminal_of_isFailed)
  calc (tickAttemptState ticks sensorName eventId).failedAttempts
      = (reduceTicks (Sensors.eventTicks ticks sensorName eventId)).countP (·.isFailed) :=
        countP_eq_length_filter.symm
    _ = (Sensors.eventTicks ticks sensorName eventId).countP (·.isFailed) := hcount
    _ = (ticks.filter (concerns sensorName eventId)).countP (·.isFailed) :=
        eventTicks_perm.countP_eq _
    _ = _ := by
      rw [countP_filter]
      exact countP_congr fun tick _ => by simp [and_comm]

theorem resolved_iff (h : TerminalOnce ticks) :
    (tickAttemptState ticks sensorName eventId).resolved = true ↔
      ∃ tick ∈ ticks, concerns sensorName eventId tick = true ∧ tick.isResolved = true := by
  have hcount := countP_reduceTicks (h.eventTicks sensorName eventId)
    (fun _ => AdapterSensorTickRecord.isTerminal_of_isResolved)
  calc (tickAttemptState ticks sensorName eventId).resolved = true
      ↔ 0 < (reduceTicks (Sensors.eventTicks ticks sensorName eventId)).countP (·.isResolved) := by
        rw [countP_pos_iff]
        exact any_eq_true
    _ ↔ 0 < (ticks.filter (concerns sensorName eventId)).countP (·.isResolved) := by
        rw [hcount, eventTicks_perm.countP_eq]
    _ ↔ _ := by
        rw [countP_pos_iff]
        simp only [mem_filter, and_assoc]

end SqlTide.Sensors
