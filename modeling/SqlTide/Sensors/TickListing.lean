import SqlTide.Foundations.NewestGroups
import SqlTide.Sensors.BoundedAttempts

/-!
# Listing the newest ticks

`list_ticks` fetches twice as many rows as it is to return ticks, newest first, and reduces them
afterwards. The rows of a tick start together and there are at most two of them, so that the rows
fetched hold those of every tick returned, in whatever order the warehouse returns equal rows.
-/

namespace SqlTide.Sensors

open Foundations List Runs SensorState

variable {ticks ticks' rows rows' : List AdapterSensorTickRecord} {views : List SensorTickView}
  {row view : AdapterSensorTickRecord} {sensorName : String} {after before : Option ℤ} {limit : ℕ}

/-- The rows that `sensor_ticks_query` selects. -/
def listedTicks (ticks : List AdapterSensorTickRecord) (sensorName : String)
    (after before : Option ℤ) : List AdapterSensorTickRecord :=
  ticks.filter fun tick =>
    tick.sensorName = sensorName && after.all (· ≤ tick.startedAt) && before.all
      (tick.startedAt ≤ ·)

/-- What `sensor_ticks_query` may return: rows that its order does not tell apart come in any
order. -/
def SensorTicksQuery (ticks : List AdapterSensorTickRecord) (sensorName : String) (limit : ℕ)
    (after before : Option ℤ) (rows : List AdapterSensorTickRecord) : Prop :=
  ∃ ordered, ordered.Perm (listedTicks ticks sensorName after before) ∧
    NewestFirst startOrder ordered ∧ rows = ordered.take limit

/-- `list_ticks`, by the rows that its query returns for a limit. -/
def listTicks (query : ℕ → List AdapterSensorTickRecord) (limit : ℕ) : List SensorTickView :=
  ((reduceTicks (query (limit * 2))).reverse).take limit

/-- No two STARTED rows carry one tick id. -/
def StartedOnce (ticks : List AdapterSensorTickRecord) : Prop :=
  ((ticks.filter (!·.isTerminal)).map (·.tickId)).Nodup

instance : Decidable (TerminalOnce ticks) := inferInstanceAs (Decidable (List.Nodup _))

instance : Decidable (StartedOnce ticks) := inferInstanceAs (Decidable (List.Nodup _))

/-- A tick has at most a STARTED and a terminal row, of one sensor and one start. -/
structure PairedTicks (ticks : List AdapterSensorTickRecord) : Prop where
  terminal : TerminalOnce ticks
  started : StartedOnce ticks
  sensor : ∀ tick ∈ ticks, ∀ tick' ∈ ticks, tick.tickId = tick'.tickId →
    tick.sensorName = tick'.sensorName
  start : ∀ tick ∈ ticks, ∀ tick' ∈ ticks, tick.tickId = tick'.tickId →
    tick.startedAt = tick'.startedAt

/-- The newest ticks of some rows, each with its terminal row where there is one. -/
structure NewestTicks (rows : List AdapterSensorTickRecord) (limit : ℕ)
    (views : List SensorTickView) : Prop where
  subset : views ⊆ rows
  terminal : ∀ view ∈ views, ∀ row ∈ rows, row.tickId = view.tickId → row.isTerminal = true →
    view = row
  distinct : (views.map (·.tickId)).Nodup
  ordered : views.Pairwise fun view view' => startOrder view' < startOrder view
  length_le : views.length ≤ limit
  newest : ∀ row ∈ rows, row.tickId ∉ views.map (·.tickId) →
    views.length = limit ∧ ∀ view ∈ views, startOrder row < startOrder view

theorem StartedOnce.sublist (h : StartedOnce ticks) (hsub : ticks'.Sublist ticks) :
    StartedOnce ticks' := List.Nodup.sublist ((hsub.filter _).map _) h

theorem StartedOnce.perm (h : StartedOnce ticks) (hperm : ticks'.Perm ticks) :
    StartedOnce ticks' := (((hperm.filter _).map _).nodup_iff).mpr h

theorem exists_mergeTick (row : AdapterSensorTickRecord) :
    ∀ view ∈ views ++ [row], ∃ view' ∈ mergeTick views row, view'.tickId = view.tickId := by
  intro view hview
  by_cases hmem : ∃ view ∈ views, view.tickId = row.tickId
  · rw [mergeTick_of_mem hmem]
    obtain ⟨known, hknown, hid⟩ : ∃ known ∈ views, known.tickId = view.tickId := by
      rcases mem_append.mp hview with hold | hlast
      · exact ⟨view, hold, rfl⟩
      · obtain rfl := mem_singleton.mp hlast
        exact hmem
    exact ⟨_, mem_map_of_mem hknown, (tickId_replaceOpen known).trans hid⟩
  · push Not at hmem
    rw [mergeTick_of_notMem hmem]
    exact ⟨view, hview, rfl⟩

theorem exists_foldl_mergeTick (hrow : row ∈ rows) :
    ∃ view ∈ rows.foldl mergeTick [], view.tickId = row.tickId := by
  induction rows using reverseRecOn with
  | nil => simp at hrow
  | append_singleton rows last ih =>
    rw [foldl_append]
    rcases mem_append.mp hrow with hold | hlast
    · obtain ⟨view, hview, hid⟩ := ih hold
      obtain ⟨view', hview', hid'⟩ := exists_mergeTick last view (mem_append_left _ hview)
      exact ⟨view', hview', hid'.trans hid⟩
    · obtain rfl := mem_singleton.mp hlast
      exact exists_mergeTick row row (by simp)

theorem exists_reduceTicks (hrow : row ∈ rows) :
    ∃ view ∈ reduceTicks rows, view.tickId = row.tickId := by
  obtain ⟨view, hview, hid⟩ := exists_foldl_mergeTick hrow
  exact ⟨view, (mem_insertionSort _).mpr hview, hid⟩

theorem reduceTicks_merged (honce : TerminalOnce rows) : Merged rows (reduceTicks rows) := by
  have hmerged := merged_foldl honce
  have hperm := perm_insertionSort (startOrder · ≤ startOrder ·) (rows.foldl mergeTick [])
  exact ⟨((hperm.map _).nodup_iff).mpr hmerged.ids,
    fun view hview => hmerged.subset (hperm.subset hview),
    (hperm.filter _).trans hmerged.terminal⟩

theorem reduceTicks_eq_terminal (honce : TerminalOnce rows) (hview : view ∈ reduceTicks rows)
    (hrow : row ∈ rows) (hid : row.tickId = view.tickId) (hterminal : row.isTerminal = true) :
    view = row := by
  have hmerged := reduceTicks_merged honce
  have hmem : row ∈ reduceTicks rows :=
    (mem_filter.mp (hmerged.terminal.symm.subset (mem_filter.mpr ⟨hrow, hterminal⟩))).1
  exact (inj_on_of_nodup_map hmerged.ids hmem hview hid).symm

theorem mem_reduceTicks (honce : TerminalOnce rows) (hstarted : StartedOnce rows) :
    view ∈ reduceTicks rows ↔ view ∈ rows ∧ (view.isTerminal = true ∨
      ∀ row ∈ rows, row.tickId = view.tickId → row.isTerminal = false) := by
  have hmerged := reduceTicks_merged honce
  constructor
  · intro hview
    refine ⟨hmerged.subset hview, ?_⟩
    by_contra hnot
    push Not at hnot
    obtain ⟨hopen, row, hrow, hid, hterminal⟩ := hnot
    have heq := reduceTicks_eq_terminal honce hview hrow hid (by simpa using hterminal)
    exact hopen (heq ▸ by simpa using hterminal)
  · rintro ⟨hview, hterminal | hlone⟩
    · exact (mem_filter.mp (hmerged.terminal.symm.subset (mem_filter.mpr ⟨hview, hterminal⟩))).1
    · obtain ⟨found, hfound, hid⟩ := exists_reduceTicks hview
      have hopen := hlone found (hmerged.subset hfound) hid
      have hfound' : found ∈ rows.filter (!·.isTerminal) :=
        mem_filter.mpr ⟨hmerged.subset hfound, by simp [hopen]⟩
      have hview' : view ∈ rows.filter (!·.isTerminal) :=
        mem_filter.mpr ⟨hview, by simp [hlone view hview rfl]⟩
      rwa [inj_on_of_nodup_map hstarted hview' hfound' hid.symm]

theorem reduceTicks_strict (honce : TerminalOnce rows) :
    (reduceTicks rows).Pairwise fun view view' => startOrder view < startOrder view' := by
  have hsorted : (reduceTicks rows).Pairwise fun view view' =>
    startOrder view ≤ startOrder view' := by
    have : Std.Total fun a b : AdapterSensorTickRecord => startOrder a ≤ startOrder b :=
      ⟨fun a b => le_total (startOrder a) (startOrder b)⟩
    have : IsTrans AdapterSensorTickRecord fun a b => startOrder a ≤ startOrder b :=
      ⟨fun _ _ _ hab hbc => le_trans hab hbc⟩
    exact pairwise_insertionSort _ _
  have hids := pairwise_map.mp (reduceTicks_merged honce).ids
  refine (hsorted.and hids).imp fun {view view'} h => lt_of_le_of_ne h.1 fun heq => h.2 ?_
  exact congrArg (fun k => (ofLex k).2) heq

theorem reduceTicks_eq_of_perm (honce : TerminalOnce rows) (hstarted : StartedOnce rows)
    (hperm : rows.Perm rows') : reduceTicks rows = reduceTicks rows' := by
  have honce' := honce.perm hperm.symm
  have hstarted' := hstarted.perm hperm.symm
  have hmem : ∀ view, view ∈ reduceTicks rows ↔ view ∈ reduceTicks rows' := by
    intro view
    rw [mem_reduceTicks honce hstarted, mem_reduceTicks honce' hstarted', hperm.mem_iff]
    simp only [hperm.mem_iff]
  have hnodup : (reduceTicks rows).Nodup := List.Nodup.of_map _ (reduceTicks_merged honce).ids
  have hnodup' : (reduceTicks rows').Nodup := List.Nodup.of_map _ (reduceTicks_merged honce').ids
  apply @List.Perm.eq_of_pairwise _ fun view view' => startOrder view < startOrder view'
  · intro view view' _ _ hlt hlt'
    exact absurd hlt (lt_asymm hlt')
  · exact reduceTicks_strict honce
  · exact reduceTicks_strict honce'
  · exact (perm_ext_iff_of_nodup hnodup hnodup').mpr hmem

theorem PairedTicks.sublist (h : PairedTicks ticks) (hsub : ticks'.Sublist ticks) :
    PairedTicks ticks' where
  terminal := h.terminal.sublist hsub
  started := h.started.sublist hsub
  sensor tick htick tick' htick' := h.sensor tick (hsub.subset htick) tick' (hsub.subset htick')
  start tick htick tick' htick' := h.start tick (hsub.subset htick) tick' (hsub.subset htick')

theorem PairedTicks.perm (h : PairedTicks ticks) (hperm : ticks'.Perm ticks) :
    PairedTicks ticks' where
  terminal := h.terminal.perm hperm
  started := h.started.perm hperm
  sensor tick htick tick' htick' :=
    h.sensor tick (hperm.subset htick) tick' (hperm.subset htick')
  start tick htick tick' htick' := h.start tick (hperm.subset htick) tick' (hperm.subset htick')

theorem PairedTicks.startOrder_eq (h : PairedTicks rows) (hrow : row ∈ rows) (hview : view ∈ rows)
    (hid : row.tickId = view.tickId) : startOrder row = startOrder view := by
  unfold startOrder
  rw [h.start row hrow view hview hid, hid]

theorem countP_tickId_le_one {p : AdapterSensorTickRecord → Bool}
    (h : ((rows.filter p).map (·.tickId)).Nodup) (tickId : String) :
    (rows.filter p).countP (·.tickId = tickId) ≤ 1 := by
  have hcount := nodup_iff_count_le_one.mp h tickId
  rwa [List.count, countP_map] at hcount

theorem PairedTicks.groupsOf (h : PairedTicks rows) : GroupsOf startOrder 2 rows := by
  intro k
  have hterminal := countP_tickId_le_one h.terminal (ofLex k).2
  have hstarted := countP_tickId_le_one h.started (ofLex k).2
  have hids : rows.countP (startOrder · = k) ≤ rows.countP (·.tickId = (ofLex k).2) := by
    apply countP_mono_left
    intro row _ hrow
    have hkey : startOrder row = k := of_decide_eq_true hrow
    exact decide_eq_true (congrArg (fun k => (ofLex k).2) hkey)
  have hsplit : rows.countP (·.tickId = (ofLex k).2) =
      (rows.filter (·.isTerminal)).countP (·.tickId = (ofLex k).2) +
        (rows.filter (!·.isTerminal)).countP (·.tickId = (ofLex k).2) := by
    rw [countP_filter, countP_filter]
    clear hterminal hstarted hids h
    induction rows with
    | nil => rfl
    | cons row rows ih =>
      simp only [countP_cons, ih]
      by_cases hid : row.tickId = (ofLex k).2 <;> by_cases hopen : row.isTerminal = true <;>
        simp [hid, hopen] <;> omega
  omega

theorem PairedTicks.newerKeys_reduceTicks (h : PairedTicks rows) (k : ℤ ×ₗ String) :
    newerKeys startOrder (reduceTicks rows).reverse k = newerKeys startOrder rows k := by
  apply newerKeys_congr
  intro k
  simp only [mem_reverse]
  constructor
  · rintro ⟨view, hview, hkey⟩
    exact ⟨view, (reduceTicks_merged h.terminal).subset hview, hkey⟩
  · rintro ⟨row, hrow, hkey⟩
    obtain ⟨view, hview, hid⟩ := exists_reduceTicks hrow
    have hsame := h.startOrder_eq ((reduceTicks_merged h.terminal).subset hview) hrow hid
    exact ⟨view, hview, hsame.trans hkey⟩

theorem PairedTicks.length_le (h : PairedTicks rows) :
    rows.length ≤ 2 * (reduceTicks rows).length := by
  have hcount : rows.countP (fun _ => true) ≤
      2 * ((reduceTicks rows).map startOrder).toFinset.card := by
    apply h.groupsOf.countP_le
    intro row hrow _
    obtain ⟨view, hview, hid⟩ := exists_reduceTicks hrow
    have hsame := h.startOrder_eq ((reduceTicks_merged h.terminal).subset hview) hrow hid
    exact mem_toFinset.mpr (hsame ▸ mem_map_of_mem hview)
  have hcard := toFinset_card_le ((reduceTicks rows).map startOrder)
  rw [length_map] at hcard
  rw [countP_true] at hcount
  omega

/-- Twice as many rows as ticks are enough, whatever order rows of one tick come in. -/
theorem PairedTicks.newestTicks_take (h : PairedTicks rows) (hordered : NewestFirst startOrder rows)
    (limit : ℕ) :
    NewestTicks rows limit ((reduceTicks (rows.take (2 * limit))).reverse.take limit) := by
  have hwindow : PairedTicks (rows.take (2 * limit)) := h.sublist (take_sublist _ _)
  have hmerged := reduceTicks_merged hwindow.terminal
  have hstrict : (reduceTicks (rows.take (2 * limit))).reverse.Pairwise
      fun view view' => startOrder view' < startOrder view :=
    pairwise_reverse.mpr (reduceTicks_strict hwindow.terminal)
  -- a view is returned where fewer than `limit` ticks of the log are newer
  have hreturned : ∀ view ∈ reduceTicks (rows.take (2 * limit)),
      view ∈ (reduceTicks (rows.take (2 * limit))).reverse.take limit ↔
        (newerKeys startOrder rows (startOrder view)).card < limit := by
    intro view hview
    rw [mem_take_iff_newerKeys hstrict (mem_reverse.mpr hview),
      hwindow.newerKeys_reduceTicks, hordered.newerKeys_take (hmerged.subset hview)]
  have hmem : ∀ view ∈ (reduceTicks (rows.take (2 * limit))).reverse.take limit,
      view ∈ reduceTicks (rows.take (2 * limit)) :=
    fun view hview => mem_reverse.mp (mem_of_mem_take hview)
  refine ⟨?_, ?_, ?_, hstrict.sublist (take_sublist _ _), length_take_le _ _, ?_⟩
  · intro view hview
    exact mem_of_mem_take (hmerged.subset (hmem view hview))
  · intro view hview row hrow hid hterminal
    have hview' := hmem view hview
    have hsame := h.startOrder_eq hrow (mem_of_mem_take (hmerged.subset hview')) hid
    have hfew := (hreturned view hview').mp hview
    rw [← hsame] at hfew
    exact reduceTicks_eq_terminal hwindow.terminal hview' (hordered.mem_take h.groupsOf hrow hfew)
      hid hterminal
  · have hids := nodup_reverse.mpr hmerged.ids
    rw [← map_reverse] at hids
    exact hids.sublist ((take_sublist _ _).map _)
  · intro row hrow hout
    -- of a tick that is not returned, at least `limit` others are newer
    have hmany : limit ≤ (newerKeys startOrder rows (startOrder row)).card := by
      by_contra hfew
      have hfetched := hordered.mem_take h.groupsOf hrow (not_le.mp hfew)
      obtain ⟨view, hview, hid⟩ := exists_reduceTicks hfetched
      have hsame := hwindow.startOrder_eq (hmerged.subset hview) hfetched hid
      have hback := (hreturned view hview).mpr (by rw [hsame]; exact not_le.mp hfew)
      exact hout (hid ▸ mem_map_of_mem hback)
    have hnewer : ∀ view ∈ (reduceTicks (rows.take (2 * limit))).reverse.take limit,
        startOrder row < startOrder view := by
      intro view hview
      have hfew := (hreturned view (hmem view hview)).mp hview
      by_contra hnot
      have hsubset : newerKeys startOrder rows (startOrder row) ⊆
          newerKeys startOrder rows (startOrder view) := newerKeys_subset (not_lt.mp hnot)
      have hcard := Finset.card_le_card hsubset
      omega
    refine ⟨?_, hnewer⟩
    by_contra hlength
    rw [length_take, length_reverse] at hlength
    have hall : (reduceTicks (rows.take (2 * limit))).length < limit := by omega
    have hfetched : row ∉ rows.take (2 * limit) := by
      intro hfetched
      obtain ⟨view, hview, hid⟩ := exists_reduceTicks hfetched
      rw [take_of_length_le (by rw [length_reverse]; omega)] at hout
      exact hout (hid ▸ mem_map_of_mem (mem_reverse.mpr hview))
    have hfull : 2 * limit ≤ rows.length := by
      by_contra hshort
      rw [take_of_length_le (by omega)] at hfetched
      exact hfetched hrow
    have hrows := hwindow.length_le
    rw [length_take] at hrows
    omega

theorem PairedTicks.listTicks (h : PairedTicks ticks) {query : ℕ → List AdapterSensorTickRecord}
    (hquery : SensorTicksQuery ticks sensorName (limit * 2) after before (query (limit * 2))) :
    NewestTicks (listedTicks ticks sensorName after before) limit
      (Sensors.listTicks query limit) := by
  obtain ⟨ordered, hperm, hordered, hrows⟩ := hquery
  have hpaired : PairedTicks ordered := (h.sublist filter_sublist).perm hperm
  have hnewest := hpaired.newestTicks_take hordered limit
  rw [Sensors.listTicks, hrows, Nat.mul_comm limit 2]
  exact ⟨fun view hview => hperm.subset (hnewest.subset hview),
    fun view hview row hrow => hnewest.terminal view hview row (hperm.symm.subset hrow),
    hnewest.distinct, hnewest.ordered, hnewest.length_le,
    fun row hrow => hnewest.newest row (hperm.symm.subset hrow)⟩

theorem PairedTicks.mem_listedTicks (h : PairedTicks ticks)
    (hview : view ∈ listedTicks ticks sensorName after before) (hrow : row ∈ ticks)
    (hid : row.tickId = view.tickId) : row ∈ listedTicks ticks sensorName after before := by
  obtain ⟨hview, hcondition⟩ := mem_filter.mp hview
  refine mem_filter.mpr ⟨hrow, ?_⟩
  rw [h.sensor row hrow view hview hid, h.start row hrow view hview hid]
  exact hcondition

/-- `list_ticks` returns the newest ticks of a log, each with its terminal row where the log has
one, and the reduction gives the same for all orders of its rows. -/
theorem listTicks_newestTicks :
    (∀ ticks sensorName after before limit query, PairedTicks ticks →
      SensorTicksQuery ticks sensorName (limit * 2) after before (query (limit * 2)) →
        NewestTicks (listedTicks ticks sensorName after before) limit (listTicks query limit) ∧
        ∀ view ∈ listTicks query limit, ∀ row ∈ ticks, row.tickId = view.tickId →
          row.isTerminal = true → view = row) ∧
    ∀ rows rows', TerminalOnce rows → StartedOnce rows → rows.Perm rows' →
      reduceTicks rows = reduceTicks rows' := by
  constructor
  · intro ticks sensorName after before limit query h hquery
    have hnewest := h.listTicks hquery
    refine ⟨hnewest, fun view hview row hrow hid hterminal => ?_⟩
    have hlisted := h.mem_listedTicks (hnewest.subset hview) hrow hid
    exact hnewest.terminal view hview row hlisted hid hterminal
  · intro rows rows' honce hstarted hperm
    exact reduceTicks_eq_of_perm honce hstarted hperm

def pollingTick (tickId : String) (status : SensorTickStatus) (startedAt : ℤ)
    (completedAt : Option ℤ) : AdapterSensorTickRecord where
  tickId := tickId
  sensorName := "poller"
  definitionFingerprint := "f1"
  kind := .polling
  eventId := none
  eventKind := none
  attempt := 1
  status := status
  startedAt := startedAt
  completedAt := completedAt
  errorMessage := none
  skipReason := none
  cursor := none

/-- A tick that is still open, and one that has been closed after the other began. -/
def overlappingTicks : List AdapterSensorTickRecord :=
  [pollingTick "b" .started 20 none, pollingTick "a" .started 10 none,
    pollingTick "a" .succeeded 10 (some 30)]

theorem listTicks_overlappingTicks :
    listTicks (overlappingTicks.take ·) 2 =
      [pollingTick "b" .started 20 none, pollingTick "a" .succeeded 10 (some 30)] ∧
    NewestTicks (listedTicks overlappingTicks "poller" none none) 2
      (listTicks (overlappingTicks.take ·) 2) := by
  refine ⟨by decide, (listTicks_newestTicks.1 overlappingTicks "poller" none none 2 _ ?_ ?_).1⟩
  · exact ⟨by decide, by decide, by decide, by decide⟩
  · exact ⟨overlappingTicks, by decide, by decide, rfl⟩

theorem PairedTicks.append (h : PairedTicks ticks)
    (hterminal : row.isTerminal = true → ∀ tick ∈ ticks, tick.isTerminal = true →
      tick.tickId ≠ row.tickId)
    (hstarted : row.isTerminal = false → ∀ tick ∈ ticks, tick.tickId ≠ row.tickId)
    (hshared : ∀ tick ∈ ticks, tick.tickId = row.tickId →
      tick.sensorName = row.sensorName ∧ tick.startedAt = row.startedAt) :
    PairedTicks (ticks ++ [row]) where
  terminal := terminalOnce_append_singleton.mpr ⟨h.terminal, hterminal⟩
  started := by
    by_cases hrow : row.isTerminal = true
    · simpa [StartedOnce, hrow] using h.started
    · have hrow : row.isTerminal = false := by simpa using hrow
      rw [StartedOnce, filter_append, map_append, nodup_append]
      refine ⟨h.started, List.Nodup.sublist (filter_sublist.map _) (nodup_singleton _), ?_⟩
      intro id hid id' hid'
      obtain ⟨tick, htick, rfl⟩ := mem_map.mp hid
      obtain ⟨last, hlast, rfl⟩ := mem_map.mp hid'
      obtain rfl := mem_singleton.mp (mem_filter.mp hlast).1
      exact hstarted hrow tick (mem_filter.mp htick).1
  sensor tick htick tick' htick' hid := by
    rcases mem_append.mp htick with hold | hlast <;> rcases mem_append.mp htick' with hold' | hlast'
    · exact h.sensor tick hold tick' hold' hid
    · obtain rfl := mem_singleton.mp hlast'
      exact (hshared tick hold hid).1
    · obtain rfl := mem_singleton.mp hlast
      exact (hshared tick' hold' hid.symm).1.symm
    · rw [mem_singleton.mp hlast, mem_singleton.mp hlast']
  start tick htick tick' htick' hid := by
    rcases mem_append.mp htick with hold | hlast <;> rcases mem_append.mp htick' with hold' | hlast'
    · exact h.start tick hold tick' hold' hid
    · obtain rfl := mem_singleton.mp hlast'
      exact (hshared tick hold hid).2
    · obtain rfl := mem_singleton.mp hlast
      exact (hshared tick' hold' hid.symm).2.symm
    · rw [mem_singleton.mp hlast, mem_singleton.mp hlast']

variable {dispatcher : SensorDispatcher} {state : SensorState} {pass : Pass}

theorem isTerminal_evaluateSensorHandler (sensor : LoadedSensor) (outcome : HandlerOutcome) :
    (evaluateSensorHandler sensor outcome).status.isTerminal = true := by
  cases outcome <;> rfl

theorem attempt?_record {attempt : Attempt} {evaluation : SensorEvaluation} :
    (state.record pass attempt evaluation).attempt? = none := by
  unfold attempt? record write
  cases attempt.occasion with
  | polling sensor => rfl
  | event delivery event =>
    dsimp only [Option.bind_some]
    split_ifs <;> rfl

/-- What the rows have in common with the attempt under way. -/
structure PairInv (dispatcher : SensorDispatcher) (state : SensorState) : Prop where
  ticks : TickInv dispatcher state
  paired : PairedTicks state.store.ticks
  attempt : ∀ attempt, state.attempt? = some attempt → ∀ tick ∈ state.store.ticks,
    tick.tickId = attempt.tickId →
      tick.sensorName = attempt.sensor.name ∧ tick.startedAt = attempt.startedAt
  evaluation : ∀ pass attempt evaluation, state.pass = some pass →
    pass.phase = .record attempt evaluation → evaluation.status.isTerminal = true

namespace PairInv

section

variable (h : PairInv dispatcher state)

include h

theorem quiet {state' : SensorState} (hquiet : Quiet state state') : PairInv dispatcher state' := by
  refine ⟨h.ticks.quiet hquiet, hquiet.ticks ▸ h.paired, ?_, ?_⟩
  · intro attempt hsome
    rw [hquiet.ticks]
    obtain ⟨pass', hpass', hattempt⟩ := Option.bind_eq_some_iff.mp hsome
    rcases hquiet.phase pass' hpass' with hsame | hphase
    · exact h.attempt attempt (Option.bind_eq_some_iff.mpr ⟨pass', hsame, hattempt⟩)
    · rw [attempt?_of_isQuiet hphase] at hattempt
      exact absurd hattempt (by simp)
  · intro pass' attempt evaluation hpass' hphase
    rcases hquiet.phase pass' hpass' with hsame | hquiet'
    · exact h.evaluation pass' attempt evaluation hsame hphase
    · rw [hphase] at hquiet'
      cases hquiet'

/-- No row has the id that is drawn next. -/
theorem ne_next : ∀ tick ∈ state.store.ticks,
    tick.tickId ≠ dispatcher.uuid4Hex state.store.uuidsDrawn := by
  intro tick htick heq
  obtain ⟨k, hk, hdrawn⟩ := h.ticks.drawn tick htick
  have := dispatcher.uuid4Hex_injective (hdrawn.symm.trans heq)
  omega

theorem paired_append (hid : row.tickId = dispatcher.uuid4Hex state.store.uuidsDrawn) :
    PairedTicks (state.store.ticks ++ [row]) := by
  have hne := h.ne_next
  rw [← hid] at hne
  exact h.paired.append (fun _ tick htick _ => hne tick htick) (fun _ => hne)
    fun tick htick heq => absurd heq (hne tick htick)

theorem goto {phase : Phase} (hphase : phase.attempt? = none) :
    PairInv dispatcher (state.goto pass phase) := by
  refine ⟨h.ticks.goto hphase, h.paired, ?_, ?_⟩
  · intro attempt hsome
    simp [attempt?, SensorState.goto, hphase] at hsome
  · intro pass' attempt evaluation hpass' hrecord
    cases hpass'
    obtain rfl : phase = .record attempt evaluation := hrecord
    cases hphase

theorem start (occasion : Occasion) (attemptNumber : ℕ) :
    PairInv dispatcher (state.start dispatcher pass occasion attemptNumber) := by
  refine ⟨h.ticks.start occasion attemptNumber, h.paired_append rfl, ?_, ?_⟩
  · intro attempt hsome tick htick hid
    cases hsome
    rcases mem_append.mp htick with hold | hlast
    · exact absurd hid (h.ne_next tick hold)
    · obtain rfl := mem_singleton.mp hlast
      exact ⟨rfl, rfl⟩
  · intro pass' attempt evaluation hpass' hrecord
    cases hpass'
    cases hrecord

theorem tickStep (hpass : state.pass = some pass) {answer : Answer} {state' : SensorState}
    (hstep : TickStep dispatcher state pass answer state') : PairInv dispatcher state' := by
  have hticks := h.ticks.tickStep hpass hstep
  have hattempt : state.attempt? = pass.phase.attempt? := by simp [attempt?, hpass]
  cases hstep with
  | quiet hphase hquiet => exact h.quiet hquiet
  | giveUp hphase hattempts hunresolved => exact h.goto rfl
  | tryAgain hphase hattempts hunresolved hfailed => exact h.goto rfl
  | start hphase => exact h.start _ _
  | poll hphase => exact h.start _ _
  | @evaluate attempt hphase =>
    have hsame : (state.evaluate pass attempt answer).attempt? = state.attempt? := by
      rw [hattempt, hphase]
      rfl
    refine ⟨hticks, h.paired, fun attempt' hsome => h.attempt attempt' (hsame ▸ hsome), ?_⟩
    intro pass' attempt' evaluation hpass' hrecord
    cases hpass'
    obtain ⟨-, rfl⟩ := Phase.record.inj hrecord
    exact isTerminal_evaluateSensorHandler _ _
  | @record attempt evaluation hphase =>
    have hunder : state.attempt? = some attempt := by
      rw [hattempt, hphase]
      rfl
    have hterminal := h.evaluation pass attempt evaluation hpass hphase
    refine ⟨hticks, h.paired.append ?_ ?_ ?_, ?_, ?_⟩
    · intro _ tick htick hclosed
      exact h.ticks.attempt_open attempt hunder tick htick hclosed
    · intro hopen
      exact absurd (hterminal.symm.trans hopen) (by simp)
    · exact h.attempt attempt hunder
    · intro attempt' hsome
      rw [attempt?_record] at hsome
      cases hsome
    · intro pass' attempt' evaluation' hpass' hrecord
      have hnone := @attempt?_record state pass attempt evaluation
      rw [attempt?, hpass', Option.bind_some, hrecord] at hnone
      cases hnone
  | deadLetter hphase =>
    refine ⟨hticks, h.paired_append rfl, ?_, ?_⟩
    · intro attempt hsome
      simp [attempt?, writeDeadLetter, write, Phase.attempt?] at hsome
    · intro pass' attempt evaluation hpass' hrecord
      cases hpass'
      cases hrecord

theorem next (e : DispatchEvent) : PairInv dispatcher (nextDispatch dispatcher state e) :=
  nextDispatch_induction h.quiet h.tickStep e

end

theorem fresh {observations : List Observation} {hids : IdsOnce observations} {clock : ℤ} :
    PairInv dispatcher (.fresh observations hids clock) where
  ticks := .fresh
  paired := ⟨nodup_nil,
    nodup_nil, by simp [SensorState.fresh], by simp [SensorState.fresh]⟩
  attempt _ hsome := by simp [attempt?, SensorState.fresh] at hsome
  evaluation _ _ _ hpass := by simp [SensorState.fresh] at hpass

end PairInv

/-- Whatever passes, crashes and late rows there have been, the log has paired rows. -/
theorem run_pairedTicks {observations : List Observation} {hids : IdsOnce observations} {clock : ℤ}
    (events : List DispatchEvent) :
    PairedTicks
      (run (nextDispatch dispatcher) (.fresh observations hids clock) events).store.ticks := by
  have hinv := run_invariant (nextDispatch dispatcher) (I := PairInv dispatcher)
    (fun state e h _ => h.next e) PairInv.fresh
    (along_true (nextDispatch dispatcher) (.fresh observations hids clock) events)
  exact hinv.paired

/-- The handler is called and the process dies, it is called again and raises, and the event is
given up. -/
def crashedAttempt : List DispatchEvent :=
  firstCall .returned ++
    .crash :: .dispatchOnce true :: passSteps 14 (.raised "ValueError" "no channel") ++
    .dispatchOnce true :: passSteps 14 .returned

theorem run_pairedTicks_audits :
    let ticks := (run (nextDispatch auditDispatcher) (.fresh [] nodup_nil 10)
      crashedAttempt).store.ticks
    ticks.map (·.status) = [.started, .started, .failed, .deadLettered] ∧ PairedTicks ticks :=
  ⟨by decide +kernel, run_pairedTicks crashedAttempt⟩

end SqlTide.Sensors
