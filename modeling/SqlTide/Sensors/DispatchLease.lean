import Mathlib.Data.List.MinMax
import Mathlib.Data.Prod.Lex
import Mathlib.Data.String.Basic
import SqlTide.Foundations.Runs

/-!
# The dispatch lease

Dispatchers take a lease by a read of an append-only log, an insert and a second read. There is no
compare-and-set: two dispatchers that read before either has inserted can confirm one after the
other. The lease is exclusive in every run in which no dispatcher inserts its row over a lease that
another one has confirmed since the read.
-/

namespace SqlTide.Sensors.DispatchLease

open List Runs

/-- A row of the dispatch lease, the only one that is taken; times are in milliseconds. -/
structure LeaseRow where
  ownerId : String
  acquiredAt : ℕ
  expiresAt : ℕ
  deriving DecidableEq, Repr

/-- What the lease query orders by. -/
def LeaseRow.key (row : LeaseRow) : ℕ ×ₗ ℕ ×ₗ String :=
  toLex (row.acquiredAt, toLex (row.expiresAt, row.ownerId))

/-- `_current_lease_owner`: the owner of the newest row that has not expired. -/
def currentLeaseOwner (log : List LeaseRow) (now : ℕ) : Option String :=
  ((log.filter fun row => now < row.expiresAt).argmax LeaseRow.key).map (·.ownerId)

/-- Where a dispatcher stands in `acquire_dispatch_lease`. When the first read has let it pass,
`seen` counts the leases confirmed until then. -/
inductive Phase
  | idle
  | captured (now : ℕ)
  | cleared (now seen : ℕ)
  | inserted (now : ℕ) (row : LeaseRow)
  deriving DecidableEq, Repr

structure State where
  clock : ℕ
  log : List LeaseRow
  phase : String → Phase
  /-- The rows of the successful calls, in the order of their returns. -/
  confirmed : List LeaseRow

inductive Event
  | tick (elapsed : ℕ)
  | capture (dispatcher : String)
  | query (dispatcher : String)
  | insert (dispatcher : String) (ttl : ℕ)
  | requery (dispatcher : String)
  deriving DecidableEq, Repr

def start : State := ⟨0, [], fun _ => .idle, []⟩

def State.goTo (s : State) (dispatcher : String) (phase : Phase) : State :=
  { s with phase := Function.update s.phase dispatcher phase }

/-- One statement of a dispatcher in `acquire_dispatch_lease`, or some time of the warehouse. -/
def next (s : State) : Event → State
  | .tick elapsed => { s with clock := s.clock + elapsed }
  | .capture dispatcher =>
    match s.phase dispatcher with
    | .idle => s.goTo dispatcher (.captured s.clock)
    | _ => s
  | .query dispatcher =>
    match s.phase dispatcher with
    | .captured now =>
      match currentLeaseOwner s.log now with
      | none => s.goTo dispatcher (.cleared now s.confirmed.length)
      | some owner =>
        if owner = dispatcher then s.goTo dispatcher (.cleared now s.confirmed.length)
        else s.goTo dispatcher .idle
    | _ => s
  | .insert dispatcher ttl =>
    match s.phase dispatcher with
    | .cleared now _ =>
      let row : LeaseRow := ⟨dispatcher, now, now + ttl⟩
      { s.goTo dispatcher (.inserted now row) with log := s.log ++ [row] }
    | _ => s
  | .requery dispatcher =>
    match s.phase dispatcher with
    | .inserted now row =>
      if currentLeaseOwner s.log now = some dispatcher then
        { s.goTo dispatcher .idle with confirmed := s.confirmed ++ [row] }
      else s.goTo dispatcher .idle
    | _ => s

/-- A successful call has given the dispatcher a lease that has not expired. -/
def Holds (s : State) (dispatcher : String) : Prop :=
  ∃ row ∈ s.confirmed, row.ownerId = dispatcher ∧ s.clock < row.expiresAt

def Exclusive (s : State) : Prop :=
  ∀ dispatcher dispatcher', Holds s dispatcher → Holds s dispatcher' → dispatcher = dispatcher'

/-- The leases that other dispatchers have confirmed since the read have expired, or sort behind the
row that is to be inserted. -/
def Behind (s : State) (dispatcher : String) (ttl : ℕ) : Phase → Prop
  | .cleared now seen => ∀ row ∈ s.confirmed.drop seen, row.ownerId ≠ dispatcher →
      s.clock < row.expiresAt → (⟨dispatcher, now, now + ttl⟩ : LeaseRow).key < row.key
  | _ => True

/-- No row is inserted over a lease that another dispatcher has confirmed since the read. -/
def InsertsBehind (s : State) : Event → Prop
  | .insert dispatcher ttl => Behind s dispatcher ttl (s.phase dispatcher)
  | _ => True

instance (s : State) (dispatcher : String) (ttl : ℕ) :
    ∀ phase, Decidable (Behind s dispatcher ttl phase)
  | .idle => instDecidableTrue
  | .captured _ => instDecidableTrue
  | .cleared now seen => inferInstanceAs (Decidable (∀ row ∈ s.confirmed.drop seen,
      row.ownerId ≠ dispatcher → s.clock < row.expiresAt →
        (⟨dispatcher, now, now + ttl⟩ : LeaseRow).key < row.key))
  | .inserted _ _ => instDecidableTrue

instance (s : State) : ∀ e, Decidable (InsertsBehind s e)
  | .tick _ => instDecidableTrue
  | .capture _ => instDecidableTrue
  | .query _ => instDecidableTrue
  | .insert dispatcher ttl =>
    inferInstanceAs (Decidable (Behind s dispatcher ttl (s.phase dispatcher)))
  | .requery _ => instDecidableTrue

theorem LeaseRow.key_injective : Function.Injective LeaseRow.key := by
  rintro ⟨owner, acquired, expires⟩ ⟨owner', acquired', expires'⟩ h
  simp only [LeaseRow.key, EmbeddingLike.apply_eq_iff_eq, Prod.mk.injEq] at h
  obtain ⟨rfl, rfl, rfl⟩ := h
  rfl

variable {row row' lease : LeaseRow} {log : List LeaseRow}

theorem LeaseRow.key_lt_of_acquired (h : row.acquiredAt < row'.acquiredAt) : row.key < row'.key :=
  Prod.Lex.toLex_lt_toLex.mpr (.inl h)

theorem LeaseRow.key_lt_of_expires (h : row.acquiredAt ≤ row'.acquiredAt)
    (hexpires : row.expiresAt < row'.expiresAt) : row.key < row'.key := by
  rcases h.lt_or_eq with hlt | heq
  · exact LeaseRow.key_lt_of_acquired hlt
  · exact Prod.Lex.toLex_lt_toLex.mpr (.inr ⟨heq, Prod.Lex.toLex_lt_toLex.mpr (.inl hexpires)⟩)

theorem LeaseRow.expires_le_of_key_le (hkey : row.key ≤ row'.key)
    (hacquired : row'.acquiredAt ≤ row.acquiredAt) : row.expiresAt ≤ row'.expiresAt := by
  by_contra hlt
  exact absurd (LeaseRow.key_lt_of_expires hacquired (not_le.mp hlt)) (not_lt.mpr hkey)

theorem currentLeaseOwner_eq_some {now : ℕ} {owner : String} :
    currentLeaseOwner log now = some owner ↔
      ∃ top ∈ log, top.ownerId = owner ∧ now < top.expiresAt ∧
        ∀ row ∈ log, now < row.expiresAt → row.key ≤ top.key := by
  rw [currentLeaseOwner, Option.map_eq_some_iff]
  constructor
  · rintro ⟨top, htop, howner⟩
    have hmem := mem_filter.mp (argmax_mem htop)
    refine ⟨top, hmem.1, howner, by simpa using hmem.2, ?_⟩
    intro row hrow hnow
    exact le_of_mem_argmax (mem_filter.mpr ⟨hrow, by simpa using hnow⟩) htop
  · rintro ⟨top, hmem, howner, hnow, hmax⟩
    have htop : top ∈ log.filter fun row => now < row.expiresAt :=
      mem_filter.mpr ⟨hmem, by simpa using hnow⟩
    cases hfound : (log.filter fun row => now < row.expiresAt).argmax LeaseRow.key with
    | none => simp [argmax_eq_none.mp hfound] at htop
    | some found =>
      have hle := le_of_mem_argmax htop hfound
      have hkept := mem_filter.mp (argmax_mem hfound)
      have hge := hmax found hkept.1 (by simpa using hkept.2)
      exact ⟨found, rfl, LeaseRow.key_injective (le_antisymm hge hle) ▸ howner⟩

/-- A lease stands in the log: a row of its owner, as long as it and no older, is newer than every
row of the others. -/
def Stands (log : List LeaseRow) (lease : LeaseRow) : Prop :=
  ∃ top ∈ log, top.ownerId = lease.ownerId ∧ lease.key ≤ top.key ∧
    lease.expiresAt ≤ top.expiresAt ∧
    ∀ row ∈ log, row.ownerId ≠ lease.ownerId → row.key < top.key

theorem Stands.currentLeaseOwner {now : ℕ} (h : Stands log lease) (hnow : now < lease.expiresAt) :
    currentLeaseOwner log now = some lease.ownerId := by
  obtain ⟨top, htop, hsame, -, hexpires, hothers⟩ := h
  have hrunning : top ∈ log.filter fun row => now < row.expiresAt :=
    mem_filter.mpr ⟨htop, by simpa using hnow.trans_le hexpires⟩
  cases howner : DispatchLease.currentLeaseOwner log now with
  | none =>
    rw [DispatchLease.currentLeaseOwner, Option.map_eq_none_iff, argmax_eq_none] at howner
    simp [howner] at hrunning
  | some owner =>
    obtain ⟨newest, hnewest, rfl, -, hmax⟩ := currentLeaseOwner_eq_some.mp howner
    by_contra hne
    have hlt := hothers newest hnewest fun heq => hne (congrArg some heq)
    exact absurd (hmax top htop (by omega)) (not_le.mpr hlt)

theorem Stands.append (h : Stands log lease)
    (hrow : row.ownerId ≠ lease.ownerId → row.key < lease.key) : Stands (log ++ [row]) lease := by
  obtain ⟨top, htop, hsame, hkey, hexpires, hothers⟩ := h
  refine ⟨top, mem_append_left _ htop, hsame, hkey, hexpires, ?_⟩
  intro other hother hne
  rcases mem_append.mp hother with hother | hother
  · exact hothers other hother hne
  · obtain rfl := mem_singleton.mp hother
    exact (hrow hne).trans_le hkey

theorem stands_of_currentLeaseOwner {now : ℕ}
    (hlease : lease ∈ log) (hacquired : lease.acquiredAt = now) (hnow : now < lease.expiresAt)
    (hterms : ∀ row ∈ log, row.acquiredAt ≤ row.expiresAt)
    (hown : ∀ row ∈ log, row.ownerId = lease.ownerId → row.acquiredAt ≤ now)
    (howner : currentLeaseOwner log now = some lease.ownerId) : Stands log lease := by
  obtain ⟨top, htop, hsame, hrunning, hmax⟩ := currentLeaseOwner_eq_some.mp howner
  have hkey := hmax lease hlease hnow
  have htaken := hown top htop hsame
  refine ⟨top, htop, hsame, hkey, LeaseRow.expires_le_of_key_le hkey (by omega), ?_⟩
  intro row hrow hne
  by_cases hexpired : now < row.expiresAt
  · refine lt_of_le_of_ne (hmax row hrow hexpired) fun heq => hne ?_
    rw [LeaseRow.key_injective heq, hsame]
  · have hterm := hterms row hrow
    have holder : lease.acquiredAt ≤ top.acquiredAt := by
      by_contra hlt
      exact absurd (LeaseRow.key_lt_of_acquired (not_le.mp hlt)) (not_lt.mpr hkey)
    exact LeaseRow.key_lt_of_expires (by omega) (by omega)

/-- The time that a dispatcher has captured. -/
def Phase.now : Phase → Option ℕ
  | .idle => none
  | .captured now => some now
  | .cleared now _ => some now
  | .inserted now _ => some now

/-- What holds of a dispatcher that stands at a phase. -/
structure PhaseInv (s : State) (dispatcher : String) (phase : Phase) : Prop where
  captured : ∀ now ∈ phase.now, now ≤ s.clock ∧
    ∀ row ∈ s.log, row.ownerId = dispatcher → row.acquiredAt ≤ now
  cleared : ∀ now seen, phase = .cleared now seen → seen ≤ s.confirmed.length ∧
    ∀ row ∈ s.confirmed.take seen, row.ownerId ≠ dispatcher → row.expiresAt ≤ s.clock
  inserted : ∀ now row, phase = .inserted now row →
    row ∈ s.log ∧ row.ownerId = dispatcher ∧ row.acquiredAt = now

structure LeaseInv (s : State) : Prop where
  terms : ∀ row ∈ s.log, row.acquiredAt ≤ row.expiresAt
  taken : ∀ row ∈ s.log, row.acquiredAt ≤ s.clock
  phases : ∀ dispatcher, PhaseInv s dispatcher (s.phase dispatcher)
  stands : ∀ row ∈ s.confirmed, s.clock < row.expiresAt → Stands s.log row
  exclusive : Exclusive s

variable {s : State} {dispatcher : String}

theorem phaseInv_idle : PhaseInv s dispatcher .idle := by
  constructor <;> simp [Phase.now]

theorem leaseInv_start : LeaseInv start where
  terms := by simp [start]
  taken := by simp [start]
  phases _ := phaseInv_idle
  stands := by simp [start]
  exclusive := by simp [start, Exclusive, Holds]

/-- What the phases of the others rest on is kept when time goes by and when rows of other owners
come in. -/
theorem PhaseInv.mono {s' : State} {phase : Phase} (h : PhaseInv s dispatcher phase)
    (hclock : s.clock ≤ s'.clock) (hlog : ∀ row ∈ s'.log, row ∈ s.log ∨ row.ownerId ≠ dispatcher)
    (hkept : ∀ row ∈ s.log, row ∈ s'.log) (hconfirmed : s.confirmed <+: s'.confirmed) :
    PhaseInv s' dispatcher phase where
  captured now hnow := by
    obtain ⟨hle, hrows⟩ := h.captured now hnow
    refine ⟨hle.trans hclock, fun row hrow howner => ?_⟩
    exact hrows row ((hlog row hrow).resolve_right fun hne => hne howner) howner
  cleared now seen hphase := by
    obtain ⟨hseen, hrows⟩ := h.cleared now seen hphase
    refine ⟨hseen.trans hconfirmed.length_le, fun row hrow hne => ?_⟩
    obtain ⟨later, hlater⟩ := hconfirmed
    rw [← hlater, take_append_of_le_length hseen] at hrow
    exact (hrows row hrow hne).trans hclock
  inserted now row hphase := by
    obtain ⟨hrow, howner, hacquired⟩ := h.inserted now row hphase
    exact ⟨hkept row hrow, howner, hacquired⟩

theorem LeaseInv.goTo {phase : Phase} (h : LeaseInv s) (hphase : PhaseInv s dispatcher phase) :
    LeaseInv (s.goTo dispatcher phase) where
  terms := h.terms
  taken := h.taken
  phases other := by
    have hmono :
      ∀ phase', PhaseInv s other phase' → PhaseInv (s.goTo dispatcher phase) other phase' :=
      fun phase' hother => hother.mono le_rfl (fun _ hrow => .inl hrow) (fun _ hrow => hrow)
        (prefix_refl _)
    by_cases hother : other = dispatcher
    · subst hother
      simpa [State.goTo] using hmono phase hphase
    · simpa [State.goTo, hother] using hmono _ (h.phases other)
  stands := h.stands
  exclusive := h.exclusive

theorem LeaseInv.tick (h : LeaseInv s) (elapsed : ℕ) : LeaseInv (next s (.tick elapsed)) where
  terms := h.terms
  taken row hrow := (h.taken row hrow).trans (Nat.le_add_right _ _)
  phases other := (h.phases other).mono (Nat.le_add_right _ _) (fun _ hrow => .inl hrow)
    (fun _ hrow => hrow) (prefix_refl _)
  stands row hrow hrunning := h.stands row hrow ((Nat.le_add_right _ _).trans_lt hrunning)
  exclusive := by
    have hearlier : ∀ owner, Holds (next s (.tick elapsed)) owner → Holds s owner := by
      rintro owner ⟨row, hrow, howner, hrunning⟩
      exact ⟨row, hrow, howner, (Nat.le_add_right _ _).trans_lt hrunning⟩
    exact fun _ _ hfirst hsecond => h.exclusive _ _ (hearlier _ hfirst) (hearlier _ hsecond)

theorem LeaseInv.capture (h : LeaseInv s) : LeaseInv (s.goTo dispatcher (.captured s.clock)) := by
  apply h.goTo
  refine ⟨?_, by simp, by simp⟩
  rintro now hnow
  obtain rfl : s.clock = now := by simpa [Phase.now] using hnow
  exact ⟨le_rfl, fun row hrow _ => h.taken row hrow⟩

/-- A read that finds no lease of another dispatcher finds that all of them have expired. -/
theorem LeaseInv.clear {now : ℕ} (h : LeaseInv s) (hphase : s.phase dispatcher = .captured now)
    (howner : ∀ owner ∈ currentLeaseOwner s.log now, owner = dispatcher) :
    LeaseInv (s.goTo dispatcher (.cleared now s.confirmed.length)) := by
  have hcaptured := (h.phases dispatcher).captured now (by simp [hphase, Phase.now])
  apply h.goTo
  refine ⟨?_, ?_, by simp⟩
  · rintro now' hnow
    obtain rfl : now = now' := by simpa [Phase.now] using hnow
    exact hcaptured
  · rintro now' seen hcleared
    obtain ⟨rfl, rfl⟩ : now = now' ∧ s.confirmed.length = seen := by simpa using hcleared
    refine ⟨le_rfl, fun row hrow hne => ?_⟩
    rw [take_length] at hrow
    by_contra hrunning
    have hstands := h.stands row hrow (not_le.mp hrunning)
    exact hne (howner _ (hstands.currentLeaseOwner (hcaptured.1.trans_lt (not_le.mp hrunning))))

theorem LeaseInv.insert {now seen ttl : ℕ} (h : LeaseInv s)
    (hphase : s.phase dispatcher = .cleared now seen)
    (hbehind : InsertsBehind s (.insert dispatcher ttl)) :
    LeaseInv (next s (.insert dispatcher ttl)) := by
  obtain ⟨hnow, hown⟩ := (h.phases dispatcher).captured now (by simp [hphase, Phase.now])
  obtain ⟨-, hcleared⟩ := (h.phases dispatcher).cleared now seen hphase
  simp only [InsertsBehind, hphase, Behind] at hbehind
  simp only [next, hphase]
  have hlog : ∀ {P : LeaseRow → Prop}, (∀ row ∈ s.log, P row) → P ⟨dispatcher, now, now + ttl⟩ →
      ∀ row ∈ s.log ++ [⟨dispatcher, now, now + ttl⟩], P row := by
    intro P hold hnew row hrow
    rcases mem_append.mp hrow with hrow | hrow
    · exact hold row hrow
    · exact mem_singleton.mp hrow ▸ hnew
  refine ⟨hlog h.terms (Nat.le_add_right _ _), hlog h.taken hnow, ?_, ?_, h.exclusive⟩
  · intro other
    by_cases hother : other = dispatcher
    · subst hother
      simp only [State.goTo, Function.update_self]
      refine ⟨?_, by simp, ?_⟩
      · intro now' hnow'
        obtain rfl : now = now' := by simpa [Phase.now] using hnow'
        exact ⟨hnow, hlog hown fun _ => le_rfl⟩
      · intro now' row hinserted
        obtain ⟨rfl, rfl⟩ : now = now' ∧ _ = row := by simpa using hinserted
        exact ⟨by simp, rfl, rfl⟩
    · simp only [State.goTo, Function.update_of_ne hother]
      refine PhaseInv.mono (h.phases other) ?_ ?_ ?_ ?_
      · exact le_rfl
      · exact hlog (fun _ hrow => .inl hrow) (.inr (Ne.symm hother))
      · exact fun _ hrow => mem_append_left _ hrow
      · exact prefix_refl _
  · intro lease hlease hrunning
    apply (h.stands lease hlease hrunning).append
    intro hne
    have hsplit : lease ∈ s.confirmed.take seen ++ s.confirmed.drop seen := by
      rw [take_append_drop]
      exact hlease
    -- a lease that was confirmed before the read has expired
    rcases mem_append.mp hsplit with hbefore | hsince
    · exact absurd (hcleared lease hbefore (Ne.symm hne)) (not_le.mpr hrunning)
    · exact hbehind lease hsince (Ne.symm hne) hrunning

/-- A second read confirms a lease only when the leases of the others have expired. -/
theorem LeaseInv.requery {now : ℕ} (h : LeaseInv s)
    (hphase : s.phase dispatcher = .inserted now row)
    (howner : currentLeaseOwner s.log now = some dispatcher) :
    LeaseInv { s.goTo dispatcher .idle with confirmed := s.confirmed ++ [row] } := by
  obtain ⟨hnow, hown⟩ := (h.phases dispatcher).captured now (by simp [hphase, Phase.now])
  obtain ⟨hrow, rfl, rfl⟩ := (h.phases dispatcher).inserted now row hphase
  have hidle : LeaseInv (s.goTo row.ownerId .idle) := h.goTo phaseInv_idle
  have hstands : ∀ lease ∈ s.confirmed, s.clock < lease.expiresAt →
    lease.ownerId = row.ownerId := by
    intro lease hlease hrunning
    have hother := (h.stands lease hlease hrunning).currentLeaseOwner (hnow.trans_lt hrunning)
    exact Option.some.inj (hother.symm.trans howner)
  refine ⟨h.terms, h.taken, ?_, ?_, ?_⟩
  · intro other
    refine PhaseInv.mono (hidle.phases other) ?_ ?_ ?_ ?_
    · exact le_rfl
    · exact fun _ hrow => .inl hrow
    · exact fun _ hrow => hrow
    · exact prefix_append _ _
  · intro lease hlease hrunning
    rcases mem_append.mp hlease with hlease | hlease
    · exact h.stands lease hlease hrunning
    · obtain rfl := mem_singleton.mp hlease
      exact stands_of_currentLeaseOwner hrow rfl (hnow.trans_lt hrunning) h.terms hown howner
  · have hholder : ∀ owner, Holds { s.goTo row.ownerId .idle with
        confirmed := s.confirmed ++ [row] } owner → owner = row.ownerId := by
      rintro owner ⟨lease, hlease, rfl, hrunning⟩
      rcases mem_append.mp hlease with hlease | hlease
      · exact hstands lease hlease hrunning
      · rw [mem_singleton.mp hlease]
    intro first second hfirst hsecond
    rw [hholder first hfirst, hholder second hsecond]

theorem leaseInv_next {e : Event} (h : LeaseInv s) (hbehind : InsertsBehind s e) :
    LeaseInv (next s e) := by
  cases e with
  | tick elapsed => exact h.tick elapsed
  | capture dispatcher =>
    simp only [next]
    split
    · exact h.capture
    · exact h
  | query dispatcher =>
    simp only [next]
    split
    · next now hphase =>
      split
      · next hnone => exact h.clear hphase (by simp [hnone])
      · next owner hsome =>
        split_ifs with hsame
        · exact h.clear hphase (by simp [hsome, hsame])
        · exact h.goTo phaseInv_idle
    · exact h
  | insert dispatcher ttl =>
    cases hphase : s.phase dispatcher with
    | cleared now seen => exact h.insert hphase hbehind
    | idle => simpa [next, hphase] using h
    | captured now => simpa [next, hphase] using h
    | inserted now row => simpa [next, hphase] using h
  | requery dispatcher =>
    simp only [next]
    split
    · next now row hphase =>
      split_ifs with howner
      · exact h.requery hphase howner
      · exact h.goTo phaseInv_idle
    · exact h

/-- As long as no row is inserted over a lease that another dispatcher has confirmed since the
read, no two dispatchers hold the lease at one time. -/
theorem exclusive_of_insertsBehind (events : List Event)
    (h : Along next InsertsBehind start events) : Exclusive (run next start events) :=
  (run_invariant next (I := LeaseInv) (fun _ _ hinv hbehind => leaseInv_next hinv hbehind)
    leaseInv_start h).exclusive

/-- One dispatcher takes the lease and renews it, another one is refused until it has expired. -/
def handover : List Event :=
  [.capture "a", .query "a", .insert "a" 60, .requery "a", .tick 20,
    .capture "a", .capture "b", .query "b", .query "a", .insert "a" 60, .requery "a", .tick 60,
    .capture "b", .query "b", .insert "b" 60, .requery "b"]

theorem exclusive_of_insertsBehind_handover :
    Exclusive (run next start handover) ∧ Holds (run next start handover) "b" := by
  refine ⟨exclusive_of_insertsBehind handover (by decide +kernel), ?_⟩
  exact ⟨⟨"b", 80, 140⟩, by decide +kernel, rfl, by decide +kernel⟩

/-- Two dispatchers read, then one inserts and confirms, then the other one. -/
def lateInsert : List Event :=
  [.capture "a", .query "a", .capture "b", .query "b", .insert "a" 60, .requery "a",
    .insert "b" 60, .requery "b"]

/-- Two dispatchers that read before either inserts both confirm the lease. -/
theorem not_exclusive : ¬ ∀ events, Exclusive (run next start events) := by
  intro h
  have ha : Holds (run next start lateInsert) "a" :=
    ⟨⟨"a", 0, 60⟩, by decide +kernel, rfl, by decide +kernel⟩
  have hb : Holds (run next start lateInsert) "b" :=
    ⟨⟨"b", 0, 60⟩, by decide +kernel, rfl, by decide +kernel⟩
  exact absurd (h lateInsert "a" "b" ha hb) (by decide)

end SqlTide.Sensors.DispatchLease
