import SqlTide.Locking.MarkerChain

/-!
# Mutual exclusion of the target mutation lock

Two overlapping releases of clients that do not hold the lock can swap each
other's markers into the lock table and drop the holder's table, after which a
third client acquires. The runs that are safe are those in which a release never
undoes its exchange, and never drops the lock table, while the lock table holds
the marker of somebody else.
-/

namespace SqlTide.Locking

open Runs

variable (T : Target)

/-- A release settles (exchanges back, or drops the lock table) only while the
lock table records the releasing client. -/
def SettlesOwnMarker (s : LockState) : LockEvent → Prop
  | .step o =>
    (s.clients o).phase = .restoreExchange ∨ (s.clients o).phase = .releaseDropLock →
      s.warehouse targetMutationLockTableName = some (ownerComment o)
  | .acquire _ | .release _ | .crash _ => True

instance (s : LockState) (e : LockEvent) : Decidable (SettlesOwnMarker s e) :=
  match e with
  | .step _ => inferInstanceAs (Decidable (_ → _))
  | .acquire _ => instDecidableTrue
  | .release _ => instDecidableTrue
  | .crash _ => instDecidableTrue

/-- The statement `o` is about to execute makes its acquire return. -/
def AcquireSucceeds (s : LockState) (o : String) : Prop :=
  (s.clients o).phase = .acquireCreate ∧
    (clientStep T o s).clients o = ⟨.idle, some .acquired, true⟩

instance (s : LockState) (o : String) : Decidable (AcquireSucceeds T s o) := instDecidableAnd

/-- At most one client is between a successful acquire and the end of its own
successful release, and nobody acquires while there is one. -/
structure MutuallyExclusive (s : LockState) : Prop where
  one_holder : ∀ o o', (s.clients o).holds = true → (s.clients o').holds = true → o = o'
  no_acquire : ∀ o, AcquireSucceeds T s o → ∀ o', (s.clients o').holds = false

variable {T} {s : LockState} {held : Option String} {chain : List String}

/-- One statement of one client keeps the chain, whichever statement it is. -/
theorem LockInv.clientStep (h : LockInv T s held chain) {o : String}
    (settles : SettlesOwnMarker s (.step o)) :
    ∃ held' chain', LockInv T (clientStep T o s) held' chain' := by
  cases hphase : (s.clients o).phase with
  | idle => exact ⟨held, chain, by simpa [Locking.clientStep, hphase] using h⟩
  | acquireCreate =>
    simp only [Locking.clientStep, hphase]
    split
    · next w hrun => exact ⟨_, _, h.acquire hrun⟩
    · exact ⟨_, _, h.neutral (.inr (.inr (.inl rfl))) rfl⟩
  | acquireInspect =>
    simp only [Locking.clientStep, hphase]
    split <;> exact ⟨_, _, h.fail _ _⟩
  | releaseCreate =>
    simp only [Locking.clientStep, hphase]
    rcases s.statement_cases o _ _ with ⟨w, hrun, heq⟩ | ⟨-, heq⟩ <;> rw [heq]
    · exact ⟨_, _, h.releaseCreate hrun⟩
    · exact ⟨_, _, h.fail _ _⟩
  | releaseExchange =>
    simp only [Locking.clientStep, hphase]
    rcases s.statement_cases o _ _ with ⟨w, hrun, heq⟩ | ⟨-, heq⟩ <;> rw [heq]
    · exact ⟨_, _, h.releaseExchange hphase hrun⟩
    · exact ⟨_, _, h.fail _ _⟩
  | releaseInspect => exact ⟨_, _, h.releaseInspect hphase⟩
  | restoreExchange =>
    simp only [Locking.clientStep, hphase]
    rcases s.statement_cases o _ _ with ⟨w, hrun, heq⟩ | ⟨-, heq⟩ <;> rw [heq]
    · obtain ⟨rest, -, hrest⟩ := h.restoreExchange hphase (settles (.inl hphase)) hrun
      exact ⟨_, _, hrest⟩
    · exact ⟨_, _, h.fail _ _⟩
  | restoreDrop =>
    simp only [Locking.clientStep, hphase]
    rcases s.statement_cases o _ _ with ⟨w, hrun, heq⟩ | ⟨-, heq⟩ <;> rw [heq]
    · exact ⟨_, _, h.restoreDrop hphase hrun _⟩
    · exact ⟨_, _, h.fail _ _⟩
  | releaseDropMarker =>
    simp only [Locking.clientStep, hphase]
    rcases s.statement_cases o _ _ with ⟨w, hrun, heq⟩ | ⟨-, heq⟩ <;> rw [heq]
    · obtain ⟨front, -, hfront⟩ := h.releaseDropMarker hphase hrun
      exact ⟨_, _, hfront⟩
    · exact ⟨_, _, h.fail _ _⟩
  | releaseDropLock =>
    simp only [Locking.clientStep, hphase]
    rcases s.statement_cases o _ _ with ⟨w, hrun, heq⟩ | ⟨-, heq⟩ <;> rw [heq]
    · exact ⟨_, _, h.releaseDropLock hphase (settles (.inr hphase)) hrun⟩
    · exact ⟨_, _, h.fail _ _⟩

theorem LockInv.next (h : LockInv T s held chain) {e : LockEvent} (settles : SettlesOwnMarker s e) :
    ∃ held' chain', LockInv T (next T s e) held' chain' := by
  cases e with
  | acquire o => exact ⟨_, _, h.begin o (.inr (.inl rfl))⟩
  | release o => exact ⟨_, _, h.begin o (.inr (.inr (.inr rfl)))⟩
  | step o => exact h.clientStep settles
  | crash o => exact ⟨_, _, h.neutral (.inl rfl) rfl⟩

theorem LockInv.fresh {w : Warehouse} (free : w targetMutationLockTableName = none) :
    LockInv T (.fresh w) none [] :=
  ⟨free, fun _ => rfl, List.nodup_nil, fun _ => trivial, fun _ => by simp [LockState.fresh]⟩

theorem LockInv.mutuallyExclusive (h : LockInv T s held chain) : MutuallyExclusive T s := by
  constructor
  · intro o o' ho ho'
    have := ((h.holder o).mp ho).symm.trans ((h.holder o').mp ho')
    simpa using this
  · rintro o ⟨hphase, hdone⟩ o'
    have hfree : s.warehouse targetMutationLockTableName = none := by
      simp only [Locking.clientStep, hphase] at hdone
      split at hdone
      · next w hrun => exact (Ddl.run_createTable.mp hrun).1
      · simp [LockState.advance] at hdone
    obtain ⟨rfl, -⟩ := h.lock_free hfree
    by_contra hholds
    exact absurd ((h.holder o').mp (by simpa using hholds)) (by simp)

/-- Over every interleaving of acquires, releases and crashes in which releases
settle their own markers only, the lock excludes. -/
theorem run_mutuallyExclusive {w : Warehouse} (free : w targetMutationLockTableName = none)
    {events : List LockEvent} (settles : Along (next T) SettlesOwnMarker (.fresh w) events) :
    MutuallyExclusive T (run (next T) (.fresh w) events) := by
  obtain ⟨held, chain, h⟩ := run_invariant (next T)
    (I := fun s => ∃ held chain, LockInv T s held chain)
    (fun _ _ ⟨_, _, h⟩ hs => h.next hs) ⟨none, [], .fresh free⟩ settles
  exact h.mutuallyExclusive

/-- A target with the digests of the owner ids used below. -/
def sampleTarget : Target where
  database := "analytics"
  sha256Hexdigest o :=
    if o = "run-a" then "66b1eb530fb748a4f238f08cb2d42e447d5ab5f350d6cf89623200d5332a6920"
    else if o = "run-b" then "5221807b2f1b1382725bca2ae8f07b17cb3e13fd732c97cc4aa8454bb8be7af4"
    else "92acfb65442b5cc8b43f175afc6daaccd105cbecc306b4276fdac15c1dd63451"

/-- A release of a client that does not hold the lock is overlapped by the
release of the holder and settles first. -/
def nestedReleaseRun : List LockEvent :=
  [.acquire "run-a", .step "run-a", .release "run-a", .step "run-a", .step "run-a",
    .release "run-b", .step "run-b", .step "run-b", .step "run-b", .step "run-b", .step "run-b",
    .step "run-a", .step "run-a", .step "run-a", .acquire "run-c"]

theorem run_mutuallyExclusive_nested :
    AcquireSucceeds sampleTarget
        (run (next sampleTarget) (.fresh fun _ => none) nestedReleaseRun) "run-c" ∧
      MutuallyExclusive sampleTarget
        (run (next sampleTarget) (.fresh fun _ => none) nestedReleaseRun) :=
  ⟨by decide +kernel, run_mutuallyExclusive rfl (by decide +kernel)⟩

/-- Two releases of clients that never acquired overlap; the table of the holder
`run-a` is dropped and `run-c` acquires. -/
def crossedReleaseRun : List LockEvent :=
  [.acquire "run-a", .step "run-a",
    .release "run-b", .step "run-b", .step "run-b",
    .release "run-c", .step "run-c", .step "run-c",
    .step "run-b", .step "run-b", .step "run-b",
    .step "run-c", .step "run-c", .step "run-c",
    .release "run-b", .step "run-b", .step "run-b", .step "run-b", .step "run-b", .step "run-b",
    .acquire "run-c", .step "run-c"]

theorem not_run_mutuallyExclusive :
    ¬ ∀ (T : Target) (w : Warehouse), w targetMutationLockTableName = none →
      ∀ events, MutuallyExclusive T (run (next T) (.fresh w) events) := by
  intro h
  have hboth := (h sampleTarget (fun _ => none) rfl crossedReleaseRun).one_holder
    "run-a" "run-c" (by decide +kernel) (by decide +kernel)
  exact absurd hboth (by decide)

end SqlTide.Locking
