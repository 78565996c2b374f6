import SqlTide.Locking.MutualExclusion

/-!
# Releases of clients that do not hold the lock

The lock is held by one owner and any clients, the owner among them, release.
`HeldInv` is the chain of `MarkerChain` together with the positions of its
members; it lasts until the owner's final `DROP`, after which `ReleasedInv` says
that nothing can succeed any more.
-/

namespace SqlTide.Locking

open List Runs Function

variable (T : Target) (owner : String)

/-- The lock is held by `owner` and no call is being executed. -/
def LockState.heldBy (w : Warehouse) (owner : String) : LockState :=
  ⟨w, fun o => { holds := decide (o = owner) }⟩

/-- Only releases are started, and nobody crashes. -/
def LockEvent.IsRelease : LockEvent → Prop
  | .release _ | .step _ => True
  | .acquire _ | .crash _ => False

instance (e : LockEvent) : Decidable e.IsRelease :=
  match e with
  | .release _ => instDecidableTrue
  | .step _ => instDecidableTrue
  | .acquire _ => instDecidableFalse
  | .crash _ => instDecidableFalse

/-- A marker is exchanged back only from the front of the chain, and the owner, as
long as it holds the lock, finds its release table unused when it creates it and
the lock table under its own name when it exchanges it. -/
def Undisturbed (s : LockState) : LockEvent → Prop
  | .step o =>
    ((s.clients o).phase = .restoreExchange →
      ∀ c, s.warehouse targetMutationLockTableName = some c → c = ownerComment o) ∧
    (o = owner → (s.clients o).holds = true →
      ((s.clients o).phase = .releaseCreate → s.warehouse (T.releaseName o) = none) ∧
      ((s.clients o).phase = .releaseExchange →
        s.warehouse targetMutationLockTableName = some (ownerComment o)))
  | .acquire _ | .release _ | .crash _ => True

/-- How the releases that overlap have ended so far. -/
structure StaleReleaseHarmless (s : LockState) : Prop where
  stale_fails : ∀ o, o ≠ owner → ∀ r, (s.clients o).outcome = some r → ∃ e, r = .failed e
  still_recorded : (∀ o, (s.clients o).phase = .idle) → (s.clients owner).holds = true →
    targetMutationLockRecord s.warehouse targetMutationLockTableName = (true, some owner)
  owner_not_failed : (s.clients owner).holds = true → (s.clients owner).outcome = none
  owner_removes : (s.clients owner).holds = false →
    s.warehouse targetMutationLockTableName = none

def Phase.OpenRelease (p : Phase) : Prop :=
  p = .releaseInspect ∨ p = .restoreExchange ∨ p = .releaseDropMarker

def Phase.Acquiring (p : Phase) : Prop := p = .acquireCreate ∨ p = .acquireInspect

/-- The lock is still held: the members of the chain are exactly in the middle of
their releases, and the owner is at its end or not on it. -/
structure HeldInv (s : LockState) (chain : List String) : Prop
    extends LockInv T s (some owner) chain where
  open_releases : ∀ x ∈ chain, (s.clients x).phase.OpenRelease
  owner_last : owner ∈ chain → ∃ front, chain = front ++ [owner]
  owner_goes_on : (s.clients owner).phase ≠ .restoreExchange ∧
    (s.clients owner).phase ≠ .restoreDrop
  no_acquire : ∀ o, ¬ (s.clients o).phase.Acquiring
  owner_outcome : (s.clients owner).outcome = none
  stale_outcome : ∀ o, o ≠ owner → ∀ r, (s.clients o).outcome = some r → ∃ e, r = .failed e

/-- The lock table is gone: every open release fails at its next exchange. -/
structure ReleasedInv (s : LockState) : Prop where
  lock_gone : s.warehouse targetMutationLockTableName = none
  owner_released : (s.clients owner).holds = false
  positions : ∀ o, (s.clients o).phase ≠ .releaseDropMarker ∧
    (s.clients o).phase ≠ .releaseDropLock ∧ ¬ (s.clients o).phase.Acquiring
  foreign_mark : ∀ o, (s.clients o).phase = .releaseInspect →
    s.warehouse (T.releaseName o) ≠ some (ownerComment o)
  stale_outcome : ∀ o, o ≠ owner → ∀ r, (s.clients o).outcome = some r → ∃ e, r = .failed e

variable {T owner} {s : LockState} {chain : List String}

variable {o : String} {w : Warehouse} {n : ℕ}

theorem HeldInv.move (h : HeldInv T owner s chain) {c : Client} {chain' : List String}
    (inv : LockInv T ⟨w, update s.clients o c⟩ (some owner) chain')
    (own : o ∈ chain' → c.phase.OpenRelease) (sub : ∀ x ∈ chain', x ≠ o → x ∈ chain)
    (last : owner ∈ chain' → ∃ front, chain' = front ++ [owner])
    (goes_on : o = owner → c.phase ≠ .restoreExchange ∧ c.phase ≠ .restoreDrop)
    (acquire : ¬ c.phase.Acquiring) (pending : o = owner → c.outcome = none)
    (stale : o ≠ owner → ∀ r, c.outcome = some r → ∃ e, r = .failed e) :
    HeldInv T owner ⟨w, update s.clients o c⟩ chain' := by
  refine ⟨inv, ?_, last, ?_, ?_, ?_, ?_⟩
  · intro x hx
    by_cases hxo : x = o
    · subst x
      simpa using own hx
    · simpa [hxo] using h.open_releases x (sub x hx hxo)
  · by_cases ho : owner = o
    · subst o
      simpa using goes_on rfl
    · simpa [ho] using h.owner_goes_on
  · intro a
    by_cases ha : a = o
    · subst a
      simpa using acquire
    · simpa [ha] using h.no_acquire a
  · by_cases ho : owner = o
    · subst o
      simpa using pending rfl
    · simpa [ho] using h.owner_outcome
  · intro a hane
    by_cases ha : a = o
    · subst a
      simpa using stale hane
    · simpa [ha] using h.stale_outcome a hane

theorem HeldInv.harmless (h : HeldInv T owner s chain) : StaleReleaseHarmless owner s := by
  refine ⟨h.stale_outcome, ?_, fun _ => h.owner_outcome, ?_⟩
  · intro hidle _
    cases chain with
    | nil => simp [targetMutationLockRecord, show s.warehouse targetMutationLockTableName =
        some (ownerComment owner) from h.links]
    | cons x xs =>
      have hx := h.open_releases x (by simp)
      simp [hidle x, Phase.OpenRelease] at hx
  · intro hheld
    have := (h.holder owner).mpr rfl
    simp [hheld] at this

theorem ReleasedInv.harmless (h : ReleasedInv T owner s) : StaleReleaseHarmless owner s :=
  ⟨h.stale_outcome, fun _ hheld => absurd hheld (by simp [h.owner_released]),
    fun hheld => absurd hheld (by simp [h.owner_released]), fun _ => h.lock_gone⟩

section

variable (h : HeldInv T owner s chain)

include h

theorem HeldInv.fail (ho : o ≠ owner)
    (hchain : o ∉ chain) (e : LockError) : HeldInv T owner (s.fail o e) chain :=
  h.move (h.toLockInv.fail o e) (fun hmem => absurd hmem hchain) (fun _ hx _ => hx) h.owner_last
    (fun heq => absurd heq ho) (by simp [Phase.Acquiring]) (fun heq => absurd heq ho)
    (by simp)

theorem HeldInv.notMem (hphase : ¬ (s.clients o).phase.OpenRelease) : o ∉ chain :=
  fun hmem => hphase (h.open_releases o hmem)

theorem HeldInv.advance {p : Phase}
    (inv : LockInv T (s.advance o w p) (some owner) chain) (own : o ∈ chain → p.OpenRelease)
    (goes_on : o = owner → p ≠ .restoreExchange ∧ p ≠ .restoreDrop) (acquire : ¬ p.Acquiring) :
    HeldInv T owner (s.advance o w p) chain := by
  refine h.move inv own (fun _ hx _ => hx) h.owner_last goes_on acquire ?_ (h.stale_outcome o)
  intro ho
  exact ho ▸ h.owner_outcome

theorem HeldInv.releaseExchange (hphase : (s.clients o).phase = .releaseExchange)
    (undisturbed : Undisturbed T owner s (.step o)) :
    HeldInv T owner (clientStep T o s) (o :: chain) := by
  have hown := h.phases o
  rw [hphase] at hown
  obtain ⟨l, hl⟩ := h.links.exists_head
  have hchain : o ∉ chain := h.notMem (by simp [hphase, Phase.OpenRelease])
  simp only [clientStep, hphase]
  rcases s.statement_cases o _ _ with ⟨w, hrun, heq⟩ | ⟨hrun, -⟩
  · rw [heq]
    refine h.move (h.toLockInv.releaseExchange hphase hrun) (fun _ => .inl rfl) ?_ ?_ (by simp)
      (by simp [Phase.Acquiring]) (fun ho => ho ▸ h.owner_outcome) (h.stale_outcome o)
    · intro x hx hxo
      exact (mem_cons.mp hx).resolve_left hxo
    · intro hmem
      by_cases ho : o = owner
      · -- the owner exchanges its own table, so no other marker is on the chain
        subst o
        have hfront := (undisturbed.2 rfl ((h.holder owner).mpr rfl)).2 hphase
        cases chain with
        | nil => exact ⟨[], rfl⟩
        | cons x xs =>
          have hx : owner = x := by simpa [hfront] using h.links.1
          exact absurd (by simp [hx]) hchain
      · obtain ⟨front, hfront⟩ := h.owner_last ((mem_cons.mp hmem).resolve_left (Ne.symm ho))
        exact ⟨o :: front, by simp [hfront]⟩
  · simp [Ddl.run, hl, hown.1] at hrun

theorem HeldInv.releaseInspect (hphase : (s.clients o).phase = .releaseInspect) :
    HeldInv T owner (clientStep T o s) chain := by
  have hinv := h.toLockInv.releaseInspect hphase
  have hown := h.phases o
  rw [hphase] at hown
  by_cases hmark : s.warehouse (T.releaseName o) = some (ownerComment o)
  · rw [clientStep_inspect_own hphase hmark] at hinv ⊢
    exact h.advance hinv (fun _ => .inr (.inr rfl)) (by simp) (by simp [Phase.Acquiring])
  · rw [clientStep_inspect_foreign hphase hmark] at hinv ⊢
    refine h.advance hinv (fun _ => .inr (.inl rfl)) ?_ (by simp [Phase.Acquiring])
    rintro rfl
    obtain ⟨front, rfl⟩ := h.owner_last hown
    exact absurd h.links.last_mark hmark

theorem HeldInv.restoreExchange (hphase : (s.clients o).phase = .restoreExchange)
    (undisturbed : Undisturbed T owner s (.step o)) :
    ∃ rest, HeldInv T owner (clientStep T o s) rest := by
  have ho : o ≠ owner := fun heq => h.owner_goes_on.1 (heq ▸ hphase)
  have hown := h.phases o
  rw [hphase] at hown
  obtain ⟨l, hl⟩ := h.links.exists_head
  obtain ⟨r, hr⟩ := h.links.exists_table hown
  obtain rfl := undisturbed.1 hphase l hl
  simp only [clientStep, hphase]
  rcases s.statement_cases o _ _ with ⟨w, hrun, heq⟩ | ⟨hrun, -⟩
  · rw [heq]
    obtain ⟨rest, rfl, hrest⟩ := h.toLockInv.restoreExchange hphase hl hrun
    refine ⟨rest, h.move hrest ?_ ?_ ?_ (fun heq => absurd heq ho) (by simp [Phase.Acquiring])
      (fun heq => absurd heq ho) (h.stale_outcome o)⟩
    · intro hmem
      exact absurd (mem_map_of_mem hmem) (nodup_cons.mp h.distinct).1
    · intro x hx _
      exact mem_cons_of_mem _ hx
    · intro hmem
      obtain ⟨front, hfront⟩ := h.owner_last (mem_cons_of_mem _ hmem)
      cases front with
      | nil => simp [(List.cons.inj hfront).2] at hmem
      | cons x xs => exact ⟨xs, (List.cons.inj hfront).2⟩
  · simp [Ddl.run, hl, hr] at hrun

theorem HeldInv.restoreDrop
    (hphase : (s.clients o).phase = .restoreDrop) : HeldInv T owner (clientStep T o s) chain := by
  have ho : o ≠ owner := fun heq => h.owner_goes_on.2 (heq ▸ hphase)
  have hchain : o ∉ chain := h.notMem (by simp [hphase, Phase.OpenRelease])
  simp only [clientStep, hphase]
  rcases s.statement_cases o _ _ with ⟨w, hrun, heq⟩ | ⟨-, heq⟩ <;> rw [heq]
  · exact h.move (h.toLockInv.restoreDrop hphase hrun _) (fun hmem => absurd hmem hchain)
      (fun _ hx _ => hx) h.owner_last (fun heq => absurd heq ho) (by simp [Phase.Acquiring])
      (fun heq => absurd heq ho) (by simp)
  · exact h.fail ho hchain _

theorem HeldInv.releaseDropMarker (hphase : (s.clients o).phase = .releaseDropMarker) :
    o = owner ∧ ∃ front, HeldInv T owner (clientStep T o s) front ∧
      ((clientStep T o s).clients o).phase = .releaseDropLock := by
  have hown := h.phases o
  rw [hphase] at hown
  obtain rfl : owner = o := by simpa using hown.2
  refine ⟨rfl, ?_⟩
  obtain ⟨front, rfl⟩ := hown.1
  simp only [clientStep, hphase]
  rcases s.statement_cases owner _ _ with ⟨w, hrun, heq⟩ | ⟨hrun, -⟩
  · rw [heq]
    obtain ⟨front', hfront, hinv⟩ := h.toLockInv.releaseDropMarker hphase hrun
    obtain rfl := append_cancel_right hfront
    have hlast : owner ∉ front := by
      have hinv' := hinv.phases owner
      simp only [LockState.advance, update_self] at hinv'
      exact hinv'.2
    refine ⟨front, h.move hinv (fun hmem => absurd hmem hlast) ?_ (fun hmem => absurd hmem hlast)
      (by simp) (by simp [Phase.Acquiring]) (fun _ => h.owner_outcome) (h.stale_outcome owner),
      by simp [LockState.advance]⟩
    intro x hx _
    exact mem_append_left _ hx
  · simp [Ddl.run, h.links.last_mark] at hrun

/-- The owner's final `DROP` succeeds, whatever the lock table holds. -/
theorem HeldInv.releaseDropLock (hphase : (s.clients o).phase = .releaseDropLock) :
    o = owner ∧ ReleasedInv T owner (clientStep T o s) := by
  have hown := h.phases o
  rw [hphase] at hown
  obtain rfl : owner = o := by simpa using hown.1
  refine ⟨rfl, ?_⟩
  obtain ⟨l, hl⟩ := h.links.exists_head
  simp only [clientStep, hphase]
  rcases s.statement_cases owner _ _ with ⟨w, hrun, heq⟩ | ⟨hrun, -⟩
  · rw [heq]
    obtain ⟨-, rfl⟩ := Ddl.run_dropTable.mp hrun
    refine ⟨by simp [LockState.finish], by simp [LockState.finish], ?_, ?_, ?_⟩
    · intro a
      by_cases ha : a = owner
      · simp [LockState.finish, ha, Phase.Acquiring]
      · have hphases := h.phases a
        simp only [LockState.finish, update_of_ne ha]
        refine ⟨fun hdrop => ?_, fun hdrop => ?_, h.no_acquire a⟩
        · rw [hdrop] at hphases
          exact ha (by simpa using hphases.2.symm)
        · rw [hdrop] at hphases
          exact ha (by simpa using hphases.1.symm)
    · intro a hinspect
      by_cases ha : a = owner
      · simp [LockState.finish, ha] at hinspect
      · simp only [LockState.finish, update_of_ne ha] at hinspect
        have hmem := h.phases a
        rw [hinspect] at hmem
        intro hmark
        simp only [LockState.finish, ne_eq, Target.releaseName_ne, not_false_eq_true,
          update_of_ne] at hmark
        obtain ⟨-, hheld⟩ := h.links.last_of_own_mark h.distinct hmem hmark
        exact ha (by simpa using hheld.symm)
    · intro a ha r
      simpa [LockState.finish, ha] using h.stale_outcome a ha r
  · simp [Ddl.run, hl] at hrun

theorem HeldInv.clientStep (undisturbed : Undisturbed T owner s (.step o)) :
    (∃ chain', HeldInv T owner (clientStep T o s) chain') ∨
      ReleasedInv T owner (clientStep T o s) := by
  cases hphase : (s.clients o).phase with
  | idle => exact .inl ⟨chain, by simpa [Locking.clientStep, hphase] using h⟩
  | acquireCreate => exact absurd (.inl hphase) (h.no_acquire o)
  | acquireInspect => exact absurd (.inr hphase) (h.no_acquire o)
  | releaseCreate =>
    have hchain : o ∉ chain := h.notMem (by simp [hphase, Phase.OpenRelease])
    simp only [Locking.clientStep, hphase]
    rcases s.statement_cases o _ _ with ⟨w, hrun, heq⟩ | ⟨hrun, heq⟩ <;> rw [heq]
    · exact .inl ⟨chain, h.advance (h.toLockInv.releaseCreate hrun)
        (fun hmem => absurd hmem hchain) (by simp) (by simp [Phase.Acquiring])⟩
    · refine .inl ⟨chain, h.fail ?_ hchain _⟩
      rintro rfl
      have hfree := (undisturbed.2 rfl ((h.holder o).mpr rfl)).1 hphase
      simp [Ddl.run, hfree] at hrun
  | releaseExchange => exact .inl ⟨_, h.releaseExchange hphase undisturbed⟩
  | releaseInspect => exact .inl ⟨_, h.releaseInspect hphase⟩
  | restoreExchange => exact .inl (h.restoreExchange hphase undisturbed)
  | restoreDrop => exact .inl ⟨_, h.restoreDrop hphase⟩
  | releaseDropMarker =>
    obtain ⟨-, front, hfront, -⟩ := h.releaseDropMarker hphase
    exact .inl ⟨front, hfront⟩
  | releaseDropLock => exact .inr (h.releaseDropLock hphase).2

theorem HeldInv.begin (o : String) : HeldInv T owner (s.begin o .releaseCreate) chain := by
  unfold LockState.begin
  split_ifs with hidle
  · refine h.advance (h.toLockInv.neutral (.inr (.inr (.inr rfl))) rfl) (fun hmem => ?_) (by simp)
      (by simp [Phase.Acquiring])
    exact absurd hmem (h.notMem (by simp [hidle, Phase.OpenRelease]))
  · exact h

end

/-- Once the lock table is gone, a step keeps it so if it neither creates it nor
reads an own mark. -/
theorem ReleasedInv.move (h : ReleasedInv T owner s) {c : Client}
    (gone : w targetMutationLockTableName = none) (holds : o = owner → c.holds = false)
    (position : c.phase ≠ .releaseDropMarker ∧ c.phase ≠ .releaseDropLock ∧ ¬ c.phase.Acquiring)
    (inspect : c.phase ≠ .releaseInspect)
    (marks : ∀ a, a ≠ o → w (T.releaseName a) = some (ownerComment a) →
      s.warehouse (T.releaseName a) = some (ownerComment a))
    (stale : o ≠ owner → ∀ r, c.outcome = some r → ∃ e, r = .failed e) :
    ReleasedInv T owner ⟨w, update s.clients o c⟩ := by
  refine ⟨gone, ?_, ?_, ?_, ?_⟩
  · by_cases ho : owner = o
    · subst o
      simpa using holds rfl
    · simpa [ho] using h.owner_released
  · intro a
    by_cases ha : a = o
    · subst a
      simpa using position
    · simpa [ha] using h.positions a
  · intro a hphase
    by_cases ha : a = o
    · subst a
      simp [inspect] at hphase
    · simp only [update_of_ne ha] at hphase
      exact fun hmark => h.foreign_mark a hphase (marks a ha hmark)
  · intro a hane
    by_cases ha : a = o
    · subst a
      simpa using stale hane
    · simpa [ha] using h.stale_outcome a hane

theorem ReleasedInv.fail (h : ReleasedInv T owner s) (o : String) (e : LockError) :
    ReleasedInv T owner (s.fail o e) :=
  h.move h.lock_gone (fun ho => ho ▸ h.owner_released) (by simp [Phase.Acquiring]) (by simp)
    (fun _ _ hmark => hmark) (by simp)

theorem ReleasedInv.advance (h : ReleasedInv T owner s) {p : Phase}
    (gone : w targetMutationLockTableName = none)
    (position : p ≠ .releaseDropMarker ∧ p ≠ .releaseDropLock ∧ ¬ p.Acquiring)
    (inspect : p ≠ .releaseInspect)
    (marks : ∀ a, a ≠ o → w (T.releaseName a) = some (ownerComment a) →
      s.warehouse (T.releaseName a) = some (ownerComment a)) :
    ReleasedInv T owner (s.advance o w p) :=
  h.move gone (fun ho => ho ▸ h.owner_released) position inspect marks (h.stale_outcome o)

theorem ReleasedInv.clientStep (h : ReleasedInv T owner s) (o : String) :
    ReleasedInv T owner (clientStep T o s) := by
  obtain ⟨hmarker, hlock, hacquire⟩ := h.positions o
  cases hphase : (s.clients o).phase with
  | idle => simpa [Locking.clientStep, hphase] using h
  | acquireCreate => exact absurd (.inl hphase) hacquire
  | acquireInspect => exact absurd (.inr hphase) hacquire
  | releaseDropMarker => exact absurd hphase hmarker
  | releaseDropLock => exact absurd hphase hlock
  | releaseCreate =>
    simp only [Locking.clientStep, hphase]
    rcases s.statement_cases o _ _ with ⟨w, hrun, heq⟩ | ⟨-, heq⟩ <;> rw [heq]
    · obtain ⟨-, rfl⟩ := Ddl.run_createTable.mp hrun
      refine h.advance (by simpa using h.lock_gone) (by simp [Phase.Acquiring]) (by simp) ?_
      intro a ha hmark
      by_cases hname : T.releaseName a = T.releaseName o
      · simp only [hname, update_self, Option.some.injEq, ownerComment_inj] at hmark
        exact absurd hmark.symm ha
      · simpa [hname] using hmark
    · exact h.fail o _
  | releaseExchange =>
    have hrun : (Ddl.exchangeTables targetMutationLockTableName (T.releaseName o)).run
        s.warehouse = none := by simp [Ddl.run, h.lock_gone]
    simpa [Locking.clientStep, hphase, LockState.statement, hrun] using h.fail o _
  | releaseInspect =>
    rw [clientStep_inspect_foreign hphase (h.foreign_mark o hphase)]
    exact h.advance h.lock_gone (by simp [Phase.Acquiring]) (by simp) (fun _ _ hmark => hmark)
  | restoreExchange =>
    have hrun : (Ddl.exchangeTables targetMutationLockTableName (T.releaseName o)).run
        s.warehouse = none := by simp [Ddl.run, h.lock_gone]
    simpa [Locking.clientStep, hphase, LockState.statement, hrun] using h.fail o _
  | restoreDrop =>
    simp only [Locking.clientStep, hphase]
    rcases s.statement_cases o _ _ with ⟨w, hrun, heq⟩ | ⟨-, heq⟩ <;> rw [heq]
    · obtain ⟨-, rfl⟩ := Ddl.run_dropTable.mp hrun
      refine h.move (by simpa using h.lock_gone) (fun ho => ho ▸ h.owner_released)
        (by simp [Phase.Acquiring]) (by simp) ?_ (by simp)
      intro a ha hmark
      by_cases hname : T.releaseName a = T.releaseName o
      · simp [hname] at hmark
      · simpa [hname] using hmark
    · exact h.fail o _

theorem ReleasedInv.begin (h : ReleasedInv T owner s) (o : String) :
    ReleasedInv T owner (s.begin o .releaseCreate) := by
  unfold LockState.begin
  split_ifs
  · exact h.advance h.lock_gone (by simp [Phase.Acquiring]) (by simp) (fun _ _ hmark => hmark)
  · exact h

variable (T owner) in
/-- The invariant of the whole run: the lock is held, or the owner has released it. -/
def ReleaseInv (s : LockState) : Prop :=
  (∃ chain, HeldInv T owner s chain) ∨ ReleasedInv T owner s

theorem ReleaseInv.next (h : ReleaseInv T owner s) {e : LockEvent}
    (allowed : e.IsRelease ∧ Undisturbed T owner s e) : ReleaseInv T owner (next T s e) := by
  obtain ⟨hrelease, undisturbed⟩ := allowed
  rcases h with ⟨chain, h⟩ | h <;> cases e with
  | acquire o => exact hrelease.elim
  | crash o => exact hrelease.elim
  | release o => first | exact .inl ⟨_, h.begin o⟩ | exact .inr (h.begin o)
  | step o => first | exact h.clientStep undisturbed | exact .inr (h.clientStep o)

theorem ReleaseInv.harmless (h : ReleaseInv T owner s) : StaleReleaseHarmless owner s := by
  rcases h with ⟨chain, h⟩ | h
  · exact h.harmless
  · exact h.harmless

theorem ReleaseInv.heldBy (locked : w targetMutationLockTableName = some (ownerComment owner)) :
    ReleaseInv T owner (.heldBy w owner) := by
  refine .inl ⟨[], ⟨⟨locked, fun _ => rfl, nodup_nil, fun _ => trivial, ?_⟩, ?_, ?_, ?_, ?_,
    rfl, ?_⟩⟩
  · intro o
    simp [LockState.heldBy, eq_comm]
  · simp
  · simp
  · simp [LockState.heldBy]
  · simp [LockState.heldBy, Phase.Acquiring]
  · simp [LockState.heldBy]

/-- How many more statements the call can execute. -/
def Phase.remaining : Phase → ℕ
  | .idle => 0
  | .acquireCreate => 2
  | .acquireInspect => 1
  | .releaseCreate => 5
  | .releaseExchange => 4
  | .releaseInspect => 3
  | .restoreExchange => 2
  | .restoreDrop => 1
  | .releaseDropMarker => 2
  | .releaseDropLock => 1

/-- The call `o` is executing ends within `n` more statements of `o`. -/
def EndsWithin (o : String) (n : ℕ) (s : LockState) : Prop :=
  (s.clients o).phase.remaining ≤ n ∧
    ((s.clients o).phase = .idle → (s.clients o).outcome ≠ none)

theorem clientStep_of_ne {a : String} (ha : a ≠ o) :
    (clientStep T o s).clients a = s.clients a := by
  unfold clientStep
  cases (s.clients o).phase <;>
    simp only [LockState.statement, LockState.fail, LockState.finish, LockState.advance] <;>
    (try split) <;> simp [ha]

theorem EndsWithin.clientStep (h : EndsWithin o n s) : EndsWithin o (n - 1) (clientStep T o s) := by
  have hadvance : ∀ w p, p.remaining + 1 ≤ (s.clients o).phase.remaining → p ≠ .idle →
      EndsWithin o (n - 1) (s.advance o w p) := by
    intro w p hp hidle
    have hn := h.1
    refine ⟨?_, by simp [LockState.advance, hidle]⟩
    simp only [LockState.advance, update_self]
    omega
  have hfinish : ∀ w r b, EndsWithin o (n - 1) (s.finish o w r b) := by
    intro w r b
    simp [EndsWithin, LockState.finish, Phase.remaining]
  have hfail : ∀ e, EndsWithin o (n - 1) (s.fail o e) := fun e => hfinish _ _ _
  cases hphase : (s.clients o).phase with
  | idle =>
    simp only [Locking.clientStep, hphase]
    exact ⟨by simp [hphase, Phase.remaining], h.2⟩
  | acquireCreate =>
    simp only [Locking.clientStep, hphase]
    split
    · exact hfinish _ _ _
    · exact hadvance _ _ (by simp [hphase, Phase.remaining]) (by simp)
  | acquireInspect =>
    simp only [Locking.clientStep, hphase]
    split <;> exact hfail _
  | releaseInspect =>
    simp only [Locking.clientStep, hphase]
    split_ifs <;> exact hadvance _ _ (by simp [hphase, Phase.remaining]) (by simp)
  | releaseCreate | releaseExchange | restoreExchange | releaseDropMarker =>
    simp only [Locking.clientStep, hphase]
    rcases s.statement_cases o _ _ with ⟨w, -, heq⟩ | ⟨-, heq⟩ <;> rw [heq]
    · exact hadvance _ _ (by simp [hphase, Phase.remaining]) (by simp)
    · exact hfail _
  | restoreDrop | releaseDropLock =>
    simp only [Locking.clientStep, hphase]
    rcases s.statement_cases o _ _ with ⟨w, -, heq⟩ | ⟨-, heq⟩ <;> rw [heq]
    · exact hfinish _ _ _
    · exact hfail _

theorem EndsWithin.next (h : EndsWithin o n s) {e : LockEvent} (hrelease : e.IsRelease)
    (hother : e ≠ .release o) : EndsWithin o (if e = .step o then n - 1 else n) (next T s e) := by
  cases e with
  | acquire a => exact hrelease.elim
  | crash a => exact hrelease.elim
  | step a =>
    by_cases ha : a = o
    · subst a
      simpa [Locking.next] using h.clientStep
    · simpa [EndsWithin, Locking.next, ha, clientStep_of_ne (Ne.symm ha)] using h
  | release a =>
    have ha : o ≠ a := fun heq => hother (by rw [heq])
    simp only [reduceCtorEq, ↓reduceIte, Locking.next, LockState.begin]
    split_ifs with hidle
    · simpa [EndsWithin, LockState.advance, ha] using h
    · exact h

theorem EndsWithin.run (h : EndsWithin o n s) {events : List LockEvent}
    (releases : ∀ e ∈ events, e.IsRelease) (others : .release o ∉ events) :
    EndsWithin o (n - events.count (.step o)) (run (Locking.next T) s events) := by
  induction events generalizing s n with
  | nil => simpa using h
  | cons e es ih =>
    have hes := ih (h.next (T := T) (releases e (by simp)) fun he => others (by simp [he]))
      (fun a ha => releases a (mem_cons_of_mem _ ha))
      fun hmem => others (mem_cons_of_mem _ hmem)
    by_cases he : e = .step o
    · subst e
      simpa [Nat.sub_sub, Nat.add_comm] using hes
    · simpa [he, count_cons_of_ne he] using hes

/-- A release that has just been started ends with its fifth statement at the latest. -/
theorem EndsWithin.release (s : LockState) (o : String) :
    EndsWithin o 5 (Locking.next T s (.release o)) := by
  simp only [Locking.next, LockState.begin]
  split_ifs with hidle
  · simp [EndsWithin, LockState.advance, Phase.remaining]
  · refine ⟨?_, fun h => absurd h hidle⟩
    cases (s.clients o).phase <;> simp [Phase.remaining]

/-- Over every interleaving of releases in which markers are undisturbed: the
releases of other clients fail and leave the lock recorded, the owner's release
does not fail and removes the lock table, and a release is over after five
statements of its client. -/
theorem run_staleReleaseHarmless {w : Warehouse}
    (locked : w targetMutationLockTableName = some (ownerComment owner))
    {events : List LockEvent} (releases : ∀ e ∈ events, e.IsRelease)
    (undisturbed : Along (next T) (Undisturbed T owner) (.heldBy w owner) events) :
    StaleReleaseHarmless owner (run (next T) (.heldBy w owner) events) ∧
      ∀ o before after, events = before ++ .release o :: after → .release o ∉ after →
        5 ≤ after.count (.step o) →
        ((run (next T) (.heldBy w owner) events).clients o).phase = .idle ∧
        ((run (next T) (.heldBy w owner) events).clients o).outcome ≠ none := by
  have hinv : ReleaseInv T owner (run (next T) (.heldBy w owner) events) :=
    run_invariant (next T) (fun _ _ h allowed => h.next allowed) (.heldBy locked)
      (Along.and_forall (next T) undisturbed releases)
  refine ⟨hinv.harmless, ?_⟩
  rintro o before after rfl hlast hcount
  have hafter : ∀ e ∈ after, e.IsRelease := fun e he => releases e (by simp [he])
  have hend := (EndsWithin.release (T := T) (run (next T) (.heldBy w owner) before) o).run
    (T := T) hafter hlast
  rw [Nat.sub_eq_zero_of_le hcount] at hend
  rw [run_append, run_cons]
  have hidle := Nat.le_zero.mp hend.1
  have hphase : ((run (next T) (next T (run (next T) (.heldBy w owner) before) (.release o))
      after).clients o).phase = .idle := by
    generalize ((run (next T) (next T (run (next T) (.heldBy w owner) before) (.release o))
      after).clients o).phase = p at hidle ⊢
    cases p <;> simp_all [Phase.remaining]
  exact ⟨hphase, hend.2 hphase⟩

/-- `run-b` releases although `run-a` holds the lock, and has settled before
`run-a` exchanges. -/
def settledReleaseRun : List LockEvent :=
  [.release "run-b", .step "run-b", .release "run-a", .step "run-a", .step "run-b",
    .step "run-b", .step "run-b", .step "run-a", .step "run-b", .step "run-a", .step "run-a",
    .step "run-a"]

def heldWarehouse : Warehouse :=
  fun name => if name = targetMutationLockTableName then some (ownerComment "run-a") else none

instance (s : LockState) (e : LockEvent) : Decidable (Undisturbed sampleTarget "run-a" s e) :=
  match e with
  | .step o =>
    @instDecidableAnd _ _
      (match h : s.warehouse targetMutationLockTableName with
        | none => .isTrue (by simp)
        | some c =>
          decidable_of_iff ((s.clients o).phase = .restoreExchange → c = ownerComment o)
            (by simp))
      inferInstance
  | .acquire _ => instDecidableTrue
  | .release _ => instDecidableTrue
  | .crash _ => instDecidableTrue

theorem run_staleReleaseHarmless_settled :
    StaleReleaseHarmless "run-a"
        (run (next sampleTarget) (.heldBy heldWarehouse "run-a") settledReleaseRun) ∧
      ((run (next sampleTarget) (.heldBy heldWarehouse "run-a") settledReleaseRun).clients
        "run-a").outcome = some .released :=
  ⟨(run_staleReleaseHarmless rfl (by decide) (by decide +kernel)).1, by decide +kernel⟩

/-- `run-b` has exchanged the lock table when `run-a`, which holds it, releases:
the release of `run-a` reads the marker of `run-b` and fails. -/
def crossedOwnerRun : List LockEvent :=
  [.release "run-b", .step "run-b", .step "run-b", .release "run-a", .step "run-a",
    .step "run-a", .step "run-a", .step "run-a", .step "run-a"]

theorem not_run_staleReleaseHarmless :
    ¬ ∀ (T : Target) (owner : String) (w : Warehouse),
      w targetMutationLockTableName = some (ownerComment owner) →
      ∀ events : List LockEvent, (∀ e ∈ events, e.IsRelease) →
        StaleReleaseHarmless owner (run (next T) (.heldBy w owner) events) := by
  intro h
  have hpending := (h sampleTarget "run-a" heldWarehouse rfl crossedOwnerRun
    (by decide)).owner_not_failed (by decide +kernel)
  exact absurd hpending (by decide +kernel)

end SqlTide.Locking
