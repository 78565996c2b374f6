import SqlTide.Locking.TargetMutationLock

/-!
# The chain of release markers

A release first exchanges its own marker into the place of the lock table, so
while releases overlap the lock table holds the marker of the latest one, the
release table of that client holds what was there before, and so on down to the
table of the client that holds the lock. `Links` is that chain. A release that
finds another owner puts the chain back only when its own marker is still at the
front; `SettlesOwnMarker` is this condition, and with it no interleaving breaks
the chain.
-/

namespace SqlTide.Locking

open List Runs

variable (T : Target)

/-- `table` holds the marker of the first client of the chain, its release table
the marker of the second, and the last one the table of the holder. -/
def Links (w : Warehouse) (held : Option String) : String → List String → Prop
  | table, [] => w table = held.map ownerComment
  | table, x :: xs => w table = some (ownerComment x) ∧ Links w held (T.releaseName x) xs

variable {T}

/-- The chain only depends on its first table and on the release tables of its members. -/
theorem Links.transfer {w w' : Warehouse} {held : Option String} {table table' : String}
    {chain : List String} (h : Links T w held table chain) (hhead : w' table' = w table)
    (htail : ∀ x ∈ chain, w' (T.releaseName x) = w (T.releaseName x)) :
    Links T w' held table' chain := by
  induction chain generalizing table table' with
  | nil => exact hhead.trans h
  | cons x xs ih =>
    refine ⟨hhead.trans h.1, ih h.2 (htail x (by simp)) ?_⟩
    intro y hy
    exact htail y (mem_cons_of_mem _ hy)

theorem Links.exists_table {w : Warehouse} {owner table : String} {chain : List String}
    (h : Links T w (some owner) table chain) {x : String} (hx : x ∈ chain) :
    ∃ comment, w (T.releaseName x) = some comment := by
  induction chain generalizing table with
  | nil => simp at hx
  | cons y ys ih =>
    rcases mem_cons.mp hx with rfl | hx
    · cases ys with
      | nil => exact ⟨_, h.2⟩
      | cons z zs => exact ⟨_, h.2.1⟩
    · exact ih h.2 hx

variable {w : Warehouse} {table o : String} {p : Phase}

/-- A client that finds its own mark in its release table is the holder, at the
end of the chain. -/
theorem Links.last_of_own_mark {held : Option String} {chain : List String}
    (h : Links T w held table chain) (hnd : (chain.map T.releaseName).Nodup) (ho : o ∈ chain)
    (hmark : w (T.releaseName o) = some (ownerComment o)) :
    (∃ front, chain = front ++ [o]) ∧ held = some o := by
  induction chain generalizing table with
  | nil => simp at ho
  | cons x xs ih =>
    rw [map_cons, nodup_cons] at hnd
    rcases mem_cons.mp ho with rfl | ho
    · cases xs with
      | nil =>
        have hheld : some (ownerComment o) = held.map ownerComment := hmark.symm.trans h.2
        cases held with
        | none => simp at hheld
        | some a =>
          simp only [Option.map_some, Option.some.injEq, ownerComment_inj] at hheld
          exact ⟨⟨[], rfl⟩, by rw [hheld]⟩
      | cons y ys =>
        have hy : o = y := by simpa [hmark] using h.2.1
        exact absurd (by simp [← hy]) hnd.1
    · obtain ⟨⟨front, rfl⟩, hheld⟩ := ih h.2 hnd.2 ho
      exact ⟨⟨x :: front, rfl⟩, hheld⟩

variable {front chain' : List String} {w' : Warehouse} {held' : Option String} {c : Client}

/-- The table of the holder lies in the release table of the last member. -/
theorem Links.last_mark {held : Option String}
    (h : Links T w held table (front ++ [o])) : w (T.releaseName o) = held.map ownerComment := by
  induction front generalizing table with
  | nil => exact h.2
  | cons x xs ih => exact ih h.2

theorem Links.exists_head {owner : String} {chain : List String}
    (h : Links T w (some owner) table chain) : ∃ comment, w table = some comment := by
  cases chain with
  | nil => exact ⟨_, h⟩
  | cons x xs => exact ⟨_, h.1⟩

/-- Dropping the release table of the last member leaves its marker as the lock. -/
theorem Links.drop_last (h : Links T w (some o) table (front ++ [o])) (hhead : w' table = w table)
    (htail : ∀ x ∈ front, w' (T.releaseName x) = w (T.releaseName x)) :
    Links T w' (some o) table front := by
  induction front generalizing table with
  | nil => exact hhead.trans h.1
  | cons x xs ih =>
    refine ⟨hhead.trans h.1, ih h.2 (htail x (by simp)) ?_⟩
    intro y hy
    exact htail y (mem_cons_of_mem _ hy)

variable (T)

/-- What the position of one client says about its release table. -/
def PhaseInv (w : Warehouse) (held : Option String) (chain : List String) (o : String) :
    Phase → Prop
  | .releaseExchange | .restoreDrop =>
    w (T.releaseName o) = some (ownerComment o) ∧ T.releaseName o ∉ chain.map T.releaseName
  | .releaseInspect | .restoreExchange => o ∈ chain
  | .releaseDropMarker => (∃ front, chain = front ++ [o]) ∧ held = some o
  | .releaseDropLock => held = some o ∧ o ∉ chain
  | .idle | .acquireCreate | .acquireInspect | .releaseCreate => True

/-- The lock invariant, for a given holder and a given chain of open releases. -/
structure LockInv (s : LockState) (held : Option String) (chain : List String) : Prop where
  links : Links T s.warehouse held targetMutationLockTableName chain
  anchored : held = none → chain = []
  distinct : (chain.map T.releaseName).Nodup
  phases : ∀ o, PhaseInv T s.warehouse held chain o (s.clients o).phase
  holder : ∀ o, (s.clients o).holds = true ↔ held = some o

/-- Phases in which a client has no table of its own in the warehouse. -/
def Phase.Neutral (p : Phase) : Prop :=
  p = .idle ∨ p = .acquireCreate ∨ p = .acquireInspect ∨ p = .releaseCreate

variable {T} {s : LockState} {held : Option String} {chain : List String}

theorem PhaseInv.of_neutral (hp : p.Neutral) : PhaseInv T w held chain o p := by
  rcases hp with rfl | rfl | rfl | rfl <;> trivial

/-- The condition on another client survives any change that keeps its release
table and does not put it on the chain. -/
theorem PhaseInv.mono
    (h : PhaseInv T w held chain o p) (htable : w (T.releaseName o) = some (ownerComment o) →
      T.releaseName o ∉ chain.map T.releaseName →
      w' (T.releaseName o) = some (ownerComment o) ∧ T.releaseName o ∉ chain'.map T.releaseName)
    (hmem : o ∈ chain → o ∈ chain') (hlast : (∃ front, chain = front ++ [o]) → held = some o →
      (∃ front, chain' = front ++ [o]) ∧ held' = some o)
    (hlock : held = some o → o ∉ chain → held' = some o ∧ o ∉ chain') :
    PhaseInv T w' held' chain' o p := by
  cases p with
  | idle | acquireCreate | acquireInspect | releaseCreate => trivial
  | releaseExchange | restoreDrop => exact htable h.1 h.2
  | releaseInspect | restoreExchange => exact hmem h
  | releaseDropMarker => exact hlast h.1 h.2
  | releaseDropLock => exact hlock h.1 h.2

/-- One client moves and some tables change: what has to be shown for the chain
that results. -/
theorem LockInv.move (h : LockInv T s held chain)
    (links : Links T w held' targetMutationLockTableName chain')
    (anchored : held' = none → chain' = []) (distinct : (chain'.map T.releaseName).Nodup)
    (own : PhaseInv T w held' chain' o c.phase) (holds : c.holds = true ↔ held' = some o)
    (others : ∀ a, a ≠ o → PhaseInv T s.warehouse held chain a (s.clients a).phase →
      PhaseInv T w held' chain' a (s.clients a).phase)
    (keeps : ∀ a, a ≠ o → (held = some a ↔ held' = some a)) :
    LockInv T ⟨w, Function.update s.clients o c⟩ held' chain' := by
  refine ⟨links, anchored, distinct, ?_, ?_⟩
  · intro a
    by_cases ha : a = o
    · subst a
      simpa using own
    · simpa [ha] using others a ha (h.phases a)
  · intro a
    by_cases ha : a = o
    · subst a
      simpa using holds
    · simpa [ha] using (h.holder a).trans (keeps a ha)

/-- A step that touches no table and ends in a neutral phase keeps the chain. -/
theorem LockInv.neutral (h : LockInv T s held chain)
    (hphase : c.phase.Neutral) (hholds : c.holds = (s.clients o).holds) :
    LockInv T ⟨s.warehouse, Function.update s.clients o c⟩ held chain :=
  h.move h.links h.anchored h.distinct (.of_neutral hphase) (hholds ▸ h.holder o)
    (fun _ _ ha => ha) (fun _ _ => Iff.rfl)

theorem LockInv.fail (h : LockInv T s held chain) (o : String) (e : LockError) :
    LockInv T (s.fail o e) held chain :=
  h.neutral (.inl rfl) rfl

theorem LockInv.begin (h : LockInv T s held chain) (o : String) (hp : p.Neutral) :
    LockInv T (s.begin o p) held chain := by
  unfold LockState.begin
  split_ifs
  · exact h.neutral hp rfl
  · exact h

/-- Two clients that both have their own mark in their release tables use
different tables. -/
theorem releaseName_ne_of_marks {a : String} (hao : a ≠ o)
    (ha : w (T.releaseName a) = some (ownerComment a))
    (ho : w (T.releaseName o) = some (ownerComment o)) : T.releaseName a ≠ T.releaseName o := by
  intro h
  rw [h, ho] at ha
  exact hao (by simpa using ha.symm)

section

variable (h : LockInv T s held chain)

include h

theorem LockInv.lock_free
    (hfree : s.warehouse targetMutationLockTableName = none) : held = none ∧ chain = [] := by
  cases chain with
  | nil => exact ⟨by simpa [Links, hfree, eq_comm] using h.links, rfl⟩
  | cons x xs => simpa [hfree] using h.links.1

theorem LockInv.acquire
    (hrun : (Ddl.createTable targetMutationLockTableName (ownerComment o)).run s.warehouse =
      some w) : LockInv T (s.finish o w .acquired true) (some o) [] := by
  obtain ⟨hfree, rfl⟩ := Ddl.run_createTable.mp hrun
  obtain ⟨rfl, rfl⟩ := h.lock_free hfree
  refine h.move (by simp [Links]) (by simp) (by simp) trivial (by simp) ?_ ?_
  · intro a ha hphase
    exact hphase.mono (by simp) (by simp) (by simp) (by simp)
  · intro a ha
    simpa using ha.symm

theorem LockInv.releaseCreate
    (hrun : (Ddl.createTable (T.releaseName o) (ownerComment o)).run s.warehouse = some w) :
    LockInv T (s.advance o w .releaseExchange) held chain := by
  obtain ⟨hfree, rfl⟩ := Ddl.run_createTable.mp hrun
  have hchain : ∀ x ∈ chain, T.releaseName x ≠ T.releaseName o := by
    intro x hx heq
    cases held with
    | none => simp [h.anchored rfl] at hx
    | some owner =>
      obtain ⟨comment, hc⟩ := h.links.exists_table hx
      rw [heq, hfree] at hc
      exact absurd hc (by simp)
  refine h.move ?_ h.anchored h.distinct ⟨by simp, by simpa using hchain⟩ (h.holder o) ?_
    (fun _ _ => Iff.rfl)
  · exact h.links.transfer (by simp) fun x hx => by simp [hchain x hx]
  · intro a ha hphase
    refine hphase.mono ?_ id And.intro And.intro
    intro hmark hnot
    have hne : T.releaseName a ≠ T.releaseName o := by
      intro heq
      rw [heq, hfree] at hmark
      exact absurd hmark (by simp)
    exact ⟨by simpa [hne] using hmark, hnot⟩

/-- The first `EXCHANGE` of a release puts its marker in front of the chain. -/
theorem LockInv.releaseExchange (hphase : (s.clients o).phase = .releaseExchange)
    (hrun : (Ddl.exchangeTables targetMutationLockTableName (T.releaseName o)).run s.warehouse =
      some w) : LockInv T (s.advance o w .releaseInspect) held (o :: chain) := by
  obtain ⟨l, r, hl, hr, rfl⟩ := Ddl.run_exchangeTables.mp hrun
  have hown := h.phases o
  rw [hphase] at hown
  obtain ⟨hmark, hnot⟩ := hown
  obtain rfl : r = ownerComment o := by simpa [hr] using hmark
  have hchain : ∀ x ∈ chain, T.releaseName x ≠ T.releaseName o := by
    intro x hx heq
    exact hnot (heq ▸ mem_map_of_mem hx)
  refine h.move ⟨by simp, ?_⟩ ?_ ?_ (mem_cons_self ..) (h.holder o) ?_ (fun _ _ => Iff.rfl)
  · exact h.links.transfer (by simp [hl]) fun x hx => by simp [hchain x hx]
  · intro hheld
    have := h.links
    rw [h.anchored hheld, hheld] at this
    exact absurd hl (by simp [Links] at this; simp [this])
  · simpa using ⟨hchain, by simpa using h.distinct⟩
  · intro a ha hother
    refine hother.mono ?_ (mem_cons_of_mem _) ?_ ?_
    · intro ham hanot
      have hne := releaseName_ne_of_marks ha ham hmark
      refine ⟨by simpa [hne] using ham, ?_⟩
      simpa [hne] using hanot
    · rintro ⟨front, rfl⟩ hheld
      exact ⟨⟨o :: front, rfl⟩, hheld⟩
    · intro hheld hanot
      exact ⟨hheld, by simp [ha, hanot]⟩

/-- Inspecting the release table decides between giving the lock back and
releasing it; only the holder, at the end of the chain, releases. -/
theorem LockInv.releaseInspect
    (hphase : (s.clients o).phase = .releaseInspect) : LockInv T (clientStep T o s) held chain := by
  have hown := h.phases o
  rw [hphase] at hown
  by_cases hmark : s.warehouse (T.releaseName o) = some (ownerComment o)
  · rw [clientStep_inspect_own hphase hmark]
    exact h.move h.links h.anchored h.distinct (h.links.last_of_own_mark h.distinct hown hmark)
      (h.holder o) (fun _ _ ha => ha) (fun _ _ => Iff.rfl)
  · rw [clientStep_inspect_foreign hphase hmark]
    exact h.move h.links h.anchored h.distinct hown (h.holder o) (fun _ _ ha => ha)
      (fun _ _ => Iff.rfl)

/-- Giving the lock back, when the marker given back is still the one in front. -/
theorem LockInv.restoreExchange (hphase : (s.clients o).phase = .restoreExchange)
    (hfront : s.warehouse targetMutationLockTableName = some (ownerComment o))
    (hrun : (Ddl.exchangeTables targetMutationLockTableName (T.releaseName o)).run s.warehouse =
      some w) : ∃ rest, chain = o :: rest ∧ LockInv T (s.advance o w .restoreDrop) held rest := by
  obtain ⟨l, r, hl, hr, rfl⟩ := Ddl.run_exchangeTables.mp hrun
  obtain rfl : l = ownerComment o := by simpa [hl] using hfront
  have hown := h.phases o
  rw [hphase] at hown
  cases chain with
  | nil => simp [PhaseInv] at hown
  | cons x xs =>
    obtain rfl : o = x := by simpa [hl] using h.links.1
    obtain ⟨hfresh, hdistinct⟩ := nodup_cons.mp h.distinct
    have hxs : ∀ y ∈ xs, T.releaseName y ≠ T.releaseName o := by
      intro y hy heq
      exact hfresh (heq ▸ mem_map_of_mem hy)
    refine ⟨xs, rfl, h.move ?_ ?_ hdistinct ⟨by simp, hfresh⟩ (h.holder o) ?_ (fun _ _ => Iff.rfl)⟩
    · exact h.links.2.transfer (by simp [hr]) fun y hy => by simp [hxs y hy]
    · intro hheld
      simpa using h.anchored hheld
    · intro a ha hother
      refine hother.mono ?_ ?_ ?_ ?_
      · intro ham hanot
        have hne : T.releaseName a ≠ T.releaseName o := fun heq => hanot (by simp [heq])
        refine ⟨by simpa [hne] using ham, fun hmem => hanot ?_⟩
        exact mem_cons_of_mem _ hmem
      · intro hmem
        exact (mem_cons.mp hmem).resolve_left ha
      · rintro ⟨front, hfront⟩ hheld
        cases front with
        | nil => exact absurd (head_eq_of_cons_eq hfront).symm ha
        | cons y ys => exact ⟨⟨ys, (List.cons.inj hfront).2⟩, hheld⟩
      · intro hheld hanot
        exact ⟨hheld, fun hmem => hanot (mem_cons_of_mem _ hmem)⟩

/-- Dropping a release table that is not on the chain changes nothing else. -/
theorem LockInv.restoreDrop (hphase : (s.clients o).phase = .restoreDrop)
    (hrun : (Ddl.dropTable (T.releaseName o)).run s.warehouse = some w) (outcome : Outcome) :
    LockInv T (s.finish o w outcome (s.clients o).holds) held chain := by
  obtain ⟨-, rfl⟩ := Ddl.run_dropTable.mp hrun
  have hown := h.phases o
  rw [hphase] at hown
  obtain ⟨hmark, hnot⟩ := hown
  refine h.move ?_ h.anchored h.distinct trivial (h.holder o) ?_ (fun _ _ => Iff.rfl)
  · refine h.links.transfer (by simp) fun x hx => ?_
    have hne : T.releaseName x ≠ T.releaseName o := fun heq => hnot (heq ▸ mem_map_of_mem hx)
    simp [hne]
  · intro a ha hother
    refine hother.mono ?_ id And.intro And.intro
    intro ham hanot
    exact ⟨by simpa [releaseName_ne_of_marks ha ham hmark] using ham, hanot⟩

/-- The holder drops the table it acquired; its marker is the lock from here on. -/
theorem LockInv.releaseDropMarker (hphase : (s.clients o).phase = .releaseDropMarker)
    (hrun : (Ddl.dropTable (T.releaseName o)).run s.warehouse = some w) :
    ∃ front, chain = front ++ [o] ∧ LockInv T (s.advance o w .releaseDropLock) held front := by
  obtain ⟨-, rfl⟩ := Ddl.run_dropTable.mp hrun
  have hown := h.phases o
  rw [hphase] at hown
  obtain ⟨⟨front, rfl⟩, rfl⟩ := hown
  have hdistinct := h.distinct
  simp only [map_append, map_cons, map_nil, nodup_append, mem_singleton, forall_eq] at hdistinct
  have hfront : ∀ x ∈ front, T.releaseName x ≠ T.releaseName o := by
    intro x hx
    exact hdistinct.2.2 _ (mem_map_of_mem hx)
  have honot : o ∉ front := fun hmem => hfront o hmem rfl
  refine ⟨front, rfl, h.move ?_ (by simp) hdistinct.1 ⟨rfl, honot⟩ (h.holder o) ?_
    (fun _ _ => Iff.rfl)⟩
  · exact h.links.drop_last (by simp) fun x hx => by simp [hfront x hx]
  · intro a ha hother
    refine hother.mono ?_ ?_ ?_ ?_
    · intro ham hanot
      simp only [map_append, mem_append, map_cons, map_nil, mem_singleton, not_or] at hanot
      exact ⟨by simpa [hanot.2] using ham, hanot.1⟩
    · intro hmem
      simpa [ha] using hmem
    · intro _ hheld
      exact absurd (by simpa using hheld.symm) ha
    · intro hheld
      exact absurd (by simpa using hheld.symm) ha

/-- The final `DROP`, when the lock table holds the releasing client's own marker. -/
theorem LockInv.releaseDropLock (hphase : (s.clients o).phase = .releaseDropLock)
    (hfront : s.warehouse targetMutationLockTableName = some (ownerComment o))
    (hrun : (Ddl.dropTable targetMutationLockTableName).run s.warehouse = some w) :
    LockInv T (s.finish o w .released false) none [] := by
  obtain ⟨-, rfl⟩ := Ddl.run_dropTable.mp hrun
  have hown := h.phases o
  rw [hphase] at hown
  obtain ⟨rfl, honot⟩ := hown
  cases chain with
  | cons x xs =>
    have hx : o = x := by simpa [hfront] using h.links.1
    exact absurd (by simp [hx]) honot
  | nil =>
    refine h.move (by simp [Links]) (by simp) (by simp) trivial (by simp) ?_ ?_
    · intro a ha hother
      exact hother.mono (by simp) id (by simp) (fun hheld => absurd (by simpa using hheld.symm) ha)
    · intro a ha
      simpa using ha.symm

end

end SqlTide.Locking
