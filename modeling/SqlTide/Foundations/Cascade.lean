import Mathlib.Data.List.Perm.Basic
import Mathlib.Tactic

/-!
# Cascading inserts

A view passes every block of rows that is inserted into its source on to its target, which
may be the source of further views. A store keeps the rows of every table, and the rows that
were delivered to the view of every target. Where the views go up in rank, an insert leaves
each view that it can reach with what its source has got, and every other view alone.
-/

namespace SqlTide.Foundations.Cascade

open List

variable {ι ρ : Type}

structure View (ι ρ : Type) where
  source : ι
  target : ι
  /-- The rows that come out of a block, by the tables as they are when it arrives. -/
  transform : (ι → List ρ) → List ρ → List ρ

structure Store (ι ρ : Type) where
  contents : ι → List ρ
  delivered : ι → List ρ

/-- Sources are of lower rank than targets, and no table is the target of two views. -/
structure Layered (views : List (View ι ρ)) (rank : ι → ℕ) : Prop where
  rises : ∀ view ∈ views, rank view.source < rank view.target
  targets : (views.map (·.target)).Nodup

/-- What an insert at rank `k` may change: nothing below it; and a view from there on is
delivered exactly what its source has got. -/
structure PassesOn (views : List (View ι ρ)) (rank : ι → ℕ) (k : ℕ) (before after : Store ι ρ) :
    Prop where
  balanced : ∀ view ∈ views, k ≤ rank view.source → ∃ rows,
    after.contents view.source = before.contents view.source ++ rows ∧
      after.delivered view.target = before.delivered view.target ++ rows
  contents : ∀ table, rank table < k → after.contents table = before.contents table
  delivered : ∀ view ∈ views, rank view.source < k →
    after.delivered view.target = before.delivered view.target

section Changes

variable {views : List (View ι ρ)} {rank : ι → ℕ} {k k' : ℕ} {a b c : Store ι ρ}

theorem PassesOn.mono (h : PassesOn views rank k a b) (hle : k' ≤ k) :
    PassesOn views rank k' a b where
  balanced view hview _ := by
    by_cases hrank : k ≤ rank view.source
    · exact h.balanced view hview hrank
    · refine ⟨[], ?_, ?_⟩
      · simpa using h.contents view.source (by omega)
      · simpa using h.delivered view hview (by omega)
  contents table hrank := h.contents table (by omega)
  delivered view hview hrank := h.delivered view hview (by omega)

end Changes

variable [DecidableEq ι]

namespace Store

def append (store : Store ι ρ) (table : ι) (rows : List ρ) : Store ι ρ :=
  { store with contents := Function.update store.contents table (store.contents table ++ rows) }

def deliver (store : Store ι ρ) (target : ι) (rows : List ρ) : Store ι ρ :=
  { store with
    delivered := Function.update store.delivered target (store.delivered target ++ rows) }

end Store

/-- A view of the table is delivered its rows; what comes out is pushed on. -/
def serve (push : Store ι ρ → ι → List ρ → Store ι ρ) (table : ι) (rows : List ρ)
    (store : Store ι ρ) (view : View ι ρ) : Store ι ρ :=
  if view.source = table then
    push (store.deliver view.target rows) view.target (view.transform store.contents rows)
  else store

/-- The rows go into the table, and on to every view that reads it. -/
def insert (views : List (View ι ρ)) : ℕ → Store ι ρ → ι → List ρ → Store ι ρ
  | 0, store, table, rows => store.append table rows
  | fuel + 1, store, table, rows =>
    views.foldl (serve (insert views fuel) table rows) (store.append table rows)

section Insert

variable {views : List (View ι ρ)} {rank : ι → ℕ} {k k' : ℕ} {a b c : Store ι ρ}

/-- The views of a table that were served so far have been delivered the rows. -/
structure Serves (views served : List (View ι ρ)) (rank : ι → ℕ) (table : ι) (rows : List ρ)
    (before after : Store ι ρ) : Prop where
  balanced : ∀ view ∈ views, rank table < rank view.source → ∃ rows,
    after.contents view.source = before.contents view.source ++ rows ∧
      after.delivered view.target = before.delivered view.target ++ rows
  contents : ∀ table', rank table' ≤ rank table → after.contents table' = before.contents table'
  delivered : ∀ view ∈ views, rank view.source ≤ rank table →
    after.delivered view.target = before.delivered view.target ++
      if view.source = table ∧ view.target ∈ served.map (·.target) then rows else []

variable {served : List (View ι ρ)} {table : ι} {rows : List ρ}

theorem Serves.skip {view : View ι ρ} (h : Serves views served rank table rows a b)
    (hlayered : Layered views rank) (hview : view ∈ views) (hsource : view.source ≠ table) :
    Serves views (served ++ [view]) rank table rows a b where
  balanced := h.balanced
  contents := h.contents
  delivered other hother hrank := by
    rw [h.delivered other hother hrank]
    by_cases htarget : other.target = view.target
    · obtain rfl : other = view := inj_on_of_nodup_map hlayered.targets hother hview htarget
      simp [hsource]
    · simp [htarget]

/-- Serving one more view: the rows are delivered to it, and what comes out goes on from its
target. -/
theorem Serves.serve {view : View ι ρ} (h : Serves views served rank table rows a b)
    (hlayered : Layered views rank) (hview : view ∈ views) (hsource : view.source = table)
    (hnew : view.target ∉ served.map (·.target))
    (hpasses : PassesOn views rank (rank view.target) (b.deliver view.target rows) c) :
    Serves views (served ++ [view]) rank table rows a c := by
  have hrises := hlayered.rises view hview
  rw [hsource] at hrises
  have hother : ∀ other ∈ views, other ≠ view → other.target ≠ view.target := by
    intro other hmem hne htarget
    exact hne (inj_on_of_nodup_map hlayered.targets hmem hview htarget)
  have hpasses : PassesOn views rank (rank table + 1) _ _ := hpasses.mono hrises
  refine ⟨?_, ?_, ?_⟩
  · intro other hmem hrank
    have hne : other ≠ view := by
      rintro rfl
      rw [hsource] at hrank
      omega
    obtain ⟨rows₁, hcontents₁, hdelivered₁⟩ := h.balanced other hmem hrank
    obtain ⟨rows₂, hcontents₂, hdelivered₂⟩ := hpasses.balanced other hmem hrank
    refine ⟨rows₁ ++ rows₂, ?_, ?_⟩
    · simpa [hcontents₁, Store.deliver] using hcontents₂
    · simpa [hdelivered₁, Store.deliver, hother other hmem hne] using hdelivered₂
  · intro table' hrank
    rw [hpasses.contents table' (by omega)]
    exact h.contents table' hrank
  · intro other hmem hrank
    rw [hpasses.delivered other hmem (by omega)]
    by_cases hne : other = view
    · subst hne
      have hbefore := h.delivered other hmem hrank
      rw [if_neg (fun hserved => hnew hserved.2), append_nil] at hbefore
      simp [Store.deliver, hbefore, hsource]
    · have htarget := hother other hmem hne
      simp [Store.deliver, htarget, h.delivered other hmem hrank]

theorem serves_foldl (hlayered : Layered views rank) {push : Store ι ρ → ι → List ρ → Store ι ρ}
    (hpush : ∀ store target rows, rank table < rank target →
      PassesOn views rank (rank target) store (push store target rows)) (rest : List (View ι ρ))
    (hsplit : views = served ++ rest) (h : Serves views served rank table rows a b) :
    Serves views views rank table rows a (rest.foldl (serve push table rows) b) := by
  induction rest generalizing served b with
  | nil =>
    rw [append_nil] at hsplit
    rwa [← hsplit] at h
  | cons view rest ih =>
    have hview : view ∈ views := by simp [hsplit]
    have hnew : view.target ∉ served.map (·.target) := by
      have htargets := hlayered.targets
      rw [hsplit, map_append, map_cons] at htargets
      exact fun hmem => (nodup_append.mp htargets).2.2 _ hmem _ mem_cons_self rfl
    rw [foldl_cons]
    have hsplit' : views = (served ++ [view]) ++ rest := by
      simp [hsplit]
    refine ih hsplit' ?_
    unfold serve
    split_ifs with hsource
    · have hrises := hlayered.rises view hview
      rw [hsource] at hrises
      exact h.serve hlayered hview hsource hnew (hpush _ _ _ hrises)
    · exact h.skip hlayered hview hsource

/-- Once all its views are served, the table and the views from its rank on are in balance. -/
theorem Serves.passesOn (h : Serves views views rank table rows (a.append table rows) b) :
    PassesOn views rank (rank table) a b ∧ b.contents table = a.contents table ++ rows := by
  have hend : b.contents table = a.contents table ++ rows := by
    rw [h.contents table le_rfl]
    simp [Store.append]
  have hcontents : ∀ table', table' ≠ table →
      (a.append table rows).contents table' = a.contents table' := by
    intro table' hne
    simp [Store.append, hne]
  have hdelivered : ∀ target, (a.append table rows).delivered target = a.delivered target :=
    fun _ => rfl
  refine ⟨⟨?_, ?_, ?_⟩, hend⟩
  · intro view hview hrank
    by_cases hsource : view.source = table
    · refine ⟨rows, by rw [hsource, hend], ?_⟩
      rw [h.delivered view hview (by rw [hsource]), hdelivered,
        if_pos ⟨hsource, mem_map_of_mem hview⟩]
    · rcases Nat.lt_or_eq_of_le hrank with hlt | heq
      · obtain ⟨rows', hcontents', hdelivered'⟩ := h.balanced view hview hlt
        exact ⟨rows', by rw [hcontents', hcontents _ hsource], by rw [hdelivered', hdelivered]⟩
      · refine ⟨[], ?_, ?_⟩
        · rw [h.contents view.source heq.ge, hcontents _ hsource, append_nil]
        · rw [h.delivered view hview heq.ge, hdelivered, if_neg (fun hserved => hsource hserved.1)]
  · intro table' hrank
    have hne : table' ≠ table := by
      rintro rfl
      omega
    rw [h.contents table' hrank.le, hcontents table' hne]
  · intro view hview hrank
    have hne : view.source ≠ table := by
      intro hsource
      rw [hsource] at hrank
      omega
    rw [h.delivered view hview hrank.le, hdelivered, if_neg (fun hserved => hne hserved.1),
      append_nil]

/-- With enough fuel, an insert gives the table its rows and passes them on. -/
theorem passesOn_insert (hlayered : Layered views rank) {bound : ℕ}
    (hbound : ∀ table, rank table ≤ bound) {fuel : ℕ} (store : Store ι ρ) (table : ι)
    (rows : List ρ) (hfuel : bound < fuel + rank table) :
    PassesOn views rank (rank table) store (insert views fuel store table rows) ∧
      (insert views fuel store table rows).contents table = store.contents table ++ rows := by
  induction fuel generalizing store table rows with
  | zero =>
    have := hbound table
    omega
  | succ fuel ih =>
    apply Serves.passesOn
    rw [insert]
    refine serves_foldl hlayered ?_ views (nil_append views).symm
      ⟨fun _ _ _ => ⟨[], by simp⟩, fun _ _ => rfl, fun _ _ _ => by simp⟩
    intro store' target rows' hrank
    exact (ih store' target rows' (by omega)).1

theorem contents_insert_of_notMem {table' : ι} (htarget : table' ∉ views.map (·.target))
    (fuel : ℕ) (store : Store ι ρ) (table : ι) (rows : List ρ) (hne : table' ≠ table) :
    (insert views fuel store table rows).contents table' = store.contents table' := by
  induction fuel generalizing store table rows with
  | zero => simp [insert, Store.append, hne]
  | succ fuel ih =>
    rw [insert]
    have hfold : ∀ (rest : List (View ι ρ)) (store : Store ι ρ), (∀ view ∈ rest, view ∈ views) →
        (rest.foldl (serve (insert views fuel) table rows) store).contents table' =
          store.contents table' := by
      intro rest
      induction rest with
      | nil => exact fun _ _ => rfl
      | cons view rest ihRest =>
        intro store hrest
        rw [foldl_cons, ihRest _ fun other hother =>
          hrest other (mem_cons_of_mem _ hother)]
        unfold serve
        split_ifs with hsource
        · have hview : table' ≠ view.target := by
            rintro rfl
            exact htarget (mem_map_of_mem (hrest view (by simp)))
          rw [ih _ _ _ hview]
          rfl
        · rfl
    rw [hfold views _ fun _ hview => hview]
    simp [Store.append, hne]

end Insert

/-- A replay of the rows of a view's source that it captures. -/
structure Replay (ι ρ : Type) where
  view : View ι ρ
  captures : ρ → Bool

def Replay.captured (replay : Replay ι ρ) (store : Store ι ρ) : List ρ :=
  (store.contents replay.view.source).filter replay.captures

/-- The captured rows are delivered to the view, and what comes out is inserted. -/
def Replay.run (views : List (View ι ρ)) (fuel : ℕ) (store : Store ι ρ) (replay : Replay ι ρ) :
    Store ι ρ :=
  insert views fuel (store.deliver replay.view.target (replay.captured store)) replay.view.target
    (replay.view.transform store.contents (replay.captured store))

def runReplays (views : List (View ι ρ)) (fuel : ℕ) (store : Store ι ρ)
    (replays : List (Replay ι ρ)) : Store ι ρ :=
  replays.foldl (Replay.run views fuel) store

/-- The replays of a run, each with the store that it meets. -/
def replaySteps (views : List (View ι ρ)) (fuel : ℕ) :
    Store ι ρ → List (Replay ι ρ) → List (Store ι ρ × Replay ι ρ)
  | _, [] => []
  | store, replay :: replays =>
    (store, replay) :: replaySteps views fuel (replay.run views fuel store) replays

/-- What the replays of a run deliver to the view of a target. -/
def replayed (steps : List (Store ι ρ × Replay ι ρ)) (target : ι) : List ρ :=
  (steps.filter fun step => step.2.view.target = target).flatMap fun step =>
    step.2.captured step.1

section Replay

variable {views : List (View ι ρ)} {rank : ι → ℕ} {fuel : ℕ}

@[simp] theorem map_snd_replaySteps (store : Store ι ρ) (replays : List (Replay ι ρ)) :
    (replaySteps views fuel store replays).map (·.2) = replays := by
  induction replays generalizing store with
  | nil => rfl
  | cons replay replays ih => rw [replaySteps, map_cons, ih]

variable {bound : ℕ} {view : View ι ρ} {steps : List (Store ι ρ × Replay ι ρ)}

/-- One replay: a view gets what its source got, and the view of the replay gets what was
captured besides. -/
theorem balanced_replay (hlayered : Layered views rank) (hbound : ∀ table, rank table ≤ bound)
    (hfuel : bound < fuel) (store : Store ι ρ) (replay : Replay ι ρ) (hview : view ∈ views) :
    ∃ rows, (replay.run views fuel store).contents view.source =
        store.contents view.source ++ rows ∧
      ((replay.run views fuel store).delivered view.target).Perm
        (store.delivered view.target ++
          ((if replay.view.target = view.target then replay.captured store else []) ++ rows)) := by
  obtain ⟨hpasses, -⟩ := passesOn_insert hlayered hbound
    (store.deliver replay.view.target (replay.captured store)) replay.view.target
    (replay.view.transform store.contents (replay.captured store))
    (hfuel.trans_le (Nat.le_add_right _ _))
  have hdelivered : (store.deliver replay.view.target (replay.captured store)).delivered
      view.target = store.delivered view.target ++
        if replay.view.target = view.target then replay.captured store else [] := by
    by_cases htarget : replay.view.target = view.target
    · simp [Store.deliver, htarget]
    · simp [Store.deliver, htarget, Ne.symm htarget]
  unfold Replay.run
  by_cases hrank : rank replay.view.target ≤ rank view.source
  · obtain ⟨rows, hcontents, hafter⟩ := hpasses.balanced view hview hrank
    refine ⟨rows, hcontents, ?_⟩
    rw [hafter, hdelivered, append_assoc]
  · refine ⟨[], ?_, ?_⟩
    · rw [hpasses.contents _ (by omega), append_nil]
      rfl
    · rw [hpasses.delivered view hview (by omega), hdelivered, append_nil]

/-- A run of replays: a view gets what its source got, and what was replayed for it. -/
theorem balanced_runReplays (hlayered : Layered views rank)
    (hbound : ∀ table, rank table ≤ bound) (hfuel : bound < fuel) (store : Store ι ρ)
    (replays : List (Replay ι ρ)) (hview : view ∈ views) :
    ∃ rows, (runReplays views fuel store replays).contents view.source =
        store.contents view.source ++ rows ∧
      ((runReplays views fuel store replays).delivered view.target).Perm
        (store.delivered view.target ++
          (replayed (replaySteps views fuel store replays) view.target ++ rows)) := by
  induction replays generalizing store with
  | nil => exact ⟨[], by simp [runReplays], by simp [runReplays, replayed, replaySteps]⟩
  | cons replay replays ih =>
    obtain ⟨rows, hcontents, hdelivered⟩ :=
      balanced_replay hlayered hbound hfuel store replay hview
    obtain ⟨rows', hcontents', hdelivered'⟩ := ih (replay.run views fuel store)
    refine ⟨rows ++ rows', ?_, ?_⟩
    · rw [← append_assoc, ← hcontents]
      exact hcontents'
    · have hsplit : replayed (replaySteps views fuel store (replay :: replays)) view.target =
          (if replay.view.target = view.target then replay.captured store else []) ++
            replayed (replaySteps views fuel (replay.run views fuel store) replays)
              view.target := by
        by_cases htarget : replay.view.target = view.target
        · simp [replayed, replaySteps, htarget]
        · simp [replayed, replaySteps, htarget]
      rw [hsplit]
      refine hdelivered'.trans ((hdelivered.append_right _).trans ?_)
      simp only [append_assoc]
      refine List.Perm.append_left _ (List.Perm.append_left _ ?_)
      simp only [← append_assoc]
      exact perm_append_comm.append_right _

theorem contents_replaySteps {table : ι} (htarget : table ∉ views.map (·.target))
    (store : Store ι ρ) {replays : List (Replay ι ρ)}
    (hreplays : ∀ replay ∈ replays, replay.view ∈ views) :
    (∀ step ∈ replaySteps views fuel store replays,
      step.1.contents table = store.contents table) ∧
      (runReplays views fuel store replays).contents table = store.contents table := by
  induction replays generalizing store with
  | nil => exact ⟨by simp [replaySteps], rfl⟩
  | cons replay replays ih =>
    have hstep : (replay.run views fuel store).contents table = store.contents table := by
      have hne : table ≠ replay.view.target := by
        rintro rfl
        exact htarget (mem_map_of_mem (hreplays replay (by simp)))
      unfold Replay.run
      rw [contents_insert_of_notMem htarget _ _ _ _ hne]
      rfl
    obtain ⟨hsteps, hfinal⟩ := ih (replay.run views fuel store)
      fun other hother => hreplays other (mem_cons_of_mem _ hother)
    refine ⟨?_, ?_⟩
    · intro step hmem
      rcases mem_cons.mp hmem with rfl | hmem
      · rfl
      · rw [hsteps step hmem, hstep]
    · exact hfinal.trans hstep

theorem replayed_eq_nil_iff {target : ι} :
    replayed steps target = [] ↔
      ∀ step ∈ steps, step.2.view.target = target → step.2.captured step.1 = [] := by
  simp only [replayed, flatMap_eq_nil_iff, mem_filter, decide_eq_true_eq, and_imp]

/-- Of replays for different targets, one delivers what is replayed for its target. -/
theorem replayed_eq_captured
    (hnodup : (steps.map fun step => step.2.view.target).Nodup) {step : Store ι ρ × Replay ι ρ}
    (hstep : step ∈ steps) : replayed steps step.2.view.target = step.2.captured step.1 := by
  induction steps with
  | nil => simp at hstep
  | cons other steps ih =>
    rw [map_cons, nodup_cons] at hnodup
    rcases mem_cons.mp hstep with rfl | hmem
    · have hrest : replayed steps step.2.view.target = [] := by
        rw [replayed_eq_nil_iff]
        intro other hother heq
        exact absurd (mem_map.mpr ⟨other, hother, heq⟩) hnodup.1
      unfold replayed at hrest ⊢
      rw [filter_cons_of_pos (by simp), flatMap_cons, hrest, append_nil]
    · have hne : other.2.view.target ≠ step.2.view.target := by
        intro heq
        exact hnodup.1 (mem_map.mpr ⟨step, hmem, heq.symm⟩)
      have hih := ih hnodup.2 hmem
      unfold replayed at hih ⊢
      rw [filter_cons_of_neg (by simpa using hne), hih]

end Replay

end SqlTide.Foundations.Cascade
