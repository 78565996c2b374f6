import Mathlib.Algebra.BigOperators.Group.Finset.Basic
import Mathlib.Algebra.Order.BigOperators.Group.Finset
import Mathlib.Logic.Relation
import Mathlib.Tactic

/-!
# Searches that open and close

A depth-first search with a stack of tasks opens an element, settles what it depends on, and closes
it. Leaves are only noted. The closed elements come out behind what they depend on, and an element
that is met while it is open depends on itself.
-/

namespace SqlTide.Foundations.StackSearch

open List Relation

variable {α : Type}

/-- What is a leaf, and what the other elements depend on, where that is known. -/
structure Graph (α : Type) where
  leaf : α → Prop
  deps : α → Option (List α)

def Graph.DependsOn (G : Graph α) (a b : α) : Prop :=
  ¬ G.leaf a ∧ ∃ ds, G.deps a = some ds ∧ b ∈ ds

def Graph.Reached (G : Graph α) (roots : List α) (a : α) : Prop :=
  ∃ r ∈ roots, ReflTransGen G.DependsOn r a

/-- A task closes its element when it is marked. -/
structure Search (α : Type) where
  pending : List (α × Bool)
  active : List α
  finished : List α
  met : List α

inductive Step [DecidableEq α] (G : Graph α) : Search α → Search α → Prop
  | leaf {a mark pending active finished met} : G.leaf a →
      Step G ⟨(a, mark) :: pending, active, finished, met⟩ ⟨pending, active, finished, a :: met⟩
  | skip {a mark pending active finished met} : ¬ G.leaf a → a ∈ finished →
      Step G ⟨(a, mark) :: pending, active, finished, met⟩ ⟨pending, active, finished, met⟩
  | close {a pending active finished met} : ¬ G.leaf a → a ∉ finished →
      Step G ⟨(a, true) :: pending, active, finished, met⟩
        ⟨pending, active.erase a, finished ++ [a], met⟩
  | enter {a ds pending active finished met} : ¬ G.leaf a → a ∉ finished → a ∉ active →
      G.deps a = some ds →
      Step G ⟨(a, false) :: pending, active, finished, met⟩
        ⟨ds.map (·, false) ++ (a, true) :: pending, a :: active, finished, met⟩

variable {G : Graph α} {roots finished met active : List α} {pending : List (α × Bool)}
  {settled : α → Prop} {child : Option α} {a b : α}

theorem Graph.Reached.mono {roots' : List α} (h : G.Reached roots a) (hsub : roots ⊆ roots') :
    G.Reached roots' a := by
  obtain ⟨r, hr, hreach⟩ := h
  exact ⟨r, hsub hr, hreach⟩

theorem Graph.Reached.step (h : G.Reached roots a) (hab : G.DependsOn a b) : G.Reached roots b := by
  obtain ⟨r, hr, hreach⟩ := h
  exact ⟨r, hr, hreach.tail hab⟩

theorem Graph.reached_of_mem (h : a ∈ roots) : G.Reached roots a := ⟨a, h, .refl⟩

def Settled (G : Graph α) (finished met : List α) (a : α) : Prop :=
  G.leaf a ∧ a ∈ met ∨ ¬ G.leaf a ∧ a ∈ finished

theorem Settled.mono {finished' met' : List α} (h : Settled G finished met a)
    (hfinished : finished ⊆ finished') (hmet : met ⊆ met') : Settled G finished' met' a :=
  h.imp (fun h => ⟨h.1, hmet h.2⟩) fun h => ⟨h.1, hfinished h.2⟩

/-- Every element is new, is no leaf, and has its dependencies before it. -/
inductive Ordered (G : Graph α) (met : List α) : List α → Prop
  | nil : Ordered G met []
  | snoc {finished a ds} : Ordered G met finished → ¬ G.leaf a → a ∉ finished → G.deps a = some ds →
      (∀ b ∈ ds, Settled G finished met b) → Ordered G met (finished ++ [a])

section

variable (h : Ordered G met finished)

include h

theorem Ordered.mono {met' : List α} (hmet : met ⊆ met') : Ordered G met' finished := by
  induction h with
  | nil => exact .nil
  | snoc _ hleaf hnew hdeps hds ih =>
    exact .snoc ih hleaf hnew hdeps fun b hb => (hds b hb).mono (List.Subset.refl _) hmet

theorem Ordered.nodup : finished.Nodup := by
  induction h with
  | nil => exact nodup_nil
  | snoc _ _ hnew _ _ ih => simpa using nodup_append.mpr ⟨ih, nodup_singleton _, by
      rintro a ha b hb rfl
      exact hnew (mem_singleton.mp hb ▸ ha)⟩

theorem Ordered.not_leaf (ha : a ∈ finished) : ¬ G.leaf a := by
  induction h with
  | nil => cases ha
  | snoc _ hleaf _ _ _ ih =>
    rcases mem_append.mp ha with ha | ha
    · exact ih ha
    · exact mem_singleton.mp ha ▸ hleaf

theorem Ordered.deps_isSome (ha : a ∈ finished) : (G.deps a).isSome := by
  induction h with
  | nil => cases ha
  | snoc _ _ _ hdeps _ ih =>
    rcases mem_append.mp ha with ha | ha
    · exact ih ha
    · rw [mem_singleton.mp ha, hdeps]
      rfl

/-- What comes right behind some elements has its dependencies among them. -/
theorem Ordered.settled_before {before after ds : List α} (hsplit : finished = before ++ a :: after)
    (hdeps : G.deps a = some ds) (hb : b ∈ ds) : Settled G before met b := by
  induction h generalizing after with
  | nil => simp at hsplit
  | @snoc finished c ds' _ _ _ hdeps' hds ih =>
    rcases eq_nil_or_concat after with rfl | ⟨after, d, rfl⟩
    · obtain ⟨rfl, hca⟩ := append_inj' hsplit rfl
      obtain rfl : c = a := by simpa using hca
      obtain rfl := Option.some.inj (hdeps'.symm.trans hdeps)
      exact hds b hb
    · have hsplit' : finished ++ [c] = (before ++ a :: after) ++ [d] := by simpa using hsplit
      exact ih (append_inj' hsplit' rfl).1

theorem Ordered.settled_of_dependsOn (ha : a ∈ finished)
    (hab : G.DependsOn a b) : Settled G finished met b := by
  obtain ⟨before, after, rfl⟩ := append_of_mem ha
  obtain ⟨-, ds, hdeps, hb⟩ := hab
  exact (h.settled_before rfl hdeps hb).mono (subset_append_left _ _) (List.Subset.refl _)

theorem Ordered.settled_of_reflTransGen (ha : Settled G finished met a)
    (hab : ReflTransGen G.DependsOn a b) : Settled G finished met b := by
  induction hab with
  | refl => exact ha
  | tail _ hstep ih =>
    rcases ih with ⟨hleaf, -⟩ | ⟨-, hmem⟩
    · exact absurd hleaf hstep.1
    · exact h.settled_of_dependsOn hmem hstep

theorem Ordered.take {before after : List α}
    (hsplit : finished = before ++ after) : Ordered G met before := by
  induction h generalizing after with
  | nil => exact (append_eq_nil_iff.mp hsplit.symm).1 ▸ .nil
  | @snoc finished c ds hrest hleaf hnew hdeps hds ih =>
    rcases eq_nil_or_concat after with rfl | ⟨after, d, rfl⟩
    · rw [append_nil] at hsplit
      exact hsplit ▸ .snoc hrest hleaf hnew hdeps hds
    · rw [concat_eq_append, ← append_assoc] at hsplit
      exact ih (append_inj' hsplit rfl).1

theorem Ordered.mem_before {before after : List α} (hsplit : finished = before ++ a :: after)
    (hab : TransGen G.DependsOn a b) (hb : ¬ G.leaf b) : b ∈ before := by
  obtain ⟨c, ⟨-, ds, hdeps, hc⟩, hcb⟩ := TransGen.head'_iff.mp hab
  have hsettled := h.settled_before hsplit hdeps hc
  rcases (h.take hsplit).settled_of_reflTransGen hsettled hcb with ⟨hleaf, -⟩ | ⟨-, hmem⟩
  · exact absurd hleaf hb
  · exact hmem

theorem Ordered.acyclic (ha : a ∈ finished) : ¬ TransGen G.DependsOn a a := by
  induction h with
  | nil => cases ha
  | @snoc finished c ds hrest hleaf hnew hdeps hds ih =>
    rcases mem_append.mp ha with ha | ha
    · exact ih ha
    · obtain rfl := mem_singleton.mp ha
      intro hcycle
      obtain ⟨b, ⟨-, ds', hdeps', hb⟩, hback⟩ := TransGen.head'_iff.mp hcycle
      obtain rfl := Option.some.inj (hdeps.symm.trans hdeps')
      rcases hrest.settled_of_reflTransGen (hds b hb) hback with ⟨hbad, -⟩ | ⟨-, hmem⟩
      · exact hleaf hbad
      · exact hnew hmem

end

/-- The wanted elements are still to do, or settled, or the open child. -/
structure Covers (settled : α → Prop) (wanted : List α) (child : Option α) (todo : List α) :
    Prop where
  todo_wanted : todo ⊆ wanted
  child_wanted : ∀ c, child = some c → c ∈ wanted
  wanted_done : ∀ b ∈ wanted, b ∈ todo ∨ child = some b ∨ settled b

theorem Covers.mono {settled' : α → Prop} {wanted todo : List α}
    (h : Covers settled wanted child todo) (hsettled : ∀ a, settled a → settled' a) :
    Covers settled' wanted child todo where
  todo_wanted := h.todo_wanted
  child_wanted := h.child_wanted
  wanted_done b hb := (h.wanted_done b hb).imp_right (Or.imp_right (hsettled b))

theorem Covers.pop {wanted todo : List α} (h : Covers settled wanted none (b :: todo)) :
    Covers settled wanted (some b) todo where
  todo_wanted _ hc := h.todo_wanted (mem_cons_of_mem _ hc)
  child_wanted _ hc := Option.some.inj hc ▸ h.todo_wanted mem_cons_self
  wanted_done c hc := by
    rcases h.wanted_done c hc with hmem | hchild | hsettled
    · rcases mem_cons.mp hmem with rfl | hmem
      · exact .inr (.inl rfl)
      · exact .inl hmem
    · cases hchild
    · exact .inr (.inr hsettled)

theorem Covers.close {wanted todo : List α} (h : Covers settled wanted (some b) todo)
    (hb : settled b) : Covers settled wanted none todo where
  todo_wanted := h.todo_wanted
  child_wanted := by simp
  wanted_done c hc := by
    rcases h.wanted_done c hc with hmem | hchild | hsettled
    · exact .inl hmem
    · exact .inr (.inr (Option.some.inj hchild ▸ hb))
    · exact .inr (.inr hsettled)

/-- The tasks belong to the open elements, innermost first, and at last to the roots. -/
inductive Frames (G : Graph α) (settled : α → Prop) (roots : List α) :
    Option α → List α → List (α × Bool) → Prop
  | base {child todo} : Covers settled roots child todo →
      Frames G settled roots child [] (todo.map (·, false))
  | frame {child a ds todo active rest} : ¬ G.leaf a → G.deps a = some ds →
      Covers settled ds child todo → Frames G settled roots (some a) active rest →
      Frames G settled roots child (a :: active) (todo.map (·, false) ++ (a, true) :: rest)

theorem Frames.mono {settled' : α → Prop} (h : Frames G settled roots child active pending)
    (hsettled : ∀ a, settled a → settled' a) : Frames G settled' roots child active pending := by
  induction h with
  | base hcovers => exact .base (hcovers.mono hsettled)
  | frame hleaf hdeps hcovers _ ih => exact .frame hleaf hdeps (hcovers.mono hsettled) ih

theorem Frames.pop (h : Frames G settled roots none active ((b, false) :: pending)) :
    Frames G settled roots (some b) active pending := by
  generalize htasks : (b, false) :: pending = tasks at h
  cases h with
  | @base _ todo hcovers =>
    cases todo with
    | nil => cases htasks
    | cons c todo =>
      obtain ⟨hbc, rfl⟩ := List.cons.inj htasks
      obtain rfl : b = c := congrArg Prod.fst hbc
      exact .base hcovers.pop
  | @frame _ a ds todo active rest hleaf hdeps hcovers hrest =>
    cases todo with
    | nil => simp at htasks
    | cons c todo =>
      obtain ⟨hbc, rfl⟩ := List.cons.inj htasks
      obtain rfl : b = c := congrArg Prod.fst hbc
      exact .frame hleaf hdeps hcovers.pop hrest

theorem Frames.close (h : Frames G settled roots (some b) active pending) (hb : settled b) :
    Frames G settled roots none active pending := by
  cases h with
  | base hcovers => exact .base (hcovers.close hb)
  | frame hleaf hdeps hcovers hrest => exact .frame hleaf hdeps (hcovers.close hb) hrest

theorem Frames.enter {ds : List α} (h : Frames G settled roots (some b) active pending)
    (hleaf : ¬ G.leaf b) (hdeps : G.deps b = some ds) :
    Frames G settled roots none (b :: active) (ds.map (·, false) ++ (b, true) :: pending) :=
  .frame hleaf hdeps ⟨List.Subset.refl _, by simp, fun _ hc => .inl hc⟩ h

/-- A task that closes its element has the innermost frame, and nothing is left to do in it. -/
theorem Frames.closing (h : Frames G settled roots none active ((b, true) :: pending)) :
    ∃ outer ds, active = b :: outer ∧ ¬ G.leaf b ∧ G.deps b = some ds ∧ (∀ c ∈ ds, settled c) ∧
      Frames G settled roots (some b) outer pending := by
  generalize htasks : (b, true) :: pending = tasks at h
  cases h with
  | @base _ todo hcovers =>
    cases todo with
    | nil => cases htasks
    | cons c todo => simp at htasks
  | @frame _ a ds todo active rest hleaf hdeps hcovers hrest =>
    cases todo with
    | nil =>
      obtain ⟨hba, rfl⟩ := List.cons.inj htasks
      obtain rfl : b = a := congrArg Prod.fst hba
      refine ⟨active, ds, rfl, hleaf, hdeps, ?_, hrest⟩
      intro c hc
      rcases hcovers.wanted_done c hc with hmem | hchild | hsettled
      · cases hmem
      · cases hchild
      · exact hsettled
    | cons c todo => simp at htasks

theorem Frames.parent (h : Frames G settled roots (some b) active pending) :
    active = [] ∧ b ∈ roots ∨ ∃ a outer, active = a :: outer ∧ G.DependsOn a b := by
  cases h with
  | base hcovers => exact .inl ⟨rfl, hcovers.child_wanted b rfl⟩
  | @frame _ a ds todo active rest hleaf hdeps hcovers hrest =>
    exact .inr ⟨a, active, rfl, hleaf, ds, hdeps, hcovers.child_wanted b rfl⟩

theorem Frames.transGen (h : Frames G settled roots (some b) active pending) (ha : a ∈ active) :
    TransGen G.DependsOn a b := by
  generalize hchild : some b = child at h
  induction h generalizing b with
  | base _ => cases ha
  | @frame _ c ds todo active rest hleaf hdeps hcovers hrest ih =>
    have hcb : G.DependsOn c b := ⟨hleaf, ds, hdeps, hcovers.child_wanted b hchild.symm⟩
    rcases mem_cons.mp ha with rfl | ha
    · exact .single hcb
    · exact (ih ha rfl).tail hcb

theorem Frames.empty (h : Frames G settled roots none active []) :
    active = [] ∧ ∀ r ∈ roots, settled r := by
  generalize htasks : ([] : List (α × Bool)) = tasks at h
  cases h with
  | @base _ todo hcovers =>
    cases todo with
    | nil =>
      refine ⟨rfl, fun r hr => ?_⟩
      rcases hcovers.wanted_done r hr with hmem | hchild | hsettled
      · cases hmem
      · cases hchild
      · exact hsettled
    | cons c todo => cases htasks
  | @frame _ a ds todo active rest hleaf hdeps hcovers hrest =>
    simp at htasks

/-- What holds between two steps of a search from some roots. -/
structure Searching (G : Graph α) (roots : List α) (s : Search α) : Prop where
  frames : Frames G (Settled G s.finished s.met) roots none s.active s.pending
  active_nodup : s.active.Nodup
  apart : ∀ a ∈ s.active, a ∉ s.finished
  ordered : Ordered G s.met s.finished
  met_leaf : ∀ a ∈ s.met, G.leaf a
  active_reached : ∀ a ∈ s.active, G.Reached roots a
  finished_reached : ∀ a ∈ s.finished, G.Reached roots a
  met_reached : ∀ a ∈ s.met, G.Reached roots a

variable {mark : Bool}

theorem Searching.head_reached
    (h : Searching G roots ⟨(a, mark) :: pending, active, finished, met⟩) : G.Reached roots a := by
  cases mark with
  | true =>
    obtain ⟨outer, ds, hactive, -⟩ := h.frames.closing
    exact h.active_reached a (by simp [show active = a :: outer from hactive])
  | false =>
    rcases h.frames.pop.parent with ⟨-, hroot⟩ | ⟨b, outer, hactive, hba⟩
    · exact Graph.reached_of_mem hroot
    · exact (h.active_reached b (by simp [show active = b :: outer from hactive])).step hba

theorem Searching.cyclic (h : Searching G roots ⟨(a, false) :: pending, active, finished, met⟩)
    (ha : a ∈ active) : TransGen G.DependsOn a a :=
  h.frames.pop.transGen ha

theorem Searching.closing (h : Searching G roots ⟨(a, true) :: pending, active, finished, met⟩) :
    ¬ G.leaf a ∧ a ∉ finished ∧ a ∈ active ∧
      ∃ ds, G.deps a = some ds ∧ ∀ b ∈ ds, Settled G finished met b := by
  obtain ⟨outer, ds, hactive, hleaf, hdeps, hds, -⟩ := h.frames.closing
  have hmem : a ∈ active := by simp [show active = a :: outer from hactive]
  exact ⟨hleaf, h.apart a hmem, hmem, ds, hdeps, hds⟩

/-- All that is wanted is settled. -/
structure Complete (G : Graph α) (roots finished met : List α) : Prop where
  roots_settled : ∀ r ∈ roots, Settled G finished met r
  ordered : Ordered G met finished
  met_leaf : ∀ a ∈ met, G.leaf a
  finished_reached : ∀ a ∈ finished, G.Reached roots a
  met_reached : ∀ a ∈ met, G.Reached roots a

theorem complete_nil (G : Graph α) : Complete G [] [] [] :=
  ⟨by simp, .nil, by simp, by simp, by simp⟩

theorem Complete.start (h : Complete G roots finished met) (root : α) :
    Searching G (roots ++ [root]) ⟨[(root, false)], [], finished, met⟩ where
  frames := by
    have hcovers : Covers (Settled G finished met) (roots ++ [root]) none [root] := by
      refine ⟨subset_append_right _ _, by simp, ?_⟩
      intro r hr
      rcases mem_append.mp hr with hr | hr
      · exact .inr (.inr (h.roots_settled r hr))
      · exact .inl hr
    exact .base hcovers
  active_nodup := nodup_nil
  apart := by simp
  ordered := h.ordered
  met_leaf := h.met_leaf
  active_reached := by simp
  finished_reached a ha := (h.finished_reached a ha).mono (subset_append_left _ _)
  met_reached a ha := (h.met_reached a ha).mono (subset_append_left _ _)

theorem Searching.complete (h : Searching G roots ⟨[], active, finished, met⟩) :
    Complete G roots finished met :=
  ⟨h.frames.empty.2, h.ordered, h.met_leaf, h.finished_reached, h.met_reached⟩

/-- What is wanted is settled, and nothing else is. -/
theorem Complete.settled_iff (h : Complete G roots finished met) :
    Settled G finished met a ↔ G.Reached roots a := by
  constructor
  · rintro (⟨-, hmet⟩ | ⟨-, hfinished⟩)
    · exact h.met_reached a hmet
    · exact h.finished_reached a hfinished
  · rintro ⟨r, hr, hreach⟩
    exact h.ordered.settled_of_reflTransGen (h.roots_settled r hr) hreach

theorem Complete.mem_finished (h : Complete G roots finished met) :
    a ∈ finished ↔ G.Reached roots a ∧ ¬ G.leaf a := by
  constructor
  · intro ha
    exact ⟨h.finished_reached a ha, h.ordered.not_leaf ha⟩
  · rintro ⟨hreach, hleaf⟩
    rcases h.settled_iff.mpr hreach with ⟨hbad, -⟩ | ⟨-, ha⟩
    · exact absurd hbad hleaf
    · exact ha

theorem Complete.mem_met (h : Complete G roots finished met) :
    a ∈ met ↔ G.Reached roots a ∧ G.leaf a := by
  constructor
  · intro ha
    exact ⟨h.met_reached a ha, h.met_leaf a ha⟩
  · rintro ⟨hreach, hleaf⟩
    rcases h.settled_iff.mpr hreach with ⟨-, ha⟩ | ⟨hbad, -⟩
    · exact ha
    · exact absurd hleaf hbad

section

variable [DecidableEq α] {s s' : Search α}

theorem Searching.step (h : Searching G roots s) (hstep : Step G s s') : Searching G roots s' := by
  cases hstep with
  | @leaf a mark pending active finished met hleaf =>
    have hmono : ∀ b, Settled G finished met b → Settled G finished (a :: met) b :=
      fun b hb => hb.mono (List.Subset.refl _) (subset_cons_self _ _)
    cases mark with
    | true => exact absurd hleaf h.closing.1
    | false =>
      refine ⟨?_, h.active_nodup, h.apart, h.ordered.mono (subset_cons_self _ _), ?_,
        h.active_reached, h.finished_reached, ?_⟩
      · exact (h.frames.pop.mono hmono).close (.inl ⟨hleaf, mem_cons_self⟩)
      · exact forall_mem_cons.mpr ⟨hleaf, h.met_leaf⟩
      · exact forall_mem_cons.mpr ⟨h.head_reached, h.met_reached⟩
  | @skip a mark pending active finished met hleaf hfinished =>
    cases mark with
    | true => exact absurd hfinished h.closing.2.1
    | false =>
      exact ⟨h.frames.pop.close (.inr ⟨hleaf, hfinished⟩), h.active_nodup, h.apart, h.ordered,
        h.met_leaf, h.active_reached, h.finished_reached, h.met_reached⟩
  | @close a pending active finished met hleaf hfinished =>
    obtain ⟨outer, ds, hactive, -, hdeps, hds, hrest⟩ := h.frames.closing
    obtain rfl : active = a :: outer := hactive
    have hmono : ∀ b, Settled G finished met b → Settled G (finished ++ [a]) met b :=
      fun b hb => hb.mono (subset_append_left _ _) (List.Subset.refl _)
    have hnodup := nodup_cons.mp h.active_nodup
    rw [erase_cons_head]
    refine ⟨?_, hnodup.2, ?_, .snoc h.ordered hleaf hfinished hdeps hds, h.met_leaf, ?_, ?_,
      h.met_reached⟩
    · exact (hrest.mono hmono).close (.inr ⟨hleaf, by simp⟩)
    · intro b hb hmem
      rcases mem_append.mp hmem with hmem | hmem
      · exact h.apart b (mem_cons_of_mem _ hb) hmem
      · exact hnodup.1 (mem_singleton.mp hmem ▸ hb)
    · intro b hb
      exact h.active_reached b (mem_cons_of_mem _ hb)
    · intro b hb
      rcases mem_append.mp hb with hb | hb
      · exact h.finished_reached b hb
      · exact mem_singleton.mp hb ▸ h.head_reached
  | @enter a ds pending active finished met hleaf hfinished hactive hdeps =>
    refine ⟨h.frames.pop.enter hleaf hdeps, nodup_cons.mpr ⟨hactive, h.active_nodup⟩,
      ?_, h.ordered, h.met_leaf, ?_, h.finished_reached, h.met_reached⟩
    · exact forall_mem_cons.mpr ⟨hfinished, h.apart⟩
    · exact forall_mem_cons.mpr ⟨h.head_reached, h.active_reached⟩

/-- What a search can still do: its tasks, and those of the elements it has not opened. -/
def potential (G : Graph α) (known : Finset α) (s : Search α) : ℕ :=
  s.pending.length + ∑ a ∈ known with a ∉ s.active ∧ a ∉ s.finished,
    ((G.deps a).elim 0 List.length + 1)

theorem Step.potential_lt {known : Finset α} (hknown : ∀ a, (G.deps a).isSome → a ∈ known)
    (h : Step G s s') : potential G known s' < potential G known s := by
  cases h with
  | leaf _ => simp [potential]
  | skip _ _ => simp [potential]
  | @close a pending active finished met _ _ =>
    have hsub : (known.filter fun b => b ∉ active.erase a ∧ b ∉ finished ++ [a]) ⊆
        known.filter fun b => b ∉ active ∧ b ∉ finished := by
      intro b
      simp only [Finset.mem_filter, mem_append, mem_singleton, not_or]
      rintro ⟨hb, hactive, hfinished, hne⟩
      exact ⟨hb, fun hmem => hactive ((mem_erase_of_ne hne).mpr hmem), hfinished⟩
    have hle := Finset.sum_le_sum_of_subset (f := fun b => (G.deps b).elim 0 List.length + 1) hsub
    simp only [potential, length_cons]
    omega
  | @enter a ds pending active finished met _ hfinished hactive hdeps =>
    have hmem : a ∈ known.filter fun b => b ∉ active ∧ b ∉ finished := by
      simp [hknown a (by simp [hdeps]), hactive, hfinished]
    have herase : (known.filter fun b => b ∉ a :: active ∧ b ∉ finished) =
        (known.filter fun b => b ∉ active ∧ b ∉ finished).erase a := by
      ext b
      simp only [Finset.mem_filter, Finset.mem_erase, mem_cons, not_or]
      tauto
    have hsum := Finset.add_sum_erase _ (fun b => (G.deps b).elim 0 List.length + 1) hmem
    simp only [hdeps, Option.elim_some] at hsum
    simp only [potential, herase, length_cons, length_append, length_map]
    omega

theorem potential_le_of_start {known : Finset α} (root : α) (finished met : List α) :
    potential G known ⟨[(root, false)], [], finished, met⟩ ≤
      1 + ∑ a ∈ known, ((G.deps a).elim 0 List.length + 1) := by
  have hle := Finset.sum_le_sum_of_subset (f := fun a => (G.deps a).elim 0 List.length + 1)
    (Finset.filter_subset (fun a => a ∉ ([] : List α) ∧ a ∉ finished) known)
  simp only [potential, length_singleton]
  omega

end

end SqlTide.Foundations.StackSearch
