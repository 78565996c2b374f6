import Mathlib.Data.List.Basic
import Mathlib.Tactic

/-!
# Finite runs of a deterministic step function

A system is a function `next` from a state and an event to the next state; an
interleaving is the list of its events. `Along` collects a condition on every
step of a run, and `run_invariant` is the only induction over runs that the
clients of this file need.
-/

namespace SqlTide.Runs

variable {σ ε : Type*} (next : σ → ε → σ)

/-- The state reached from `s` by taking the listed events in order. -/
def run (s : σ) (events : List ε) : σ := events.foldl next s

@[simp] theorem run_nil (s : σ) : run next s [] = s := rfl

@[simp] theorem run_cons (s : σ) (e : ε) (es : List ε) :
    run next s (e :: es) = run next (next s e) es := rfl

theorem run_append (s : σ) (es fs : List ε) :
    run next s (es ++ fs) = run next (run next s es) fs := List.foldl_append

/-- `P` holds of the state before, and the event of, every step of the run. -/
def Along (P : σ → ε → Prop) : σ → List ε → Prop
  | _, [] => True
  | s, e :: es => P s e ∧ Along P (next s e) es

instance decidableAlong {P : σ → ε → Prop} [∀ s e, Decidable (P s e)] :
    ∀ s events, Decidable (Along next P s events)
  | _, [] => instDecidableTrue
  | s, e :: es => @instDecidableAnd _ _ _ (decidableAlong (next s e) es)

variable {P : σ → ε → Prop} {s : σ} {events : List ε}

theorem along_append {es fs : List ε} :
    Along next P s (es ++ fs) ↔ Along next P s es ∧ Along next P (run next s es) fs := by
  induction es generalizing s with
  | nil => simp [Along]
  | cons e es ih => simp [Along, ih, and_assoc]

/-- A condition along a run is one on the state that each of its events finds. -/
theorem along_iff :
    Along next P s events ↔
      ∀ before e after, events = before ++ e :: after → P (run next s before) e := by
  constructor
  · rintro h before e after rfl
    exact ((along_append next).mp h).2.1
  · intro h
    induction events generalizing s with
    | nil => trivial
    | cons e es ih =>
      refine ⟨h [] e es rfl, ih ?_⟩
      intro before e' after hes
      exact h (e :: before) e' after (by rw [hes]; rfl)

theorem along_true (s : σ) (events : List ε) : Along next (fun _ _ => True) s events := by
  induction events generalizing s with
  | nil => trivial
  | cons e es ih => exact ⟨trivial, ih _⟩

theorem Along.and_forall {Q : ε → Prop} (h : Along next P s events) (hQ : ∀ e ∈ events, Q e) :
    Along next (fun s e => Q e ∧ P s e) s events := by
  induction events generalizing s with
  | nil => trivial
  | cons e es ih =>
    refine ⟨⟨hQ e (by simp), h.1⟩, ih h.2 ?_⟩
    intro a ha
    exact hQ a (List.mem_cons_of_mem _ ha)

/-- A property that every allowed step keeps holds in every state a run reaches. -/
theorem run_invariant {I : σ → Prop} (step : ∀ s e, I s → P s e → I (next s e)) (start : I s)
    (allowed : Along next P s events) : I (run next s events) := by
  induction events generalizing s with
  | nil => exact start
  | cons e es ih => exact ih (step s e start allowed.1) allowed.2

/-- Two conditions agree along a run where they agree in every state that either of them lets the
run reach. -/
theorem along_congr {Q : σ → ε → Prop} {I : σ → Prop}
    (agree : ∀ s e, I s → (P s e ↔ Q s e)) (step : ∀ s e, I s → P s e → I (next s e))
    (start : I s) : Along next P s events ↔ Along next Q s events := by
  induction events generalizing s with
  | nil => exact Iff.rfl
  | cons e es ih =>
    constructor
    · rintro ⟨he, hes⟩
      exact ⟨(agree s e start).mp he, (ih (step s e start he)).mp hes⟩
    · rintro ⟨he, hes⟩
      have hP := (agree s e start).mpr he
      exact ⟨hP, (ih (step s e start hP)).mpr hes⟩

/-- A condition on one component of a system is one on the component's own run. -/
theorem along_project {τ : Type*} (next' : τ → ε → τ) (f : σ → τ)
    (commutes : ∀ s e, f (next s e) = next' (f s) e) (P : τ → ε → Prop) (s : σ) (events : List ε) :
    Along next (fun s e => P (f s) e) s events ↔ Along next' P (f s) events := by
  induction events generalizing s with
  | nil => exact Iff.rfl
  | cons e es ih => simp only [Along, ih, commutes]

end SqlTide.Runs
