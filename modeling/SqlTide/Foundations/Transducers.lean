import Mathlib.Data.List.Basic

/-!
# Transducers

A transducer reads its input from left to right and writes any number of symbols at each step.
-/

namespace SqlTide.Foundations

structure Transducer (σ α β : Type*) where
  step : σ → α → List β × σ

namespace Transducer

variable {σ α β : Type*} (transducer : Transducer σ α β)

/-- What is written, and the state at the end. -/
def run (state : σ) : List α → List β × σ
  | [] => ([], state)
  | a :: rest =>
    ((transducer.step state a).1 ++ (run (transducer.step state a).2 rest).1,
      (run (transducer.step state a).2 rest).2)

@[simp] theorem run_nil (state : σ) : transducer.run state [] = ([], state) := rfl

theorem run_cons (state : σ) (a : α) (rest : List α) :
    transducer.run state (a :: rest) =
      ((transducer.step state a).1 ++ (transducer.run (transducer.step state a).2 rest).1,
        (transducer.run (transducer.step state a).2 rest).2) := rfl

theorem run_append (state : σ) (before after : List α) :
    transducer.run state (before ++ after) =
      ((transducer.run state before).1 ++ (transducer.run (transducer.run state before).2 after).1,
        (transducer.run (transducer.run state before).2 after).2) := by
  induction before generalizing state with
  | nil => simp
  | cons a before ih => rw [List.cons_append, run_cons, run_cons, ih, List.append_assoc]

end Transducer

end SqlTide.Foundations
