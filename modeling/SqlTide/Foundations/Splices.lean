import Mathlib.Data.List.Basic

/-!
# Splices

Ranges of a text are replaced by other texts. Where the ranges are in order and in the text,
replacing them from the left with a cursor and from the right in place is the same.
-/

namespace SqlTide.Foundations

open List

/-- What a range is replaced by. -/
structure Splice (α : Type*) where
  start : ℕ
  stop : ℕ
  insert : List α

namespace Splice

variable {α β : Type*} {text : List α} {cursor length : ℕ} {splice : Splice α}
  {splices : List (Splice α)}

/-- From the cursor on the ranges follow each other, in a text of this length. -/
def InOrder (length : ℕ) : ℕ → List (Splice α) → Prop
  | cursor, [] => cursor ≤ length
  | cursor, splice :: splices =>
    cursor ≤ splice.start ∧ splice.start ≤ splice.stop ∧ InOrder length splice.stop splices

/-- The text from the cursor on, with the ranges replaced from the left. -/
def forward (text : List α) : ℕ → List (Splice α) → List α
  | cursor, [] => text.drop cursor
  | cursor, splice :: splices =>
    (text.take splice.start).drop cursor ++ splice.insert ++ forward text splice.stop splices

/-- The text with one range replaced. -/
def apply (splice : Splice α) (text : List α) : List α :=
  text.take splice.start ++ splice.insert ++ text.drop splice.stop

/-- The text with the ranges replaced, the last one first. -/
def backward (text : List α) (splices : List (Splice α)) : List α :=
  splices.reverse.foldl (fun text splice => splice.apply text) text

/-- The parts of the text between the ranges, from the cursor on. -/
def gaps (text : List α) : ℕ → List (Splice α) → List (List α)
  | cursor, [] => [text.drop cursor]
  | cursor, splice :: splices =>
    (text.take splice.start).drop cursor :: gaps text splice.stop splices

/-- The texts of the ranges. -/
def taken (text : List α) (splices : List (Splice α)) : List (List α) :=
  splices.map fun splice => (text.take splice.stop).drop splice.start

/-- Gaps with other texts between them. -/
def interleave : List (List β) → List (List β) → List β
  | [], _ => []
  | gap :: gaps, [] => gap ++ gaps.flatten
  | gap :: gaps, insert :: inserts => gap ++ insert ++ interleave gaps inserts

theorem InOrder.cursor_le (h : InOrder length cursor splices) : cursor ≤ length := by
  induction splices generalizing cursor with
  | nil => exact h
  | cons splice splices ih =>
    obtain ⟨hstart, hstop, hrest⟩ := h
    exact Nat.le_trans (Nat.le_trans hstart hstop) (ih hrest)

theorem InOrder.le_start (h : InOrder length cursor splices) :
    ∀ splice ∈ splices, cursor ≤ splice.start := by
  induction splices generalizing cursor with
  | nil => simp
  | cons splice splices ih =>
    obtain ⟨hcursor, hle, hrest⟩ := h
    refine forall_mem_cons.mpr ⟨hcursor, fun other hother => ?_⟩
    exact Nat.le_trans (Nat.le_trans hcursor hle) (ih hrest other hother)

theorem length_gaps (text : List α) (cursor : ℕ) (splices : List (Splice α)) :
    (gaps text cursor splices).length = splices.length + 1 := by
  induction splices generalizing cursor with
  | nil => rfl
  | cons splice splices ih => rw [gaps, length_cons, ih, length_cons]

theorem forward_eq_interleave (text : List α) (cursor : ℕ) (splices : List (Splice α)) :
    forward text cursor splices = interleave (gaps text cursor splices)
      (splices.map (·.insert)) := by
  induction splices generalizing cursor with
  | nil => simp [forward, gaps, interleave]
  | cons splice splices ih => rw [forward, gaps, map_cons, interleave, ih]

theorem range_append_drop {start stop : ℕ} (hle : start ≤ stop) (hstop : stop ≤ text.length) :
    (text.take stop).drop start ++ text.drop stop = text.drop start := by
  conv_rhs => rw [← take_append_drop stop text]
  rw [drop_append_of_le_length]
  rw [length_take, Nat.min_eq_left hstop]
  exact hle

theorem interleave_taken (h : InOrder text.length cursor splices) :
    interleave (gaps text cursor splices) (taken text splices) = text.drop cursor := by
  induction splices generalizing cursor with
  | nil => simp [gaps, taken, interleave]
  | cons splice splices ih =>
    obtain ⟨hstart, hstop, hrest⟩ := h
    have htaken := ih hrest
    rw [taken] at htaken
    rw [gaps, taken, map_cons, interleave, htaken, append_assoc, range_append_drop hstop
      hrest.cursor_le, range_append_drop hstart (Nat.le_trans hstop hrest.cursor_le)]

theorem backward_cons (text : List α) :
    backward text (splice :: splices) = splice.apply (backward text splices) := by
  rw [backward, reverse_cons, foldl_append]
  rfl

theorem backward_eq (h : InOrder text.length cursor splices) :
    backward text splices = text.take cursor ++ forward text cursor splices := by
  induction splices generalizing cursor with
  | nil => simp [backward, forward]
  | cons splice splices ih =>
    obtain ⟨hstart, hstop, hrest⟩ := h
    have hlength : (text.take splice.stop).length = splice.stop := by
      rw [length_take, Nat.min_eq_left hrest.cursor_le]
    have hbefore : (text.take splice.stop ++ forward text splice.stop splices).take splice.start =
        text.take splice.start := by
      rw [take_append_of_le_length (by rw [hlength]; exact hstop), take_take, Nat.min_eq_left hstop]
    have hafter : (text.take splice.stop ++ forward text splice.stop splices).drop splice.stop =
        forward text splice.stop splices := by
      have hdrop := @List.drop_left _ (text.take splice.stop) (forward text splice.stop splices)
      rwa [hlength] at hdrop
    have hsplit : text.take cursor ++ (text.take splice.start).drop cursor =
        text.take splice.start := by
      have htake : text.take cursor = (text.take splice.start).take cursor := by
        rw [take_take, Nat.min_eq_left hstart]
      rw [htake, take_append_drop]
    rw [backward_cons, ih hrest, apply, hbefore, hafter, ← hsplit, forward]
    simp only [append_assoc]

/-- From the left or from the right, the same text. -/
theorem backward_eq_forward (h : InOrder text.length 0 splices) :
    backward text splices = forward text 0 splices := by
  rw [backward_eq h, take_zero, nil_append]

end Splice

end SqlTide.Foundations
