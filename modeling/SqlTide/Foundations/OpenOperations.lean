import Mathlib.Data.List.Basic
import Mathlib.Logic.Function.Basic
import Mathlib.Tactic

/-!
# The latest operation still open in a log

A log records when operations with a key begin and end. The latest open one is found by a scan from
the newest entry back that counts, for each key, the endings not yet taken by a beginning. What the
scan finds is stated by counting alone, and so is what a scan over the newest part of the log
misses.
-/

namespace SqlTide.Foundations

open List

/-- What an entry says about the operations of a log. -/
inductive Mark (κ : Type*) where
  | opens (key : κ)
  | unkeyed
  | closes (key : κ)
  | plain
  deriving DecidableEq

section Scan

variable {α κ : Type*} [DecidableEq κ] (mark : α → Mark κ)

/-- `pending` counts the endings seen that no beginning has taken. -/
def scanOpen : List α → (κ → ℕ) → Option α
  | [], _ => none
  | e :: older, pending =>
    match mark e with
    | .closes key => scanOpen older (Function.update pending key (pending key + 1))
    | .opens key =>
      if pending key = 0 then some e
      else scanOpen older (Function.update pending key (pending key - 1))
    | .unkeyed => some e
    | .plain => scanOpen older pending

def latestOpen (log : List α) : Option α := scanOpen mark log.reverse fun _ => 0

def openings (key : κ) (log : List α) : ℕ := log.countP (mark · = .opens key)

def closings (key : κ) (log : List α) : ℕ := log.countP (mark · = .closes key)

theorem openings_cons (key : κ) (e : α) (log : List α) :
    openings mark key (e :: log) = openings mark key log + if mark e =
      .opens key then 1 else 0 := by
  simp [openings, countP_cons]

theorem closings_cons (key : κ) (e : α) (log : List α) :
    closings mark key (e :: log) = closings mark key log + if mark e =
      .closes key then 1 else 0 := by
  simp [closings, countP_cons]

/-- The entries after a beginning hold no ending of its key that is left over for it. -/
def Unanswered (e : α) (later : List α) : Prop :=
  match mark e with
  | .opens key => closings mark key later ≤ openings mark key later
  | .unkeyed => True
  | _ => False

instance (e : α) (later : List α) : Decidable (Unanswered mark e later) := by
  unfold Unanswered
  cases mark e <;> infer_instance

/-- A beginning in a part of the log is unanswered, with `later` the entries after that part. -/
def OpensIn : List α → List α → Prop
  | [], _ => False
  | e :: rest, later => Unanswered mark e (rest ++ later) ∨ OpensIn rest later

instance decidableOpensIn : ∀ part later, Decidable (OpensIn mark part later)
  | [], _ => instDecidableFalse
  | _ :: rest, later => @instDecidableOr _ _ _ (decidableOpensIn rest later)

theorem opensIn_append {part rest later : List α} :
    OpensIn mark (part ++ rest) later ↔
      OpensIn mark part (rest ++ later) ∨ OpensIn mark rest later := by
  induction part with
  | nil => simp [OpensIn]
  | cons e part ih => simp only [cons_append, OpensIn, ih, append_assoc, or_assoc]

theorem not_opensIn_of_plain {part later : List α} (h : ∀ e ∈ part, mark e = .plain) :
    ¬ OpensIn mark part later := by
  induction part with
  | nil => exact id
  | cons e part ih =>
    obtain ⟨he, hpart⟩ := forall_mem_cons.mp h
    simp [OpensIn, Unanswered, he, ih hpart]

variable {older : List α} {pending : κ → ℕ} {e : α}

theorem scanOpen_append_of_eq_some {newer : List α} (h : scanOpen mark newer pending = some e) :
    scanOpen mark (newer ++ older) pending = some e := by
  induction newer generalizing pending with
  | nil => cases h
  | cons a newer ih =>
    rw [cons_append, scanOpen]
    rw [scanOpen] at h
    cases ha : mark a with
    | closes key =>
      simp only [ha] at h ⊢
      exact ih h
    | opens key =>
      simp only [ha] at h ⊢
      split_ifs at h ⊢ with hpending
      · exact h
      · exact ih h
    | unkeyed =>
      simp only [ha] at h ⊢
      exact h
    | plain =>
      simp only [ha] at h ⊢
      exact ih h

/-- While nothing is found, `pending` is what the endings exceed the beginnings by. -/
theorem scanOpen_eq_none_iff (seen : List α)
    (hpending : ∀ key, pending key + openings mark key seen = closings mark key seen) :
    scanOpen mark older pending = none ↔ ¬ OpensIn mark older.reverse seen := by
  induction older generalizing seen pending with
  | nil => simp [scanOpen, OpensIn]
  | cons e older ih =>
    have hsplit : OpensIn mark (e :: older).reverse seen ↔
        OpensIn mark older.reverse (e :: seen) ∨ Unanswered mark e seen := by
      rw [reverse_cons, opensIn_append]
      simp [OpensIn]
    rw [hsplit, not_or, scanOpen]
    cases he : mark e with
    | closes key =>
      have hunanswered : ¬ Unanswered mark e seen := by simp [Unanswered, he]
      have hnext : ∀ key', Function.update pending key (pending key + 1) key' +
          openings mark key' (e :: seen) = closings mark key' (e :: seen) := by
        intro key'
        have h := hpending key'
        rw [openings_cons, closings_cons, he]
        by_cases hkey : key' = key
        · subst hkey
          simp only [Function.update_self, reduceCtorEq, if_false, if_true]
          omega
        · simp only [Function.update_of_ne hkey, Mark.closes.injEq, Ne.symm hkey, reduceCtorEq,
            if_false]
          omega
      simp only [ih _ hnext, hunanswered, not_false_eq_true, and_true]
    | opens key =>
      have hunanswered : Unanswered mark e seen ↔ pending key = 0 := by
        have h := hpending key
        simp only [Unanswered, he]
        omega
      by_cases hzero : pending key = 0
      · simp [hzero, hunanswered.mpr hzero]
      · have hnext : ∀ key', Function.update pending key (pending key - 1) key' +
            openings mark key' (e :: seen) = closings mark key' (e :: seen) := by
          intro key'
          have h := hpending key'
          rw [openings_cons, closings_cons, he]
          by_cases hkey : key' = key
          · subst hkey
            simp only [Function.update_self, reduceCtorEq, if_false, if_true]
            omega
          · simp only [Function.update_of_ne hkey, Mark.opens.injEq, Ne.symm hkey, reduceCtorEq,
              if_false]
            omega
        simp only [hunanswered, hzero, not_false_eq_true, and_true, if_false]
        exact ih _ hnext
    | unkeyed => simp [Unanswered, he]
    | plain =>
      have hunanswered : ¬ Unanswered mark e seen := by simp [Unanswered, he]
      have hnext : ∀ key', pending key' + openings mark key' (e :: seen) =
          closings mark key' (e :: seen) := by
        intro key'
        simpa [openings_cons, closings_cons, he] using hpending key'
      simp only [ih _ hnext, hunanswered, not_false_eq_true, and_true]

theorem latestOpen_eq_none_iff {log : List α} :
    latestOpen mark log = none ↔ ¬ OpensIn mark log [] := by
  rw [latestOpen, scanOpen_eq_none_iff mark [] (by simp [openings, closings]), reverse_reverse]

theorem mem_of_scanOpen_eq_some (h : scanOpen mark older pending = some e) :
    e ∈ older ∧ (mark e = .unkeyed ∨ ∃ key, mark e = .opens key) := by
  induction older generalizing pending with
  | nil => cases h
  | cons a older ih =>
    rw [scanOpen] at h
    cases ha : mark a with
    | closes key =>
      simp only [ha] at h
      exact ⟨mem_cons_of_mem _ (ih h).1, (ih h).2⟩
    | opens key =>
      simp only [ha] at h
      split_ifs at h
      · cases h
        exact ⟨mem_cons_self, .inr ⟨key, ha⟩⟩
      · exact ⟨mem_cons_of_mem _ (ih h).1, (ih h).2⟩
    | unkeyed =>
      simp only [ha, Option.some.injEq] at h
      subst h
      exact ⟨mem_cons_self, .inl ha⟩
    | plain =>
      simp only [ha] at h
      exact ⟨mem_cons_of_mem _ (ih h).1, (ih h).2⟩

/-- What the newest part of a log finds is the latest of the whole log, unless it finds nothing. -/
theorem latestOpen_append_of_eq_some {old recent : List α}
    (h : latestOpen mark recent = some e) : latestOpen mark (old ++ recent) = some e := by
  rw [latestOpen, reverse_append]
  exact scanOpen_append_of_eq_some mark h

/-- Dropping the old part of a log loses its latest open operation exactly where the old part
holds an open one and the rest holds none. -/
theorem latestOpen_append_eq_iff {β : Type*} (old recent : List α) (f : α → Option β)
    (hf : ∀ e ∈ old ++ recent, mark e = .unkeyed ∨ (∃ key, mark e = .opens key) → f e ≠ none) :
    (latestOpen mark (old ++ recent)).bind f = (latestOpen mark recent).bind f ↔
      (OpensIn mark old recent → OpensIn mark recent []) := by
  have hwhole : OpensIn mark (old ++ recent) [] ↔
      OpensIn mark old recent ∨ OpensIn mark recent [] := by
    rw [opensIn_append, append_nil]
  cases hrecent : latestOpen mark recent with
  | some e =>
    have hopen : OpensIn mark recent [] := by
      by_contra hnone
      rw [(latestOpen_eq_none_iff mark).mpr hnone] at hrecent
      cases hrecent
    simp [latestOpen_append_of_eq_some mark hrecent, hopen]
  | none =>
    have hclosed : ¬ OpensIn mark recent [] := (latestOpen_eq_none_iff mark).mp hrecent
    have hnone : latestOpen mark (old ++ recent) = none ↔ ¬ OpensIn mark old recent := by
      rw [latestOpen_eq_none_iff, hwhole]
      tauto
    simp only [Option.bind_none, hclosed, imp_false, ← hnone]
    constructor
    · intro h
      cases hfound : latestOpen mark (old ++ recent) with
      | none => rfl
      | some e =>
        obtain ⟨hmem, hmark⟩ := mem_of_scanOpen_eq_some mark hfound
        rw [hfound, Option.bind_some] at h
        exact absurd h (hf e (mem_reverse.mp hmem) hmark)
    · intro h
      rw [h, Option.bind_none]

theorem latestOpen_append_eq_iff' (old recent : List α) :
    latestOpen mark (old ++ recent) = latestOpen mark recent ↔
      (OpensIn mark old recent → OpensIn mark recent []) := by
  simpa using latestOpen_append_eq_iff mark old recent some (by simp)

end Scan

end SqlTide.Foundations
