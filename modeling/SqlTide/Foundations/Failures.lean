import Mathlib.Tactic

/-!
# Programs that can fail

How a success and a failure of a program in `Except` come about from its parts,
and the two inductions over a loop that stops at the first failure.
-/

namespace SqlTide.Foundations

variable {ε α β : Type} {x : Except ε α}

variable {f : α → Except ε β} {e : ε} {step : β → α → Except ε β} {items xs : List α} {start : β}
  {ys : List β}

theorem bind_eq_ok {b : β} : x >>= f = .ok b ↔ ∃ a, x = .ok a ∧ f a = .ok b := by
  cases x <;> simp [bind, Except.bind]

theorem bind_eq_error : x >>= f = .error e ↔ x = .error e ∨ ∃ a, x = .ok a ∧ f a = .error e := by
  cases x <;> simp [bind, Except.bind]

theorem map_eq_ok {f : α → β} {b : β} : x.map f = .ok b ↔ ∃ a, x = .ok a ∧ f a = b := by
  cases x <;> simp [Except.map]

theorem map_eq_error {f : α → β} : x.map f = .error e ↔ x = .error e := by
  cases x <;> simp [Except.map]

theorem mapError_eq_ok {ε' : Type} {f : ε → ε'} {a : α} : x.mapError f = .ok a ↔ x = .ok a := by
  cases x <;> simp [Except.mapError]

theorem eq_ok_get (h : x.toOption.isSome = true) : x = .ok (x.toOption.get h) := by
  cases x with
  | error e => cases h
  | ok a => rfl

theorem foldlM_invariant {I : β → Prop}
    (hstep : ∀ a ∈ items, ∀ b b', step b a = .ok b' → I b → I b') {result : β}
    (hstart : I start) (h : items.foldlM step start = .ok result) : I result := by
  induction items generalizing start with
  | nil =>
    simp only [List.foldlM_nil, pure, Except.pure, Except.ok.injEq] at h
    exact h ▸ hstart
  | cons a items ih =>
    rw [List.foldlM_cons, bind_eq_ok] at h
    obtain ⟨b, hb, hrest⟩ := h
    apply ih
    · intro a' ha'
      exact hstep a' (List.mem_cons_of_mem _ ha')
    · exact hstep a (by simp) start b hb hstart
    · exact hrest

/-- The invariant of a loop may speak of the items that are done. -/
theorem foldlM_invariant_done {I : List α → β → Prop}
    (hstep : ∀ done a b b', step b a = .ok b' → I done b → I (done ++ [a]) b') {result : β}
    (hstart : I [] start) (h : items.foldlM step start = .ok result) : I items result := by
  suffices ∀ done rest b, I done b → rest.foldlM step b = .ok result → I (done ++ rest) result from
    this [] items start hstart h
  intro done rest
  induction rest generalizing done with
  | nil =>
    intro b hb h
    cases h
    simpa using hb
  | cons a rest ih =>
    intro b hb h
    rw [List.foldlM_cons, bind_eq_ok] at h
    obtain ⟨b', hb', hrest⟩ := h
    have hnext := ih (done ++ [a]) b' (hstep done a b b' hb' hb) hrest
    rwa [List.append_assoc] at hnext

theorem foldlM_eq_ok_foldl {f : β → α → β} (h : ∀ a ∈ items, ∀ b, step b a = .ok (f b a))
    (start : β) : items.foldlM step start = .ok (items.foldl f start) := by
  induction items generalizing start with
  | nil => rfl
  | cons a items ih =>
    rw [List.foldlM_cons, h a (by simp)]
    exact ih (fun a' ha' => h a' (List.mem_cons_of_mem _ ha')) (f start a)

theorem foldlM_error
    (h : items.foldlM step start = .error e) : ∃ a ∈ items, ∃ b, step b a = .error e := by
  induction items generalizing start with
  | nil => simp [pure, Except.pure] at h
  | cons a items ih =>
    rw [List.foldlM_cons, bind_eq_error] at h
    rcases h with hfirst | ⟨b, -, hrest⟩
    · exact ⟨a, by simp, start, hfirst⟩
    · obtain ⟨a', ha', hfail⟩ := ih hrest
      exact ⟨a', List.mem_cons_of_mem _ ha', hfail⟩

theorem mem_of_mapM_eq_ok (h : xs.mapM f = .ok ys) (y : β) : y ∈ ys ↔ ∃ x ∈ xs, f x = .ok y := by
  induction xs generalizing ys with
  | nil =>
    obtain rfl : [] = ys := by simpa [pure, Except.pure] using h
    simp
  | cons x xs ih =>
    rw [List.mapM_cons] at h
    obtain ⟨z, hz, h⟩ := bind_eq_ok.mp h
    obtain ⟨zs, hzs, h⟩ := bind_eq_ok.mp h
    obtain rfl : z :: zs = ys := by simpa [pure, Except.pure] using h
    simp only [List.mem_cons, ih hzs, exists_eq_or_imp, hz, Except.ok.injEq]
    exact or_congr_left eq_comm

theorem exists_of_mapM_eq_ok
    (h : xs.mapM f = .ok ys) {x : α} (hx : x ∈ xs) : ∃ y ∈ ys, f x = .ok y := by
  induction xs generalizing ys with
  | nil => exact absurd hx List.not_mem_nil
  | cons x' xs ih =>
    rw [List.mapM_cons] at h
    obtain ⟨z, hz, h⟩ := bind_eq_ok.mp h
    obtain ⟨zs, hzs, h⟩ := bind_eq_ok.mp h
    obtain rfl : z :: zs = ys := by simpa [pure, Except.pure] using h
    rcases List.mem_cons.mp hx with rfl | hx
    · exact ⟨z, by simp, hz⟩
    · obtain ⟨y, hy, hfy⟩ := ih hzs hx
      exact ⟨y, List.mem_cons_of_mem _ hy, hfy⟩

theorem forall₂_of_mapM_eq_ok
    (h : xs.mapM f = .ok ys) : List.Forall₂ (fun x y => f x = .ok y) xs ys := by
  induction xs generalizing ys with
  | nil =>
    obtain rfl : [] = ys := by simpa [pure, Except.pure] using h
    exact .nil
  | cons x xs ih =>
    rw [List.mapM_cons] at h
    obtain ⟨y, hy, h⟩ := bind_eq_ok.mp h
    obtain ⟨rest, hrest, h⟩ := bind_eq_ok.mp h
    obtain rfl : y :: rest = ys := by simpa [pure, Except.pure] using h
    exact .cons hy (ih hrest)

theorem exists_mapM_eq_ok (h : ∀ x ∈ xs, ∃ y, f x = .ok y) : ∃ ys, xs.mapM f = .ok ys := by
  induction xs with
  | nil => exact ⟨[], rfl⟩
  | cons x xs ih =>
    obtain ⟨y, hy⟩ := h x (by simp)
    obtain ⟨ys, hys⟩ := ih fun x' hx' => h x' (List.mem_cons_of_mem _ hx')
    refine ⟨y :: ys, ?_⟩
    rw [List.mapM_cons, hy, hys]
    rfl

theorem mapM_error (h : xs.mapM f = .error e) : ∃ x ∈ xs, f x = .error e := by
  induction xs with
  | nil => simp [pure, Except.pure] at h
  | cons x xs ih =>
    rw [List.mapM_cons, bind_eq_error] at h
    rcases h with hfirst | ⟨y, -, hrest⟩
    · exact ⟨x, by simp, hfirst⟩
    · rcases bind_eq_error.mp hrest with hrest | ⟨ys, -, hpure⟩
      · obtain ⟨x', hx', hfail⟩ := ih hrest
        exact ⟨x', List.mem_cons_of_mem _ hx', hfail⟩
      · exact absurd hpure (by simp [pure, Except.pure])

theorem exists_ok_of_forM {f : α → Except ε Unit} {done : Unit}
    (h : xs.forM f = .ok done) {x : α} (hx : x ∈ xs) : ∃ checked, f x = .ok checked := by
  induction xs with
  | nil => cases hx
  | cons y xs ih =>
    rw [List.forM, bind_eq_ok] at h
    obtain ⟨checked, hfirst, hrest⟩ := h
    rcases List.mem_cons.mp hx with rfl | hx
    · exact ⟨checked, hfirst⟩
    · exact ih hrest hx

theorem forM_error {f : α → Except ε Unit}
    (h : xs.forM f = .error e) : ∃ x ∈ xs, f x = .error e := by
  induction xs with
  | nil => simp [pure, Except.pure] at h
  | cons x xs ih =>
    rw [List.forM, bind_eq_error] at h
    rcases h with hfirst | ⟨-, -, hrest⟩
    · exact ⟨x, by simp, hfirst⟩
    · obtain ⟨x', hx', hfail⟩ := ih hrest
      exact ⟨x', List.mem_cons_of_mem _ hx', hfail⟩

theorem mapM_congr {g : α → Except ε β} (h : ∀ x ∈ xs, f x = g x) : xs.mapM f = xs.mapM g := by
  induction xs with
  | nil => rfl
  | cons x xs ih =>
    rw [List.mapM_cons, List.mapM_cons, h x (by simp),
      ih fun y hy => h y (List.mem_cons_of_mem _ hy)]

theorem mapM_eq_ok_map {g : α → β}
    (h : ∀ x ∈ xs, f x = .ok (g x)) : xs.mapM f = .ok (xs.map g) := by
  induction xs with
  | nil => rfl
  | cons x xs ih =>
    rw [List.mapM_cons, h x (by simp), ih fun y hy => h y (List.mem_cons_of_mem _ hy)]
    rfl

end SqlTide.Foundations
