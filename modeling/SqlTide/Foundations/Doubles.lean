import Mathlib.Order.WithBot
import Mathlib.Tactic

/-!
# Integers as doubles

A double has 53 binary digits and stays below `2 ^ 1024`. An integer is rounded to the nearest
double, half to even; the conversion fails where that is out of range, while a product becomes
infinite there.
-/

namespace SqlTide.Doubles

inductive OverflowError
  | integerTooLarge
  deriving DecidableEq, Repr

/-- The nearest integer of at most 53 binary digits before its trailing zeros. -/
def nearest (n : ℕ) : ℕ :=
  let unit := 2 ^ (n.log2 - 52)
  let quotient := n / unit
  let rest := n % unit
  if unit < 2 * rest ∨ (unit = 2 * rest ∧ quotient % 2 = 1) then
    (quotient + 1) * unit
  else
    quotient * unit

def range : ℕ := 2 ^ 1024

def ofNat (n : ℕ) : Except OverflowError ℕ :=
  if nearest n < range then .ok (nearest n) else .error .integerTooLarge

/-- The product of two finite doubles. -/
def mul (a b : ℕ) : WithTop ℕ :=
  if nearest (a * b) < range then ((nearest (a * b) : ℕ) : WithTop ℕ) else ⊤

/-- Few digits before trailing zeros are kept. -/
theorem nearest_mul_two_pow {m : ℕ} (hm : m < 2 ^ 53) (k : ℕ) :
    nearest (m * 2 ^ k) = m * 2 ^ k := by
  rcases Nat.eq_zero_or_pos m with rfl | hpos
  · simp [nearest]
  have hlog : (m * 2 ^ k).log2 - 52 ≤ k := by
    have hlt : (m * 2 ^ k).log2 < 53 + k := by
      rw [Nat.log2_lt (by positivity), pow_add]
      exact Nat.mul_lt_mul_of_pos_right hm (by positivity)
    omega
  have hdvd : 2 ^ ((m * 2 ^ k).log2 - 52) ∣ m * 2 ^ k := Dvd.dvd.mul_left (pow_dvd_pow 2 hlog) m
  have hrest : m * 2 ^ k % 2 ^ ((m * 2 ^ k).log2 - 52) = 0 := Nat.mod_eq_zero_of_dvd hdvd
  have hunit : 0 < 2 ^ ((m * 2 ^ k).log2 - 52) := by positivity
  unfold nearest
  dsimp only
  rw [hrest, if_neg (by omega), Nat.div_mul_cancel hdvd]

@[simp] theorem nearest_two_pow (k : ℕ) : nearest (2 ^ k) = 2 ^ k := by
  simpa using nearest_mul_two_pow (m := 1) (by norm_num) k

theorem two_pow_lt_range {k : ℕ} : 2 ^ k < range ↔ k < 1024 := by
  rw [range, Nat.pow_lt_pow_iff_right Nat.one_lt_two]

theorem ofNat_two_pow_of_lt {k : ℕ} (hk : k < 1024) : ofNat (2 ^ k) = .ok (2 ^ k) := by
  rw [ofNat, nearest_two_pow, if_pos (two_pow_lt_range.mpr hk)]

theorem ofNat_two_pow_of_le {k : ℕ} (hk : 1024 ≤ k) : ofNat (2 ^ k) = .error .integerTooLarge := by
  rw [ofNat, nearest_two_pow, if_neg (by rw [two_pow_lt_range]; omega)]

/-- Where a product is capped, its overflow to infinity makes no difference. -/
theorem min_mul_two_pow {m cap : ℕ} (hm : m < 2 ^ 53) (hcap : cap < range) (k : ℕ) :
    min (mul m (2 ^ k)) (cap : WithTop ℕ) = ((min (m * 2 ^ k) cap : ℕ) : WithTop ℕ) := by
  rw [mul, nearest_mul_two_pow hm]
  split
  · exact (WithTop.coe_min _ _).symm
  · have hle : cap ≤ m * 2 ^ k := by omega
    rw [min_eq_right le_top, Nat.min_eq_right hle]

end SqlTide.Doubles
