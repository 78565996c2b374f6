import SqlTide.Foundations.Json

/-!
# Integers as decimal texts

The text of an integer, as databases and programs print it, and how it is read back.
-/

namespace SqlTide.Foundations

open Json

def decimalText (n : Int) : String := String.ofList (renderInt n)

/-- A minus sign and digits, or digits alone. -/
def readDecimal (text : String) : Option Int :=
  match text.toList with
  | [] => none
  | '-' :: digits =>
    if digits ≠ [] ∧ digits.all Char.isDigit then
      some (-(Nat.ofDigitChars 10 digits 0 : Int))
    else none
  | digits =>
    if digits.all Char.isDigit then some (Nat.ofDigitChars 10 digits 0 : Int) else none

theorem all_isDigit_toDigits (n : ℕ) : (Nat.toDigits 10 n).all Char.isDigit = true :=
  List.all_eq_true.mpr fun _ hc => Nat.isDigit_of_mem_toDigits (by norm_num) (by norm_num) hc

@[simp] theorem readDecimal_decimalText (n : Int) : readDecimal (decimalText n) = some n := by
  cases n with
  | ofNat n =>
    obtain ⟨d, ds, hds, hd⟩ := exists_toDigits n
    have hminus : d ≠ '-' := by
      rintro rfl
      cases hd
    have hall := all_isDigit_toDigits n
    have hback : Nat.ofDigitChars 10 (Nat.toDigits 10 n) 0 = n := Nat.ofDigitChars_ten_toDigits
    rw [hds] at hall hback
    simp only [readDecimal, decimalText, renderInt, String.toList_ofList, hds]
    split
    · next h => cases h
    · next h => exact absurd (List.cons.inj h).1 hminus
    · rw [if_pos hall, hback]
      rfl
  | negSucc n =>
    have hback : Nat.ofDigitChars 10 (Nat.toDigits 10 (n + 1)) 0 = n + 1 :=
      Nat.ofDigitChars_ten_toDigits
    simp only [readDecimal, decimalText, renderInt, String.toList_ofList]
    rw [if_pos ⟨Nat.toDigits_ne_nil, all_isDigit_toDigits (n + 1)⟩, hback]
    rfl

theorem decimalText_injective : Function.Injective decimalText := by
  intro n m h
  have hread := congrArg readDecimal h
  rw [readDecimal_decimalText, readDecimal_decimalText] at hread
  exact Option.some.inj hread

theorem decimalText_ne_empty (n : Int) : decimalText n ≠ "" := by
  intro h
  have hread := readDecimal_decimalText n
  rw [h] at hread
  cases hread

end SqlTide.Foundations
