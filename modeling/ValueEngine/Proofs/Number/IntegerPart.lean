import Mathlib.Algebra.Order.Floor.Semifield
import Mathlib.Data.Rat.Floor
import ValueEngine.Number.Binary

/-! The integer part of a double as rational arithmetic. A finite double is a sign with
`mantissa · 2 ^ exponent`, and truncation drops the fraction of that number. -/

namespace ValueEngine.Number

/-- The integer part toward zero of the number that a double denotes. NaN counts as 0
and an infinity as the power of two past every finite double. -/
def integerPart (x : Float) : ℤ :=
  match binary x with
  | .nan => 0
  | .infinite negative => signed negative (1 <<< 1024)
  | .finite negative m e => signed negative ⌊(m : ℚ) * 2 ^ e⌋₊

theorem wholePart_eq_floor (m : ℕ) (e : ℤ) : wholePart m e = ⌊(m : ℚ) * 2 ^ e⌋₊ := by
  unfold wholePart
  split
  · obtain ⟨n, rfl⟩ : ∃ n : ℕ, e = n := ⟨e.toNat, by omega⟩
    have hcast : (m : ℚ) * 2 ^ (n : ℤ) = ((m * 2 ^ n : ℕ) : ℚ) := by
      rw [zpow_natCast]
      push_cast
      rfl
    rw [hcast, Nat.floor_natCast, Int.toNat_natCast, Nat.shiftLeft_eq]
  · obtain ⟨n, rfl⟩ : ∃ n : ℕ, e = -n := ⟨(-e).toNat, by omega⟩
    have hcast : (m : ℚ) * 2 ^ (-n : ℤ) = (m : ℚ) / ((2 ^ n : ℕ) : ℚ) := by
      rw [zpow_neg, zpow_natCast, div_eq_mul_inv]
      push_cast
      rfl
    rw [hcast, Nat.floor_div_eq_div, neg_neg, Int.toNat_natCast, Nat.shiftRight_eq_div_pow]

theorem truncate_eq_integerPart (x : Float) : truncate x = integerPart x := by
  unfold truncate integerPart
  cases binary x with
  | nan => rfl
  | infinite negative => rfl
  | finite negative m e => exact congrArg (signed negative) (wholePart_eq_floor m e)

end ValueEngine.Number
