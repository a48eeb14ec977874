import Mathlib.Algebra.Order.Group.Nat
import Mathlib.Data.List.Induction
import Mathlib.Data.Nat.Notation
import Mathlib.Tactic.SplitIfs
import ValueEngine.Number.Decimal

/-! Canonical numerals. The numeral of a number is the one canonical run of digits that has its
value, so that an index below the array limit has exactly one name. -/

namespace ValueEngine.Number

variable {n : ℕ} {c : Char} {cs : List Char}

section Digits

theorem toNat_digit (h : n < 10) : (digit n).toNat = 48 + n := by
  have hall : ∀ m < 10, (digit m).toNat = 48 + m := by decide
  exact hall n h

theorem isDigit_digit (h : n < 10) : isDigit (digit n) = true := by
  rw [isDigit, toNat_digit h, decide_eq_true_iff]
  omega

theorem digitValue_digit (h : n < 10) : digitValue (digit n) = n := by
  rw [digitValue, toNat_digit h]
  omega

theorem digitValue_lt (h : isDigit c = true) : digitValue c < 10 := by
  rw [isDigit, decide_eq_true_iff] at h
  rw [digitValue]
  omega

theorem digit_digitValue (h : isDigit c = true) : digit (digitValue c) = c := by
  apply Char.toNat_inj.mp
  rw [toNat_digit (digitValue_lt h), digitValue]
  rw [isDigit, decide_eq_true_iff] at h
  omega

end Digits

section Numerals

theorem decimal_of_lt (h : n < 10) : decimal n = [digit n] := by
  rw [decimal, if_pos h]

theorem decimal_of_le (h : 10 ≤ n) : decimal n = decimal (n / 10) ++ [digit (n % 10)] := by
  rw [decimal, if_neg (Nat.not_lt.mpr h)]

theorem decimalValue_append (cs : List Char) (c : Char) :
    decimalValue (cs ++ [c]) = 10 * decimalValue cs + digitValue c := by
  simp [decimalValue]

theorem decimalValue_decimal (n : ℕ) : decimalValue (decimal n) = n := by
  induction n using decimal.induct with
  | case1 n h => rw [decimal_of_lt h]; simp [decimalValue, digitValue_digit h]
  | case2 n h ih =>
    rw [decimal_of_le (Nat.not_lt.mp h), decimalValue_append, ih,
      digitValue_digit (Nat.mod_lt n (by decide))]
    omega

theorem decimal_ne_nil (n : ℕ) : decimal n ≠ [] := by
  rw [decimal]
  split_ifs <;> simp

theorem length_decimal_le {k : ℕ} (h : n < 10 ^ (k + 1)) : (decimal n).length ≤ k + 1 := by
  induction k generalizing n with
  | zero => rw [decimal_of_lt (by simpa using h), List.length_singleton]
  | succ k ih =>
    by_cases hn : n < 10
    · rw [decimal_of_lt hn, List.length_singleton]
      omega
    · have hshort : (decimal (n / 10)).length ≤ k + 1 := ih (by rw [pow_succ] at h; omega)
      rw [decimal_of_le (Nat.not_lt.mp hn), List.length_append, List.length_singleton]
      omega

/-- A numeral goes on after a canonical one other than zero. -/
theorem isCanonical_append (h : cs ≠ []) :
    isCanonical (cs ++ [c]) = true ↔ isCanonical cs = true ∧ cs ≠ ['0'] ∧ isDigit c = true := by
  cases cs with
  | nil => exact absurd rfl h
  | cons a ds =>
    cases ds with
    | nil => simp [isCanonical, and_comm, and_left_comm, and_assoc]
    | cons b ds => simp [isCanonical, and_assoc]

theorem isCanonical_decimal (n : ℕ) : isCanonical (decimal n) = true := by
  induction n using decimal.induct with
  | case1 n h =>
    rw [decimal_of_lt h]
    exact isDigit_digit h
  | case2 n h ih =>
    rw [decimal_of_le (Nat.not_lt.mp h), isCanonical_append (decimal_ne_nil _)]
    refine ⟨ih, ?_, isDigit_digit (Nat.mod_lt n (by decide))⟩
    intro hzero
    have hvalue : n / 10 = 0 := by
      rw [← decimalValue_decimal (n / 10), hzero]
      decide
    omega

/-- A canonical run of digits is the numeral of its value. -/
theorem decimal_decimalValue (h : isCanonical cs = true) : decimal (decimalValue cs) = cs := by
  induction cs using List.reverseRecOn with
  | nil => cases h
  | append_singleton cs c ih =>
    rw [decimalValue_append]
    by_cases hcs : cs = []
    · subst hcs
      have hc : isDigit c = true := h
      have hvalue : 10 * decimalValue [] + digitValue c = digitValue c := Nat.zero_add _
      rw [hvalue, decimal_of_lt (digitValue_lt hc), digit_digitValue hc]
      rfl
    · obtain ⟨hcanonical, hzero, hc⟩ := (isCanonical_append hcs).mp h
      have hfirst := ih hcanonical
      have hpositive : decimalValue cs ≠ 0 := by
        intro hvalue
        rw [hvalue, decimal_of_lt (by decide)] at hfirst
        exact hzero hfirst.symm
      have hlast := digitValue_lt hc
      have hquotient : (10 * decimalValue cs + digitValue c) / 10 = decimalValue cs := by omega
      have hremainder : (10 * decimalValue cs + digitValue c) % 10 = digitValue c := by omega
      rw [decimal_of_le (by omega), hquotient, hremainder, hfirst, digit_digitValue hc]

end Numerals

/-- The index names are the numerals of the indices below the array limit. -/
theorem arrayIndex?_eq_some_iff {name : String} :
    arrayIndex? name = some n ↔ n < maxArrayLength ∧ name = decimalText n := by
  simp only [arrayIndex?]
  constructor
  · intro h
    split_ifs at h with hname
    obtain ⟨hcanonical, -, hlt⟩ := hname
    rw [Option.some.injEq] at h
    subst h
    refine ⟨hlt, ?_⟩
    rw [decimalText, decimal_decimalValue hcanonical, String.ofList_toList]
  · rintro ⟨hlt, rfl⟩
    have hlength : (decimal n).length ≤ 10 := by
      have hbound : maxArrayLength < 10 ^ 10 := by decide
      exact length_decimal_le (hlt.trans hbound)
    rw [decimalText, String.toList_ofList, decimalValue_decimal, if_pos]
    exact ⟨isCanonical_decimal n, hlength, hlt⟩

theorem arrayIndex?_decimalText (h : n < maxArrayLength) : arrayIndex? (decimalText n) = some n :=
  arrayIndex?_eq_some_iff.mpr ⟨h, rfl⟩

end ValueEngine.Number
