import Mathlib.Data.Nat.Notation
import Mathlib.Tactic.SplitIfs
import ValueEngine.Number.Binary

/-! Comparing doubles by rank. Doubles are equal if they have the same rank, which leaves
only the sign of zero open, and NaN is what has none. Whatever reads no more of a double
than its integer part cannot tell doubles of one rank apart. -/

namespace ValueEngine.Number

variable {x y : Float}

theorem rank?_eq_none_iff : rank? x = none ↔ isNaN x = true := by
  rw [rank?]
  split_ifs with h <;> simp [h]

/-- Exchanging the operands turns the order around. -/
theorem order?_swap (x y : Float) : order? y x = (order? x y).map Ordering.swap := by
  simp only [order?]
  cases rank? x <;> cases rank? y <;> simp [Int.compare_swap]

theorem equal_iff : equal x y = true ↔ ∃ q, rank? x = some q ∧ rank? y = some q := by
  simp only [equal, order?]
  cases rank? x <;> cases rank? y <;> simp
  exact eq_comm

theorem rank?_eq_iff : rank? x = rank? y ↔ (isNaN x && isNaN y || equal x y) = true := by
  rw [Bool.or_eq_true, Bool.and_eq_true, ← rank?_eq_none_iff, ← rank?_eq_none_iff, equal_iff]
  cases rank? x <;> cases rank? y <;> simp [eq_comm]

section Bits

theorem sign_eq_of_signed {s t : Bool} {n : ℕ} (hn : n ≠ 0) (h : signed s n = signed t n) :
    s = t := by
  cases s <;> cases t <;> simp [signed] at h ⊢ <;> omega

/-- The bits of a double are its sign and its magnitude. -/
theorem toBits_eq_of_sign_of_magnitude (hsign : negative x = negative y)
    (hmagnitude : magnitude x = magnitude y) : x.toBits = y.toBits := by
  have hx := x.toBits.toNat_lt
  have hy := y.toBits.toNat_lt
  rw [negative, negative, decide_eq_decide] at hsign
  rw [magnitude, magnitude] at hmagnitude
  apply UInt64.toNat.inj
  simp only [signBit] at hsign hmagnitude
  omega

/-- Doubles of one rank are both NaN, or both zero, or have the same bits. -/
theorem toBits_eq_of_rank? (h : rank? x = rank? y) :
    (isNaN x = true ∧ isNaN y = true) ∨ (isZero x = true ∧ isZero y = true) ∨
      x.toBits = y.toBits := by
  cases hx : rank? x with
  | none => exact .inl ⟨rank?_eq_none_iff.mp hx, rank?_eq_none_iff.mp (h ▸ hx)⟩
  | some q =>
    have hsigned : ∀ z, rank? z = some q → signed (negative z) (magnitude z) = q := by
      intro z hz
      rw [rank?] at hz
      split_ifs at hz
      exact Option.some.inj hz
    have hx' := hsigned x hx
    have hy' := hsigned y (h ▸ hx)
    have hmagnitude : magnitude x = magnitude y := by
      simp only [signed] at hx' hy'
      split_ifs at hx' hy' <;> omega
    -- The sign is only lost where it does not matter.
    by_cases hzero : magnitude x = 0
    · exact .inr (.inl ⟨decide_eq_true hzero, decide_eq_true (hmagnitude ▸ hzero)⟩)
    · rw [← hy', hmagnitude] at hx'
      have hsign := sign_eq_of_signed (hmagnitude ▸ hzero) hx'
      exact .inr (.inr (toBits_eq_of_sign_of_magnitude hsign hmagnitude))

end Bits

section IntegerPart

theorem binary_of_isNaN (h : isNaN x = true) : binary x = .nan := by
  have hmagnitude : magnitude x < signBit := Nat.mod_lt _ (by decide)
  have hbig : infiniteMagnitude < magnitude x := of_decide_eq_true h
  have hsign : signBit = 2048 * hiddenBit := by decide
  have hinfinite : infiniteMagnitude = 2047 * hiddenBit := rfl
  have hfield : magnitude x / hiddenBit = 2047 := Nat.div_eq_of_lt_le (by omega) (by omega)
  have hdivision := Nat.div_add_mod (magnitude x) hiddenBit
  rw [hfield] at hdivision
  have hfraction : magnitude x % hiddenBit ≠ 0 := by omega
  simp only [binary, hfield, if_true, hfraction, if_false]

theorem truncate_of_isZero (h : isZero x = true) : truncate x = 0 := by
  have hmagnitude : magnitude x = 0 := of_decide_eq_true h
  have hbinary : binary x = .finite (negative x) 0 (-1074) := by
    rw [binary, hmagnitude]
    rfl
  rw [truncate, hbinary]
  cases negative x <;> rfl

theorem exists_truncate_eq (x : Float) : ∃ n, truncate x = signed (negative x) n := by
  rw [truncate, binary]
  split_ifs
  · exact ⟨_, rfl⟩
  · exact ⟨0, by cases negative x <;> rfl⟩
  · exact ⟨_, rfl⟩
  · exact ⟨_, rfl⟩

theorem truncate_nonneg (h : atLeastZero x = true) : 0 ≤ truncate x := by
  rw [atLeastZero, rank?] at h
  split_ifs at h with hnan
  obtain ⟨n, hn⟩ := exists_truncate_eq x
  cases hs : negative x with
  | false => simp [hn, hs, signed]
  | true =>
    -- A double with its sign set that is at least zero is a zero.
    have hzero : isZero x = true := by simpa [hs, signed, isZero] using h
    exact Int.le_of_eq (truncate_of_isZero hzero).symm

theorem truncate_nonpos (h : atLeastZero x = false) : truncate x ≤ 0 := by
  rw [atLeastZero, rank?] at h
  split_ifs at h with hnan
  · simp [truncate, binary_of_isNaN hnan]
  · obtain ⟨n, hn⟩ := exists_truncate_eq x
    cases hs : negative x with
    | false => simp [hs, signed] at h
    | true => simp [hn, hs, signed]

/-- Doubles of one rank have the same integer part. -/
theorem truncate_eq_of_rank? (h : rank? x = rank? y) : truncate x = truncate y := by
  obtain ⟨hx, hy⟩ | ⟨hx, hy⟩ | hbits := toBits_eq_of_rank? h
  · rw [truncate, truncate, binary_of_isNaN hx, binary_of_isNaN hy]
  · rw [truncate_of_isZero hx, truncate_of_isZero hy]
  · have hmagnitude : magnitude x = magnitude y := by rw [magnitude, magnitude, hbits]
    have hnegative : negative x = negative y := by
      rw [negative, negative, decide_eq_decide, hbits]
    rw [truncate, truncate, binary, binary, hmagnitude, hnegative]

theorem toUInt8_eq_of_rank? (h : rank? x = rank? y) : toUInt8 x = toUInt8 y := by
  rw [toUInt8, toUInt8, clamp, clamp, truncate_eq_of_rank? h]

theorem toUInt64_eq_of_rank? (h : rank? x = rank? y) : toUInt64 x = toUInt64 y := by
  rw [toUInt64, toUInt64, clamp, clamp, truncate_eq_of_rank? h]

end IntegerPart

end ValueEngine.Number
