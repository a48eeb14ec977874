import ValueEngine.Proofs.Number.Denotation

/-! Natural numbers beyond the precision of a double. The double of a natural number denotes
the nearest multiple of a power of two that leaves as many bits as a mantissa has, and this is
the number itself exactly if it has no more significant bits. -/

namespace ValueEngine.Number

variable {x : Float} {n d : ℕ}

/-- The number has no more significant bits than the mantissa of a double. -/
def Fits (n : ℕ) : Prop := ∃ m k, m < 2 * hiddenBit ∧ n = m * 2 ^ k

/-- How many of the bits of a number a double has no room for. -/
def excess (n : ℕ) : ℕ := bitLength n - 53

/-- The number that is left of a natural number in a double. -/
def rounded (n : ℕ) : ℕ := nearestQuotient n (2 ^ excess n) * 2 ^ excess n

section Quotient

theorem nearestQuotient_bounds (n d : ℕ) :
    n / d ≤ nearestQuotient n d ∧ nearestQuotient n d ≤ n / d + 1 := by
  rw [nearestQuotient]
  split_ifs
  · exact ⟨Nat.le_succ _, le_refl _⟩
  · exact ⟨le_refl _, Nat.le_succ _⟩

theorem nearestQuotient_of_dvd (hd : 0 < d) (h : d ∣ n) : nearestQuotient n d = n / d := by
  rw [nearestQuotient, Nat.mod_eq_zero_of_dvd h, if_neg (by omega)]

/-- Without the excess bits a number is as long as a mantissa, if there are any. -/
theorem quotient_bounds (n : ℕ) :
    n / 2 ^ excess n < 2 * hiddenBit ∧ (0 < excess n → hiddenBit ≤ n / 2 ^ excess n) := by
  have hprecision : 2 * hiddenBit = 2 ^ 53 := by decide
  by_cases hn : n = 0
  · subst hn
    exact ⟨by decide, by decide⟩
  · obtain ⟨-, hlow, hhigh⟩ := bitLength_bounds hn
    constructor
    · apply Nat.div_lt_of_lt_mul
      rw [hprecision, ← pow_add]
      exact hhigh.trans_le (Nat.pow_le_pow_right two_pos (by rw [excess]; omega))
    · intro hexcess
      rw [Nat.le_div_iff_mul_le (Nat.two_pow_pos _)]
      have hlength : 52 + excess n = bitLength n - 1 := by
        rw [excess] at hexcess ⊢
        omega
      calc hiddenBit * 2 ^ excess n = 2 ^ (52 + excess n) := (pow_add 2 52 (excess n)).symm
        _ ≤ n := hlength ▸ hlow

end Quotient

/-- A number is left as it is exactly if it fits. -/
theorem rounded_eq_self_iff : rounded n = n ↔ Fits n := by
  obtain ⟨hquotient, -⟩ := quotient_bounds n
  obtain ⟨-, hnearest⟩ := nearestQuotient_bounds n (2 ^ excess n)
  constructor
  · intro h
    obtain hlt | heq := (hnearest.trans hquotient).lt_or_eq
    · exact ⟨_, _, hlt, h.symm⟩
    · -- The mantissa has carried into the next power of two.
      refine ⟨hiddenBit, excess n + 1, by decide, ?_⟩
      calc n = 2 * hiddenBit * 2 ^ excess n := by rw [← heq]; exact h.symm
        _ = hiddenBit * 2 ^ (excess n + 1) := by ring
  · rintro ⟨m, j, hm, hn⟩
    have hshort : n < 2 ^ (53 + j) := by
      rw [hn, pow_add]
      exact Nat.mul_lt_mul_of_pos_right hm (Nat.two_pow_pos j)
    have hexcess : excess n ≤ j :=
      Nat.sub_le_of_le_add (Nat.add_comm 53 j ▸ bitLength_le_of_lt hshort)
    have hdvd : 2 ^ excess n ∣ n := (Nat.pow_dvd_pow 2 hexcess).trans (Dvd.intro_left m hn.symm)
    rw [rounded, nearestQuotient_of_dvd (Nat.two_pow_pos _) hdvd, Nat.div_mul_cancel hdvd]

/-- A mantissa that may have carried denotes the same with the exponent that it is given. -/
theorem denotes_ofMagnitude {k m : ℕ} (hk : k + 1077 ≤ 2047) (hfull : hiddenBit ≤ m)
    (hm : m ≤ 2 * hiddenBit) :
    Denotes (ofMagnitude false ((k + 1074) * hiddenBit + m)) (m * 2 ^ k : ℕ) := by
  have hvalue : ∀ m k' : ℕ, (((signed false m : ℤ) : ℚ)) * 2 ^ (((k' + 1074 : ℕ) : ℤ) - 1074) =
      (m * 2 ^ k' : ℕ) := by
    intro m k'
    have hexponent : ((k' + 1074 : ℕ) : ℤ) - 1074 = k' := by omega
    rw [hexponent, zpow_natCast, cast_signed]
    push_cast
    rfl
  obtain hlt | rfl := hm.lt_or_eq
  · exact ⟨_, _, _, binary_ofMagnitude (by omega) hfull hlt, hvalue m k⟩
  · have hcarry : (k + 1074) * hiddenBit + 2 * hiddenBit =
        (k + 1 + 1074) * hiddenBit + hiddenBit := by ring
    have hpower : 2 * hiddenBit * 2 ^ k = hiddenBit * 2 ^ (k + 1) := by ring
    rw [hcarry, hpower]
    exact ⟨_, _, _, binary_ofMagnitude (by omega) (le_refl _) (by decide), hvalue hiddenBit (k + 1)⟩

/-- A number with excess bits is rounded in the place where they begin. -/
theorem round_of_excess (h : 0 < excess n) :
    Format.double.round n 0 = (nearestQuotient n (2 ^ excess n), (excess n : ℤ)) := by
  have hplace : max Format.double.leastExponent
      ((0 : ℤ) + bitLength n - Format.double.digits) = excess n := by
    simp only [Format.double]
    rw [excess] at h ⊢
    omega
  rw [Format.round, hplace, if_neg (by omega), Int.sub_zero, Int.toNat_natCast, Nat.one_shiftLeft]

theorem overflows_eq_false {m k : ℕ} (hm : m ≤ 2 * hiddenBit) (hk : k ≤ 970) :
    Format.double.overflows m k = false := by
  rw [Format.overflows, decide_eq_false_iff_not]
  rintro ⟨-, hbound⟩
  have hlength : bitLength m ≤ 54 := bitLength_le_of_lt (hm.trans_lt (by decide))
  change (1024 : ℤ) < (k : ℤ) + bitLength m at hbound
  omega

/-- The double of a natural number denotes what is left of the number. -/
theorem denotes_rounded (hn : bitLength n ≤ 1000) : Denotes (ofNat n) (rounded n) := by
  obtain ⟨hshort, hlong⟩ := quotient_bounds n
  obtain hzero | hexcess := Nat.eq_zero_or_pos (excess n)
  · rw [hzero, pow_zero, Nat.div_one] at hshort
    have hfits : Fits n := ⟨n, 0, hshort, (Nat.mul_one n).symm⟩
    rw [rounded_eq_self_iff.mpr hfits]
    exact denotes_ofNat hshort
  · obtain ⟨hlow, hhigh⟩ := nearestQuotient_bounds n (2 ^ excess n)
    have hfull := (hlong hexcess).trans hlow
    have hm := hhigh.trans hshort
    have hsize : excess n ≤ 947 := Nat.sub_le_sub_right hn 53
    have hnonzero : nearestQuotient n (2 ^ excess n) ≠ 0 :=
      Nat.ne_of_gt (lt_of_lt_of_le (by decide) hfull)
    have hexponent : ((excess n : ℤ) + 1074).toNat = excess n + 1074 := by omega
    rw [rounded, ofNat, ofScaled, doubleMagnitude, round_of_excess hexcess]
    dsimp only
    rw [if_neg hnonzero, overflows_eq_false hm (by omega), if_neg Bool.false_ne_true, hexponent]
    exact denotes_ofMagnitude (by omega) hfull hm

/-- A double is read as the natural number that it denotes, held below the largest one. -/
theorem toUInt64_of_denotes (h : Denotes x n) :
    toUInt64 x = .ofNat (min 0xffffffffffffffff n) := by
  have hread := natural?_eq_some_iff.mpr h
  rw [natural?] at hread
  split_ifs at hread with hwhole
  have htruncate : truncate x = n := by
    have htoNat := Option.some.inj hread
    omega
  have hclamp : clamp 0 0xffffffffffffffff x = (min 0xffffffffffffffff n : ℕ) := by
    rw [clamp, htruncate]
    omega
  rw [toUInt64, hclamp, Int.toNat_natCast]

end ValueEngine.Number
