import Mathlib
import ValueEngine.Number.Rounding
import ValueEngine.Proofs.Number.IntegerPart

/-! The rational number that a double denotes. A double is read as a natural number exactly
if it denotes one, and below the precision of the format a natural number has one double
only, apart from the two zeros. -/

namespace ValueEngine.Number

/-- A finite double denotes a rational number. -/
def Denotes (x : Float) (q : ℚ) : Prop :=
  ∃ s m e, binary x = .finite s m e ∧ ((signed s m : ℤ) : ℚ) * 2 ^ e = q

variable {x : Float} {n : ℕ}

theorem cast_signed (s : Bool) (m : ℕ) : ((signed s m : ℤ) : ℚ) = if s then -(m : ℚ) else m := by
  cases s <;> simp [signed]

section Natural

/-- There is no fraction if the integer part is all of it. -/
theorem fraction_eq_zero_iff (m : ℕ) (e : ℤ) :
    (0 ≤ e || m % (1 <<< (-e).toNat) == 0) = true ↔ (wholePart m e : ℚ) = m * 2 ^ e := by
  rw [Bool.or_eq_true, decide_eq_true_iff, beq_iff_eq, wholePart]
  by_cases he : 0 ≤ e
  · obtain ⟨k, rfl⟩ := Int.eq_ofNat_of_zero_le he
    rw [if_pos he, Int.toNat_natCast, Nat.shiftLeft_eq m, zpow_natCast]
    exact iff_of_true (Or.inl he) (by push_cast; rfl)
  · obtain ⟨k, rfl⟩ : ∃ k : ℕ, e = -k := ⟨(-e).toNat, by omega⟩
    have hpow : (2 : ℚ) ^ k ≠ 0 := by positivity
    rw [if_neg he, neg_neg, Int.toNat_natCast, Nat.one_shiftLeft, Nat.shiftRight_eq_div_pow, zpow_neg,
      zpow_natCast, ← div_eq_mul_inv, eq_div_iff hpow, ← Nat.dvd_iff_mod_eq_zero]
    constructor
    · rintro (h | h)
      · exact absurd h he
      · exact_mod_cast Nat.div_mul_cancel h
    · intro h
      right
      exact ⟨m / 2 ^ k, by rw [Nat.mul_comm]; exact_mod_cast h.symm⟩

theorem denotes_iff {s : Bool} {m : ℕ} {e : ℤ} (hx : binary x = .finite s m e) (q : ℚ) :
    Denotes x q ↔ (if s then -(m : ℚ) else m) * 2 ^ e = q := by
  rw [← cast_signed, Denotes, hx]
  constructor
  · rintro ⟨_, _, _, h, hq⟩
    cases h
    exact hq
  · exact fun hq => ⟨s, m, e, rfl, hq⟩

theorem natural?_eq_some_iff : natural? x = some n ↔ Denotes x n := by
  cases hx : binary x with
  | nan => simp [natural?, isWhole, Denotes, hx]
  | infinite s => simp [natural?, isWhole, Denotes, hx]
  | finite s m e =>
    have hwhole : isWhole x = true ↔ (wholePart m e : ℚ) = m * 2 ^ e := by
      rw [isWhole, hx]
      exact fraction_eq_zero_iff m e
    have htruncate : truncate x = signed s (wholePart m e) := by rw [truncate, hx]
    rw [denotes_iff hx, natural?]
    simp only [hwhole, htruncate]
    constructor
    · intro h
      split_ifs at h with hread
      obtain ⟨hexact, hpos⟩ := hread
      have hn : signed s (wholePart m e) = n := by
        have htoNat := Option.some.inj h
        omega
      have hcast : ((signed s (wholePart m e) : ℤ) : ℚ) = n := by rw [hn]; rfl
      rw [cast_signed, hexact] at hcast
      rw [← hcast]
      split_ifs <;> ring
    · intro h
      have hpos : (0 : ℚ) ≤ m * 2 ^ e := by positivity
      have hn : (0 : ℚ) ≤ n := Nat.cast_nonneg n
      -- A negative double only denotes a natural number if it is zero.
      have hmagnitude : (m : ℚ) * 2 ^ e = n ∧ (s = true → n = 0) := by
        cases s with
        | true =>
          simp only [if_true, neg_mul] at h
          refine ⟨by linarith, fun _ => ?_⟩
          exact_mod_cast le_antisymm (by linarith) hn
        | false => exact ⟨h, nofun⟩
      have hfloor : wholePart m e = n := by
        rw [wholePart_eq_floor, hmagnitude.1, Nat.floor_natCast]
      have hsigned : signed s n = n := by
        cases s with
        | true => rw [hmagnitude.2 rfl]; rfl
        | false => rfl
      rw [hfloor, hsigned, if_pos ⟨hmagnitude.1.symm, Int.natCast_nonneg n⟩, Int.toNat_natCast]

end Natural

/-! ### Bits and mantissas -/

section Bits

theorem ofMagnitude_magnitude (x : Float) : ofMagnitude (negative x) (magnitude x) = x := by
  have hbits : x.toBits.toNat < 2 * signBit := x.toBits.toNat_lt
  have hall : (if negative x then signBit + magnitude x else magnitude x) = x.toBits.toNat := by
    have hdivision := Nat.div_add_mod x.toBits.toNat signBit
    simp only [negative, magnitude, decide_eq_true_iff]
    split_ifs with hsign
    · have hquotient : x.toBits.toNat / signBit = 1 :=
        Nat.div_eq_of_lt_le (by omega) (by omega)
      rw [hquotient] at hdivision
      omega
    · rw [Nat.mod_eq_of_lt (Nat.not_le.mp hsign)]
  rw [ofMagnitude, hall, UInt64.ofNat_toNat, Float.ofBits_toBits]

/-- The magnitude of a finite double by its mantissa and exponent. -/
theorem magnitude_of_binary {s : Bool} {m : ℕ} {e : ℤ} (h : binary x = .finite s m e) :
    s = negative x ∧ magnitude x = (e + 1074).toNat * hiddenBit + m ∧ m < 2 * hiddenBit ∧
      -1074 ≤ e ∧ (hiddenBit ≤ m ∨ e = -1074) := by
  have hdivision := Nat.div_add_mod (magnitude x) hiddenBit
  have hfraction : magnitude x % hiddenBit < hiddenBit := Nat.mod_lt _ (by decide)
  rw [binary] at h
  generalize magnitude x / hiddenBit = field at *
  split_ifs at h with hspecial hfraction0 hfield
  · cases h
    rw [hfield] at hdivision
    refine ⟨rfl, ?_, by omega, le_refl _, Or.inr rfl⟩
    rw [neg_add_cancel, Int.toNat_zero]
    omega
  · cases h
    refine ⟨rfl, ?_, by omega, by omega, Or.inl (by omega)⟩
    have hexponent : ((field : ℤ) - 1075 + 1074).toNat = field - 1 := by omega
    obtain ⟨k, rfl⟩ := Nat.exists_eq_succ_of_ne_zero hfield
    rw [hexponent, Nat.succ_sub_one]
    rw [Nat.mul_succ] at hdivision
    rw [Nat.mul_comm k]
    omega

/-- Mantissas of full length with the same value are the same, exponents included. -/
theorem mantissa_unique {m m' : ℕ} {e e' : ℤ} (hm : m < 2 * hiddenBit) (hm' : m' < 2 * hiddenBit)
    (hfull : hiddenBit ≤ m ∨ e ≤ e') (hfull' : hiddenBit ≤ m')
    (h : (m : ℚ) * 2 ^ e = m' * 2 ^ e') : m = m' ∧ e = e' := by
  -- The longer exponent would outweigh any mantissa.
  have hless : ∀ {a b : ℕ} {i j : ℤ}, a < 2 * hiddenBit → hiddenBit ≤ b → i < j →
      (a : ℚ) * 2 ^ i < b * 2 ^ j := by
    intro a b i j ha hb hij
    have ha' : (a : ℚ) < 2 * hiddenBit := by exact_mod_cast ha
    have hb' : (hiddenBit : ℚ) ≤ b := by exact_mod_cast hb
    have hi : (0 : ℚ) < 2 ^ i := by positivity
    have hpow : (2 : ℚ) ^ i * 2 ≤ 2 ^ j := by
      rw [← zpow_add_one₀ two_ne_zero]
      exact zpow_le_zpow_right₀ one_le_two hij
    calc (a : ℚ) * 2 ^ i < 2 * hiddenBit * 2 ^ i := by gcongr
      _ = hiddenBit * (2 ^ i * 2) := by ring
      _ ≤ b * 2 ^ j := by gcongr
  obtain hlt | rfl | hgt := lt_trichotomy e e'
  · exact absurd h (hless hm hfull' hlt).ne
  · have hpow : (2 : ℚ) ^ e ≠ 0 := by positivity
    exact ⟨by exact_mod_cast mul_right_cancel₀ hpow h, rfl⟩
  · exact absurd h (hless hm' (hfull.resolve_right (by omega)) hgt).ne'

theorem bitLength_bounds (hn : n ≠ 0) :
    0 < bitLength n ∧ 2 ^ (bitLength n - 1) ≤ n ∧ n < 2 ^ bitLength n := by
  rw [bitLength, if_neg hn, Nat.add_sub_cancel]
  exact ⟨Nat.succ_pos _, Nat.log2_self_le hn, Nat.lt_log2_self⟩

theorem bitLength_le_of_lt {k : ℕ} (h : n < 2 ^ k) : bitLength n ≤ k := by
  by_cases hn : n = 0
  · rw [hn]
    exact Nat.zero_le k
  · obtain ⟨-, hlow, -⟩ := bitLength_bounds hn
    have hlt := (Nat.pow_lt_pow_iff_right Nat.one_lt_two).mp (hlow.trans_lt h)
    omega

/-- A natural number below the precision is its own rounding, with a mantissa of full length. -/
theorem doubleMagnitude_of_lt (hn : n ≠ 0) (hlt : n < 2 * hiddenBit) :
    ∃ (m : ℕ) (e : ℤ), doubleMagnitude n 0 = (e + 1074).toNat * hiddenBit + m ∧
      hiddenBit ≤ m ∧ m < 2 * hiddenBit ∧ -1074 ≤ e ∧ (m : ℚ) * 2 ^ e = n := by
  obtain ⟨hpos, hlow, hhigh⟩ := bitLength_bounds hn
  have hprecision : 2 * hiddenBit = 2 ^ 53 := by decide
  have hlength : bitLength n ≤ 53 := bitLength_le_of_lt (hprecision ▸ hlt)
  obtain ⟨k, hk⟩ : ∃ k, bitLength n + k = 53 := ⟨53 - bitLength n, by omega⟩
  have hround : Format.double.round n 0 = (n * 2 ^ k, -(k : ℤ)) := by
    rw [Format.round]
    have hplace : max Format.double.leastExponent
        ((0 : ℤ) + bitLength n - Format.double.digits) = -(k : ℤ) := by
      simp only [Format.double]
      omega
    rw [hplace, if_pos (by omega), Int.zero_sub, neg_neg, Int.toNat_natCast, Nat.shiftLeft_eq]
  have hfull : hiddenBit ≤ n * 2 ^ k := by
    have hsplit : hiddenBit = 2 ^ (bitLength n - 1) * 2 ^ k := by
      rw [← pow_add]
      have hexponent : bitLength n - 1 + k = 52 := by omega
      rw [hexponent]
      decide
    rw [hsplit]
    exact Nat.mul_le_mul_right _ hlow
  have hshort : n * 2 ^ k < 2 * hiddenBit := by
    have hsplit : 2 * hiddenBit = 2 ^ bitLength n * 2 ^ k := by
      rw [← pow_add, hk]
      decide
    rw [hsplit]
    exact Nat.mul_lt_mul_of_pos_right hhigh (Nat.two_pow_pos k)
  have hnonzero : n * 2 ^ k ≠ 0 := Nat.mul_ne_zero hn (Nat.two_pow_pos k).ne'
  refine ⟨n * 2 ^ k, -(k : ℤ), ?_, hfull, hshort, by omega, ?_⟩
  · have hfits : Format.double.overflows (n * 2 ^ k) (-(k : ℤ)) = false := by
      have hlength' : bitLength (n * 2 ^ k) ≤ 53 := bitLength_le_of_lt (hprecision ▸ hshort)
      have hbound : ¬ (1024 : ℤ) < -(k : ℤ) + bitLength (n * 2 ^ k) := by omega
      rw [Format.overflows, decide_eq_false_iff_not]
      exact fun h => hbound h.2
    rw [doubleMagnitude, hround]
    dsimp only
    rw [if_neg hnonzero, hfits]
    rfl
  · rw [zpow_neg, zpow_natCast]
    push_cast
    field_simp

theorem magnitude_eq_of_value {s : Bool} {m : ℕ} {e : ℤ} (hx : binary x = .finite s m e)
    (hn : n ≠ 0) (hlt : n < 2 * hiddenBit) (h : (m : ℚ) * 2 ^ e = n) :
    magnitude x = doubleMagnitude n 0 := by
  obtain ⟨-, hmagnitude, hm, -, hfull⟩ := magnitude_of_binary hx
  obtain ⟨m', e', hround, hfull', hm', he', h'⟩ := doubleMagnitude_of_lt hn hlt
  obtain ⟨rfl, rfl⟩ := mantissa_unique hm hm' (hfull.imp_right fun he => he ▸ he') hfull'
    (h.trans h'.symm)
  rw [hmagnitude, hround]

end Bits

/-- A natural number below the precision has one double, apart from the negative zero. -/
theorem ofNat_of_denotes (h : Denotes x n) (hlt : n < 2 * hiddenBit) :
    ofNat n = if isZero x then ofNat 0 else x := by
  obtain ⟨s, m, e, hx, hq⟩ := h
  obtain ⟨hs, hmagnitude, -, -, hfull⟩ := magnitude_of_binary hx
  rw [cast_signed] at hq
  have hpow : (2 : ℚ) ^ e ≠ 0 := by positivity
  by_cases hn : n = 0
  · subst hn
    have hm : m = 0 := by
      have hzero : (m : ℚ) * 2 ^ e = 0 := by
        split_ifs at hq
        · rw [neg_mul, neg_eq_iff_eq_neg] at hq
          simpa using hq
        · simpa using hq
      exact_mod_cast (mul_eq_zero.mp hzero).resolve_right hpow
    have he : e = -1074 := hfull.resolve_left (by rw [hm]; decide)
    have hzero : isZero x = true := by
      rw [isZero, hmagnitude, hm, he]
      rfl
    rw [if_pos hzero]
  · have hpos : (0 : ℚ) < n := by exact_mod_cast Nat.pos_of_ne_zero hn
    have hnonneg : (0 : ℚ) ≤ m * 2 ^ e := by positivity
    cases s with
    | true =>
      simp only [if_true] at hq
      linarith
    | false =>
      have hvalue : (m : ℚ) * 2 ^ e = n := hq
      have hround := magnitude_eq_of_value hx hn hlt hvalue
      have hnonzero : isZero x = false := by
        obtain ⟨m', e', hround', hfull', -⟩ := doubleMagnitude_of_lt hn hlt
        have hbit : 0 < hiddenBit := by decide
        rw [isZero, hround, hround', decide_eq_false_iff_not]
        omega
      rw [hnonzero, if_neg Bool.false_ne_true, ofNat, ofScaled, ← hround, hs]
      exact ofMagnitude_magnitude x

/-! ### Doubles of natural numbers -/

section Naturals

/-- Bits other than those of NaN are the bits of a double. -/
theorem toBits_ofBits {b : UInt64} (h : b.toNat % signBit ≤ infiniteMagnitude) :
    (Float.ofBits b).toBits = b := by
  have hvalid : Float.Model.Format.binary64.Valid b.toBitVec := by
    constructor
    intro hexponent hmantissa
    have hfraction : b.toNat % hiddenBit ≠ 0 := by
      intro hzero
      apply hmantissa
      apply BitVec.eq_of_toNat_eq
      simpa [Float.Model.UnpackedFloat.unpackMantissa, hiddenBit] using hzero
    have hfield : b.toNat / 2 ^ 52 % 2048 = 2047 := by
      simpa [Float.Model.UnpackedFloat.unpackExponent, Nat.shiftRight_eq_div_pow] using
        congrArg BitVec.toNat hexponent
    simp only [signBit, infiniteMagnitude, hiddenBit] at h hfraction
    omega
  exact congrArg Float.toBits (Float.ofBits_toBits ⟨⟨b, hvalid⟩⟩)

theorem magnitude_ofMagnitude {bits : ℕ} (h : bits ≤ infiniteMagnitude) :
    magnitude (ofMagnitude false bits) = bits ∧ negative (ofMagnitude false bits) = false := by
  have hbound : infiniteMagnitude < signBit := by decide
  have hsize : signBit < UInt64.size := by decide
  have hbits : (UInt64.ofNat bits).toNat = bits := UInt64.toNat_ofNat_of_lt' (by omega)
  have hmod : bits % signBit = bits := Nat.mod_eq_of_lt (by omega)
  have hread : (ofMagnitude false bits).toBits = .ofNat bits :=
    toBits_ofBits (by rw [if_neg Bool.false_ne_true, hbits, hmod]; exact h)
  rw [magnitude, negative, hread, hbits, hmod, decide_eq_false_iff_not]
  exact ⟨rfl, by omega⟩

/-- A mantissa of full length and an exponent are read back from the bits made of them. -/
theorem binary_ofMagnitude {k m : ℕ} (hk : k + 2 ≤ 2047) (hfull : hiddenBit ≤ m)
    (hm : m < 2 * hiddenBit) :
    binary (ofMagnitude false (k * hiddenBit + m)) = .finite false m (k - 1074) := by
  have hpos : 0 < hiddenBit := by decide
  have hbits : k * hiddenBit + m = hiddenBit * (k + 1) + (m - hiddenBit) := by
    rw [Nat.mul_comm, Nat.mul_add_one]
    omega
  have hfinite : k * hiddenBit + m ≤ infiniteMagnitude := by
    calc k * hiddenBit + m ≤ k * hiddenBit + 2 * hiddenBit := by omega
      _ = (k + 2) * hiddenBit := (Nat.add_mul ..).symm
      _ ≤ infiniteMagnitude := Nat.mul_le_mul_right _ hk
  obtain ⟨hmagnitude, hnegative⟩ := magnitude_ofMagnitude hfinite
  have hfield : magnitude (ofMagnitude false (k * hiddenBit + m)) / hiddenBit = k + 1 := by
    rw [hmagnitude, hbits, Nat.mul_add_div hpos, Nat.div_eq_of_lt (by omega), Nat.add_zero]
  have hfraction : magnitude (ofMagnitude false (k * hiddenBit + m)) % hiddenBit = m - hiddenBit := by
    rw [hmagnitude, hbits, Nat.mul_add_mod, Nat.mod_eq_of_lt (by omega)]
  have hmantissa : hiddenBit + (m - hiddenBit) = m := by omega
  have hexponent : ((k + 1 : ℕ) : ℤ) - 1075 = k - 1074 := by omega
  rw [binary]
  simp only [hfield, hfraction, hnegative]
  rw [if_neg (by omega), if_neg (by omega), hmantissa, hexponent]

/-- A natural number below the precision has a mantissa of full length only at an exponent
that is not positive. -/
theorem exponent_nonpos {m : ℕ} {e : ℤ} (hfull : hiddenBit ≤ m) (hlt : n < 2 * hiddenBit)
    (h : (m : ℚ) * 2 ^ e = n) : e ≤ 0 := by
  by_contra hpos
  have hpow : (2 : ℚ) ≤ 2 ^ e := by
    calc (2 : ℚ) = 2 ^ (1 : ℤ) := (zpow_one 2).symm
      _ ≤ 2 ^ e := zpow_le_zpow_right₀ (by norm_num) (by omega)
  have hlow : (hiddenBit : ℚ) * 2 ≤ n := by
    rw [← h]
    gcongr
  have hlow' : hiddenBit * 2 ≤ n := by exact_mod_cast hlow
  omega

/-- A natural number below the precision is denoted by its double. -/
theorem denotes_ofNat (hlt : n < 2 * hiddenBit) : Denotes (ofNat n) n := by
  by_cases hn : n = 0
  · have hzero : binary (ofNat 0) = .finite false 0 (-1074) := by decide
    subst hn
    exact ⟨_, _, _, hzero, by simp [signed]⟩
  · obtain ⟨m, e, hround, hfull, hm, he, hvalue⟩ := doubleMagnitude_of_lt hn hlt
    have hsmall := exponent_nonpos hfull hlt hvalue
    obtain ⟨k, rfl⟩ : ∃ k : ℕ, e = k - 1074 := ⟨(e + 1074).toNat, by omega⟩
    have hk : ((k : ℤ) - 1074 + 1074).toNat = k := by omega
    refine ⟨false, m, k - 1074, ?_, hvalue⟩
    rw [ofNat, ofScaled, hround, hk]
    exact binary_ofMagnitude (by omega) hfull hm

end Naturals

end ValueEngine.Number
