import Mathlib.Data.Nat.Digits.Lemmas
import ValueEngine.Proofs.Number.Decimal

/-! Numerals and the names of indices. Any run of decimal digits is a numeral of the number that
its digits add up to. Leading zeros make a numeral longer and leave its number alone, so every
number has one shortest numeral, and the names of indices are the shortest numerals of the numbers
below the array limit. -/

namespace ValueEngine.Number

/-- A run of decimal digits, the most significant first, and the number that they add up to. -/
structure IsNumeral (cs : List Char) (n : ℕ) : Prop where
  nonempty : cs ≠ []
  digits : ∀ c ∈ cs, '0' ≤ c ∧ c ≤ '9'
  value : Nat.ofDigits 10 (cs.reverse.map fun c => c.toNat - '0'.toNat) = n

/-- No numeral of the number is shorter. -/
structure IsShortestNumeral (cs : List Char) (n : ℕ) : Prop where
  numeral : IsNumeral cs n
  least : ∀ ds, IsNumeral ds n → cs.length ≤ ds.length

variable {n : ℕ} {c : Char} {cs : List Char} {name : String}

section Spelling

theorem isDigit_iff : isDigit c = true ↔ '0' ≤ c ∧ c ≤ '9' := by
  rw [isDigit, decide_eq_true_iff]
  rfl

theorem decimalValue_eq_ofDigits (cs : List Char) :
    decimalValue cs = Nat.ofDigits 10 (cs.reverse.map digitValue) := by
  induction cs using List.reverseRecOn with
  | nil => rfl
  | append_singleton cs c ih =>
    rw [decimalValue_append, ih, List.reverse_concat, List.map_cons, Nat.ofDigits_cons]
    exact Nat.add_comm _ _

theorem isDigit_of_isCanonical (h : isCanonical cs = true) : ∀ c ∈ cs, isDigit c = true := by
  match cs with
  | [c] => simpa [isCanonical] using h
  | c :: d :: ds => simp_all [isCanonical]

theorem IsNumeral.lt (h : IsNumeral cs n) : n < 10 ^ cs.length := by
  have hbound := Nat.ofDigits_lt_base_pow_length (b := 10)
    (l := cs.reverse.map fun c => c.toNat - '0'.toNat) (by decide) ?_
  · rwa [h.value, List.length_map, List.length_reverse] at hbound
  · intro d hd
    obtain ⟨c, hc, rfl⟩ := List.mem_map.mp hd
    exact digitValue_lt (isDigit_iff.mpr (h.digits c (List.mem_reverse.mp hc)))

theorem IsNumeral.tail (h : IsNumeral ('0' :: cs) n) (hcs : cs ≠ []) : IsNumeral cs n := by
  refine ⟨hcs, fun c hc => h.digits c (List.mem_cons_of_mem _ hc), ?_⟩
  have hvalue := h.value
  rw [List.reverse_cons, List.map_append, Nat.ofDigits_append, List.map_singleton, Nat.sub_self,
    Nat.ofDigits_singleton, Nat.mul_zero, Nat.add_zero] at hvalue
  exact hvalue

theorem isNumeral_of_isCanonical (h : isCanonical cs = true) : IsNumeral cs (decimalValue cs) := by
  refine ⟨?_, fun c hc => isDigit_iff.mp (isDigit_of_isCanonical h c hc),
    (decimalValue_eq_ofDigits cs).symm⟩
  rintro rfl
  cases h

/-- The shortest numerals are those without a needless zero in front. -/
theorem IsShortestNumeral.isCanonical (h : IsShortestNumeral cs n) : isCanonical cs = true := by
  have hdigits : ∀ c ∈ cs, isDigit c = true := fun c hc => isDigit_iff.mpr (h.numeral.digits c hc)
  match cs with
  | [] => exact absurd rfl h.numeral.nonempty
  | [c] => exact hdigits c List.mem_cons_self
  | c :: d :: ds =>
    have hc : c ≠ '0' := by
      rintro rfl
      have hshorter := h.least (d :: ds) (h.numeral.tail (List.cons_ne_nil d ds))
      exact absurd hshorter (Nat.not_succ_le_self _)
    simp_all [Number.isCanonical]

/-- Every number has exactly one shortest numeral. -/
theorem isShortestNumeral_iff : IsShortestNumeral cs n ↔ cs = decimal n := by
  constructor
  · intro h
    have hvalue : decimalValue cs = n := (decimalValue_eq_ofDigits cs).trans h.numeral.value
    rw [← hvalue, decimal_decimalValue h.isCanonical]
  · rintro rfl
    have hnumeral := isNumeral_of_isCanonical (isCanonical_decimal n)
    rw [decimalValue_decimal] at hnumeral
    refine ⟨hnumeral, fun ds hds => ?_⟩
    obtain ⟨k, hk⟩ := Nat.exists_eq_add_one.mpr (List.length_pos_iff.mpr hds.nonempty)
    have hbound := hds.lt
    rw [hk] at hbound ⊢
    exact length_decimal_le hbound

end Spelling

section Names

theorem arrayIndex?_eq_some_iff_isShortestNumeral :
    arrayIndex? name = some n ↔ n < maxArrayLength ∧ IsShortestNumeral name.toList n := by
  rw [arrayIndex?_eq_some_iff, isShortestNumeral_iff, decimalText, ← String.toList_inj,
    String.toList_ofList]

/-- A name is refused if whatever it might denote is out of the question. -/
theorem arrayIndex?_eq_none
    (h : ∀ n, IsShortestNumeral name.toList n → maxArrayLength ≤ n) : arrayIndex? name = none := by
  rw [Option.eq_none_iff_forall_ne_some]
  intro n hn
  obtain ⟨hlt, hshortest⟩ := arrayIndex?_eq_some_iff_isShortestNumeral.mp hn
  exact absurd hlt (Nat.not_lt.mpr (h n hshortest))

theorem IsNumeral.unique {m : ℕ} (hm : IsNumeral cs m) (hn : IsNumeral cs n) : m = n :=
  hm.value.symm.trans hn.value

/-- **Indices are named by their shortest numerals.** A name denotes an index exactly if the index
is below the array limit and the name is its shortest numeral. So every index has one name and
different names denote different indices; a name with a character other than the ten digits, one
with a zero before other characters, a numeral at or past the limit and the empty name denote
none. -/
theorem index_names_are_shortest_numerals :
    (∀ name n, arrayIndex? name = some n ↔
        n < maxArrayLength ∧ IsShortestNumeral name.toList n) ∧
      (∀ n < maxArrayLength, ∃! name, arrayIndex? name = some n) ∧
      (∀ name name' n n', arrayIndex? name = some n → arrayIndex? name' = some n' →
        name ≠ name' → n ≠ n') ∧
      (∀ name, (∃ c ∈ name.toList, ¬('0' ≤ c ∧ c ≤ '9')) → arrayIndex? name = none) ∧
      (∀ cs, cs ≠ [] → arrayIndex? (String.ofList ('0' :: cs)) = none) ∧
      (∀ name n, IsNumeral name.toList n → maxArrayLength ≤ n → arrayIndex? name = none) ∧
      arrayIndex? "" = none := by
  have hunique : ∀ {name name' n}, arrayIndex? name = some n → arrayIndex? name' = some n →
      name = name' := fun h h' =>
    (arrayIndex?_eq_some_iff.mp h).2.trans (arrayIndex?_eq_some_iff.mp h').2.symm
  refine ⟨fun _ _ => arrayIndex?_eq_some_iff_isShortestNumeral, fun n hn => ?_, ?_, ?_, ?_, ?_, ?_⟩
  · exact ⟨decimalText n, arrayIndex?_decimalText hn, fun name h =>
      hunique h (arrayIndex?_decimalText hn)⟩
  · rintro name name' n _ h h' hne rfl
    exact hne (hunique h h')
  · rintro name ⟨c, hc, hdigit⟩
    exact arrayIndex?_eq_none fun n h => absurd (h.numeral.digits c hc) hdigit
  · intro cs hcs
    refine arrayIndex?_eq_none fun n h => ?_
    rw [String.toList_ofList] at h
    exact absurd (h.least cs (h.numeral.tail hcs)) (Nat.not_succ_le_self _)
  · intro name n hname hn
    exact arrayIndex?_eq_none fun m h => hn.trans_eq (hname.unique h.numeral)
  · exact arrayIndex?_eq_none fun n h => absurd rfl h.numeral.nonempty

/-- The last name of ten digits, the first numeral past the limit and one past 32 bits; a zero
too many, a sign and a digit of another script. -/
theorem index_names_at_the_limit :
    arrayIndex? "1073741822" = some 1073741822 ∧ arrayIndex? "1073741823" = none ∧
      arrayIndex? "4294967296" = none ∧ arrayIndex? "00" = none ∧ arrayIndex? "+1" = none ∧
      arrayIndex? "٣" = none := by
  obtain ⟨hiff, -, -, hdigit, hzero, hlimit, -⟩ := index_names_are_shortest_numerals
  have hlast : IsShortestNumeral "1073741822".toList 1073741822 :=
    isShortestNumeral_iff.mpr (by decide +kernel)
  have hfirst : IsShortestNumeral "1073741823".toList 1073741823 :=
    isShortestNumeral_iff.mpr (by decide +kernel)
  have hlong : IsShortestNumeral "4294967296".toList 4294967296 :=
    isShortestNumeral_iff.mpr (by decide +kernel)
  exact ⟨(hiff _ _).mpr ⟨by decide, hlast⟩, hlimit _ _ hfirst.numeral (by decide),
    hlimit _ _ hlong.numeral (by decide), hzero ['0'] (List.cons_ne_nil _ _),
    hdigit _ ⟨'+', by decide, by decide⟩, hdigit _ ⟨'٣', by decide, by decide⟩⟩

end Names

end ValueEngine.Number
