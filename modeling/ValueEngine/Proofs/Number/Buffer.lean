import ValueEngine.Number.Buffer
import ValueEngine.Proofs.Number.Numerals
import ValueEngine.Proofs.Storage.Bounds

/-! Writing integers into buffers. The digits are laid down from the last one on, as many as there
is room for, and reversing them puts them in order behind the sign: in all, the buffer starts with
the sign and the last digits that fit. A buffer that is long enough starts with the text of the
integer and is otherwise as it was. No cell outside a buffer is ever touched: a run in which such
a cell is a failure comes to the same. -/

namespace ValueEngine.Number

open Storage

/-- The decimal text of an integer: a minus sign if it is negative, and the numeral of its
magnitude. -/
def integerText (v : ℤ) : List Char :=
  if v < 0 then '-' :: decimal v.natAbs else decimal v.natAbs

/-- A text of ASCII characters as it stands in a buffer. -/
def cells (text : List Char) : List UInt8 := text.map Char.toUInt8

variable {n i left right : ℕ} {v : ℤ} {buf : Array UInt8}

@[simp] theorem length_cells (text : List Char) : (cells text).length = text.length :=
  List.length_map ..

section Contents

/-- The digits of a number as they are laid down, the last one first. -/
def digitCells (n : ℕ) : List UInt8 := (cells (decimal n)).reverse

def signCells (v : ℤ) : List UInt8 := if v < 0 then cells ['-'] else []

/-- What a buffer starts with afterwards: the sign and the last digits for which there is room. -/
def written (buf : Array UInt8) (v : ℤ) : List UInt8 :=
  signCells v ++ ((digitCells v.natAbs).take (buf.size - (signCells v).length)).reverse

theorem toUInt8_digit (h : n < 10) : (digit n).toUInt8 = .ofNat (48 + n) := by
  have hall : ∀ m < 10, (digit m).toUInt8 = .ofNat (48 + m) := by decide
  exact hall n h

theorem digitCells_of_lt (h : n < 10) : digitCells n = [.ofNat (48 + n % 10)] := by
  rw [digitCells, decimal_of_lt h, Nat.mod_eq_of_lt h, ← toUInt8_digit h]
  rfl

theorem digitCells_of_le (h : 10 ≤ n) :
    digitCells n = .ofNat (48 + n % 10) :: digitCells (n / 10) := by
  rw [digitCells, decimal_of_le h, cells, List.map_append, List.reverse_append,
    ← toUInt8_digit (Nat.mod_lt n (by decide))]
  rfl

/-- As many digits are laid down as there is room for. -/
theorem layDigits_eq (buf : Array UInt8) (i n : ℕ) :
    layDigits buf i n = (i + ((digitCells n).take (buf.size - i)).length,
      write buf i ((digitCells n).take (buf.size - i))) := by
  fun_induction layDigits buf i n with
  | case1 buf i n hi buf' hn =>
    have hroom : buf.size - i = buf.size - (i + 1) + 1 := by omega
    rw [digitCells_of_lt hn, hroom, List.take_succ_cons, List.take_nil]
    rfl
  | case2 buf i n hi buf' hn ih =>
    have hroom : buf.size - i = buf'.size - (i + 1) + 1 := by
      rw [Array.size_setIfInBounds]
      omega
    rw [ih, digitCells_of_le (Nat.not_lt.mp hn), hroom, List.take_succ_cons, List.length_cons,
      Nat.add_right_comm]
    rfl
  | case3 buf i n hi =>
    rw [Nat.sub_eq_zero_of_le (Nat.not_lt.mp hi)]
    rfl

theorem stop_layDigits_le (h : i ≤ buf.size) : (layDigits buf i n).1 ≤ buf.size := by
  rw [layDigits_eq]
  have hlaid := List.length_take_le (buf.size - i) (digitCells n)
  omega

/-- Reversing puts the digits that have been laid down in order. -/
theorem reverse_layDigits (h : i ≤ buf.size) :
    reverse (layDigits buf i n).2 i (layDigits buf i n).1 =
      write buf i ((digitCells n).take (buf.size - i)).reverse := by
  have hstop := stop_layDigits_le (n := n) h
  rw [layDigits_eq] at hstop ⊢
  exact reverse_write buf i _ hstop

theorem writeInteger_eq (h : buf.size ≠ 0) (v : ℤ) :
    writeInteger buf v = ((written buf v).length, write buf 0 (written buf v)) := by
  have hpos : 1 ≤ buf.size := Nat.one_le_iff_ne_zero.mpr h
  rw [writeInteger, if_neg h, written, signCells]
  dsimp only
  by_cases hv : v < 0
  · have hpos' : 1 ≤ (buf.setIfInBounds 0 45).size := by rwa [Array.size_setIfInBounds]
    rw [if_pos hv, if_pos hv, if_pos hv, reverse_layDigits hpos', layDigits_eq,
      Array.size_setIfInBounds, List.length_append, List.length_reverse]
    rfl
  · rw [if_neg hv, if_neg hv, if_neg hv, reverse_layDigits (Nat.zero_le _), layDigits_eq,
      List.length_append, List.length_reverse]
    rfl

theorem integerText_ne_nil (v : ℤ) : integerText v ≠ [] := by
  rw [integerText]
  split_ifs
  · exact List.cons_ne_nil _ _
  · exact decimal_ne_nil _

theorem cells_integerText (v : ℤ) :
    cells (integerText v) = signCells v ++ (digitCells v.natAbs).reverse := by
  rw [integerText, signCells, digitCells, List.reverse_reverse]
  split_ifs <;> rfl

/-- Where there is room for the text, all of it is written. -/
theorem written_eq (h : (integerText v).length ≤ buf.size) :
    written buf v = cells (integerText v) := by
  rw [← length_cells, cells_integerText, List.length_append, List.length_reverse] at h
  rw [cells_integerText, written, List.take_of_length_le (by omega)]

theorem length_written_le (h : buf.size ≠ 0) (v : ℤ) : (written buf v).length ≤ buf.size := by
  have hsign : (signCells v).length ≤ 1 := by
    rw [signCells]
    split_ifs <;> decide
  have hdigits := List.length_take_le (buf.size - (signCells v).length) (digitCells v.natAbs)
  rw [written, List.length_append, List.length_reverse]
  omega

theorem size_writeInteger (buf : Array UInt8) (v : ℤ) : (writeInteger buf v).2.size = buf.size := by
  by_cases h : buf.size = 0
  · rw [writeInteger, if_pos h]
  · rw [writeInteger_eq h, size_write]

theorem count_writeInteger_le (buf : Array UInt8) (v : ℤ) : (writeInteger buf v).1 ≤ buf.size := by
  by_cases h : buf.size = 0
  · rw [writeInteger, if_pos h]
    exact Nat.zero_le _
  · rw [writeInteger_eq h]
    exact length_written_le h v

end Contents

section Bounds

def layDigits? (buf : Array UInt8) (i n : ℕ) : Option (ℕ × Array UInt8) :=
  if i < buf.size then do
    let buf ← store? buf i (.ofNat (48 + n % 10))
    if n < 10 then return (i + 1, buf) else layDigits? buf (i + 1) (n / 10)
  else return (i, buf)
termination_by n
decreasing_by omega

/-- Writing an integer where every cell that is stored into or exchanged has to be there. -/
def writeInteger? (buf : Array UInt8) (value : ℤ) : Option (ℕ × Array UInt8) :=
  if buf.size = 0 then return (0, buf)
  else do
    let start := if value < 0 then 1 else 0
    let buf ← if value < 0 then store? buf 0 45 else some buf
    let (stop, buf) ← layDigits? buf start value.natAbs
    let buf ← reverse? buf start stop
    return (stop, buf)

theorem layDigits?_eq (buf : Array UInt8) (i n : ℕ) :
    layDigits? buf i n = some (layDigits buf i n) := by
  fun_induction layDigits buf i n with
  | case1 buf i n hi buf' hn =>
    rw [layDigits?, if_pos hi, store?_eq hi, Option.bind_eq_bind, Option.bind_some, if_pos hn]
    rfl
  | case2 buf i n hi buf' hn ih =>
    rw [layDigits?, if_pos hi, store?_eq hi, Option.bind_eq_bind, Option.bind_some, if_neg hn]
    exact ih
  | case3 buf i n hi => rw [layDigits?, if_neg hi]; rfl

/-- The digits end inside the buffer, so the ends of the range to reverse are there. -/
theorem reverse?_layDigits (h : i ≤ buf.size) :
    reverse? (layDigits buf i n).2 i (layDigits buf i n).1 =
      some (reverse (layDigits buf i n).2 i (layDigits buf i n).1) := by
  refine reverse?_eq ((stop_layDigits_le h).trans_eq ?_)
  rw [layDigits_eq, size_write]

theorem writeInteger?_eq (buf : Array UInt8) (v : ℤ) :
    writeInteger? buf v = some (writeInteger buf v) := by
  by_cases hempty : buf.size = 0
  · rw [writeInteger?, writeInteger, if_pos hempty, if_pos hempty]
    rfl
  · have hfirst : 0 < buf.size := Nat.pos_of_ne_zero hempty
    rw [writeInteger?, writeInteger, if_neg hempty, if_neg hempty]
    by_cases hv : v < 0
    · have hsize : 1 ≤ (buf.setIfInBounds 0 45).size := by rwa [Array.size_setIfInBounds]
      simp only [if_pos hv, store?_eq hfirst, Option.bind_eq_bind, Option.bind_some, layDigits?_eq,
        reverse?_layDigits hsize]
      rfl
    · simp only [if_neg hv, Option.bind_eq_bind, Option.bind_some, layDigits?_eq,
        reverse?_layDigits (Nat.zero_le buf.size)]
      rfl

end Bounds

/-- **Integers are written out in full.** A buffer that has room for the text of an integer starts
with it afterwards, a minus sign before the shortest numeral of the magnitude, and the length of
the text is answered; the rest of the buffer is as it was. Whatever the room, no cell outside the
buffer is touched, and the answer is at most the length of the buffer. -/
theorem integers_are_written (buf : Array UInt8) (v : ℤ) :
    let text := integerText v
    let result := writeInteger buf v
    (∃ digits, IsShortestNumeral digits v.natAbs ∧
        text = if v < 0 then '-' :: digits else digits) ∧
      (text.length ≤ buf.size → result.1 = text.length ∧
        result.2.toList = cells text ++ buf.toList.drop text.length) ∧
      writeInteger? buf v = some result ∧ result.2.size = buf.size ∧ result.1 ≤ buf.size := by
  intro text result
  refine ⟨⟨_, isShortestNumeral_iff.mpr rfl, rfl⟩, fun hroom => ?_, writeInteger?_eq buf v,
    size_writeInteger buf v, count_writeInteger_le buf v⟩
  have hroom' : 0 + (cells text).length ≤ buf.size := by rwa [Nat.zero_add, length_cells]
  have hempty : buf.size ≠ 0 :=
    Nat.ne_of_gt ((List.length_pos_iff.mpr (integerText_ne_nil v)).trans_le hroom)
  have hresult : result = ((cells text).length, write buf 0 (cells text)) := by
    rw [← written_eq hroom]
    exact writeInteger_eq hempty v
  rw [hresult, toList_write buf 0 _ hroom', Nat.zero_add, length_cells]
  exact ⟨rfl, rfl⟩

/-- The text of the least number of 64 bits leaves the last one of 21 cells alone. -/
theorem integers_are_written_least :
    let least : ℤ := -9223372036854775808
    let buf : Array UInt8 := .replicate 21 46
    (integerText least).length ≤ buf.size ∧
      (writeInteger buf least).2.toList = cells "-9223372036854775808.".toList := by
  intro least buf
  have htext : integerText least = "-9223372036854775808".toList := by decide +kernel
  obtain ⟨-, hroom, -⟩ := integers_are_written buf least
  have hlength : (integerText least).length ≤ buf.size := by
    rw [htext]
    decide
  refine ⟨hlength, (hroom hlength).2.trans ?_⟩
  rw [htext]
  decide

end ValueEngine.Number
