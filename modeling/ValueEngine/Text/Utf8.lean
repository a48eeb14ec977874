/-! Reading bytes as UTF-8. A well-formed sequence gives its character; a byte that
starts none, or the longest part of a sequence that breaks off, gives one
replacement character. -/

namespace ValueEngine.Text.Utf8

/-- What a lead byte announces: the number of bytes that follow, the bounds of the
first of them and the bits that the lead byte contributes. -/
def lead? (b : Nat) : Option (Nat × Nat × Nat × Nat) :=
  if b < 0x80 then some (0, 0, 0, b)
  else if b < 0xC2 then none
  else if b < 0xE0 then some (1, 0x80, 0xBF, b - 0xC0)
  else if b = 0xE0 then some (2, 0xA0, 0xBF, 0)
  else if b = 0xED then some (2, 0x80, 0x9F, 0xD)
  else if b < 0xF0 then some (2, 0x80, 0xBF, b - 0xE0)
  else if b = 0xF0 then some (3, 0x90, 0xBF, 0)
  else if b < 0xF4 then some (3, 0x80, 0xBF, b - 0xF0)
  else if b = 0xF4 then some (3, 0x80, 0x8F, 4)
  else none

/-- Read the bytes that a sequence still owes, the first within the given bounds.
Stops before the byte that breaks the sequence. -/
def continuation : (owed low high bits : Nat) → List UInt8 → Option Nat × List UInt8
  | 0, _, _, bits, bs => (some bits, bs)
  | _ + 1, _, _, _, [] => (none, [])
  | owed + 1, low, high, bits, b :: bs =>
    if low ≤ b.toNat ∧ b.toNat ≤ high
    then continuation owed 0x80 0xBF (64 * bits + b.toNat % 64) bs
    else (none, b :: bs)

theorem length_continuation_le (owed low high bits : Nat) (bs : List UInt8) :
    (continuation owed low high bits bs).2.length ≤ bs.length := by
  induction bs generalizing owed low high bits with
  | nil => cases owed <;> simp [continuation]
  | cons b bs ih =>
    cases owed with
    | zero => simp [continuation]
    | succ owed =>
      simp only [continuation]
      split
      · exact Nat.le_succ_of_le (ih ..)
      · exact Nat.le_refl _

def step (b : UInt8) (bs : List UInt8) : Char × List UInt8 :=
  match lead? b.toNat with
  | none => ('\ufffd', bs)
  | some (owed, low, high, bits) =>
    match continuation owed low high bits bs with
    | (some code, rest) => (Char.ofNat code, rest)
    | (none, rest) => ('\ufffd', rest)

theorem length_step_le (b : UInt8) (bs : List UInt8) : (step b bs).2.length ≤ bs.length := by
  unfold step
  split
  · exact Nat.le_refl _
  · next owed low high bits _ =>
    have h := length_continuation_le owed low high bits bs
    split <;> simp_all

/-- The characters of a byte sequence, with replacements for what is malformed. -/
def decode : List UInt8 → List Char
  | [] => []
  | b :: bs => (step b bs).1 :: decode (step b bs).2
termination_by bs => bs.length
decreasing_by exact Nat.lt_succ_of_le (length_step_le b bs)

def decodeText (bs : List UInt8) : String := String.ofList (decode bs)

def encode (s : String) : List UInt8 := s.toUTF8.toList

end ValueEngine.Text.Utf8
