import ValueEngine.Storage

/-! Writing an integer into a buffer of fixed size. The digits are laid down least
significant first while there is room and the written range is then reversed in
place, so a buffer that is too short keeps the low digits. -/

namespace ValueEngine.Number

/-- Lay down the digits of `n` from position `i` on, least significant first.
Answers the position after the last digit written. -/
def layDigits (buf : Array UInt8) (i n : Nat) : Nat × Array UInt8 :=
  if i < buf.size then
    let buf := buf.setIfInBounds i (.ofNat (48 + n % 10))
    if n < 10 then (i + 1, buf) else layDigits buf (i + 1) (n / 10)
  else (i, buf)
termination_by n
decreasing_by omega

/-- Write the decimal text of an integer at the start of a buffer. Answers how
many cells were written. -/
def writeInteger (buf : Array UInt8) (value : Int) : Nat × Array UInt8 :=
  if buf.size = 0 then (0, buf)
  else
    let start := if value < 0 then 1 else 0
    let buf := if value < 0 then buf.setIfInBounds 0 45 else buf
    let (stop, buf) := layDigits buf start value.natAbs
    (stop, Storage.reverse buf start stop)

end ValueEngine.Number
