import ValueEngine.Number.Binary

/-! Positions given as doubles. They are truncated toward zero and a negative one counts
from the end. Most arguments are held between 0 and the length; some are refused
past the end instead. -/

namespace ValueEngine.Position

/-- A position held between 0 and the length. -/
def relative (x : Float) (length : Nat) : Nat :=
  let i := Number.truncate x
  if i < 0 then (length + i).toNat else min i.toNat length

/-- A position before the end. -/
def bounded? (x : Float) (length : Nat) : Option Nat :=
  let i := Number.truncate x
  if i < 0 then some (length + i).toNat else if length ≤ i then none else some i.toNat

/-- A count held between 0 and a bound. -/
def count (x : Float) (bound : Nat) : Nat := min (Number.truncate x).toNat bound

end ValueEngine.Position
