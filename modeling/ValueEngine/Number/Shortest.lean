import ValueEngine.Number.Binary
import ValueEngine.Number.Decimal

/-! The shortest decimal that reads back as a given double. Around a positive
`mantissa · 2 ^ exponent` lies the interval of reals that round to it. On the
decimal grids of 1, 2, … 17 digits the two neighbours of the value are tested
exactly; the first grid with a neighbour in the interval gives the digits, the
nearer neighbour wins and an exact tie goes as asked. -/

namespace ValueEngine.Number

/-- Which of two equally near decimals is taken. -/
inductive Tie
  | up
  | even
  deriving DecidableEq, Repr

/-- A positive real and the interval that rounds to it, over one denominator. -/
structure Neighbourhood where
  low : Nat
  value : Nat
  high : Nat
  denominator : Nat
  closed : Bool

/-- The neighbourhood of the double `mantissa · 2 ^ exponent`. Below a power of
two the next double is half as far away, and the ends belong to the interval
when the mantissa is even. -/
def neighbourhood (mantissa : Nat) (exponent : Int) : Neighbourhood :=
  let scale := 1 <<< (exponent - 2).toNat
  let below := if mantissa = hiddenBit ∧ -1074 < exponent then 1 else 2
  { low := (4 * mantissa - below) * scale
    value := 4 * mantissa * scale
    high := (4 * mantissa + 2) * scale
    denominator := 1 <<< (2 - exponent).toNat
    closed := mantissa % 2 = 0 }

/-- The same neighbourhood measured in steps of `10 ^ place`. -/
def Neighbourhood.inSteps (n : Neighbourhood) (place : Int) : Neighbourhood :=
  let up := tenTo (-place).toNat
  { n with
    low := n.low * up
    value := n.value * up
    high := n.high * up
    denominator := n.denominator * tenTo place.toNat }

/-- A whole number of steps lies in the interval. -/
def Neighbourhood.holds (n : Neighbourhood) (steps : Nat) : Bool :=
  let x := steps * n.denominator
  if n.closed then n.low ≤ x && x ≤ n.high else n.low < x && x < n.high

/-- The better of the two grid neighbours, if one lies in the interval. -/
def Neighbourhood.pick? (n : Neighbourhood) (tie : Tie) : Option Nat :=
  let down := n.value / n.denominator
  let rest := n.value % n.denominator
  let up := down + 1
  match n.holds down, n.holds up with
  | true, true =>
    if 2 * rest < n.denominator then some down
    else if n.denominator < 2 * rest then some up
    else match tie with
      | .up => some up
      | .even => some (if down % 2 = 0 then down else up)
  | true, false => some down
  | false, true => some up
  | false, false => none

/-- The decimal exponent of a positive `value / denominator`: the power of ten it
reaches. -/
def decimalExponent (value denominator : Nat) : Int :=
  let guess : Int := ((Nat.log2 value : Int) - Nat.log2 denominator) * 30103 / 100000
  let reaches (p : Int) : Bool := denominator * tenTo p.toNat ≤ value * tenTo (-p).toNat
  if reaches (guess + 1) then guess + 1
  else if reaches guess then guess
  else guess - 1

def dropZeros : (fuel : Nat) → Nat → Int → Nat × Int
  | 0, digits, place => (digits, place)
  | fuel + 1, digits, place =>
    if digits ≠ 0 ∧ digits % 10 = 0 then dropZeros fuel (digits / 10) (place + 1)
    else (digits, place)

/-- Try the grids from `place` downwards, one more digit each time. -/
def shortestFrom (n : Neighbourhood) (tie : Tie) : (grids : Nat) → (place : Int) → Nat × Int
  | 0, place => (n.value / n.denominator, place)
  | grids + 1, place =>
    match (n.inSteps place).pick? tie with
    | some digits => dropZeros 20 digits place
    | none => shortestFrom n tie grids (place - 1)

/-- The digits and the place of the last digit of the shortest decimal that reads
back as the positive double `mantissa · 2 ^ exponent`. -/
def shortest (tie : Tie) (mantissa : Nat) (exponent : Int) : Nat × Int :=
  let n := neighbourhood mantissa exponent
  shortestFrom n tie 17 (decimalExponent n.value n.denominator)

end ValueEngine.Number
