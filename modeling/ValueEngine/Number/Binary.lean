/-! Doubles read exactly. The bits of a double are taken apart into a sign and
`mantissa · 2 ^ exponent`; order, truncation and conversion to bounded integers
are then statements about integers. The rank of a double orders the non-NaN
values and identifies the two zeros. -/

namespace ValueEngine.Number

/-- What the bits of a double denote. -/
inductive Binary
  | nan
  | infinite (negative : Bool)
  | finite (negative : Bool) (mantissa : Nat) (exponent : Int)
  deriving DecidableEq, Repr

/-- The bit above the magnitude of a double. -/
def signBit : Nat := 0x8000000000000000

/-- The bit above the fraction of a double, which a normal mantissa has. -/
def hiddenBit : Nat := 0x10000000000000

def negative (x : Float) : Bool := signBit ≤ x.toBits.toNat

/-- The bits below the sign, which order the values of one sign. -/
def magnitude (x : Float) : Nat := x.toBits.toNat % signBit

/-- The magnitude of the infinities; NaN lies above it. -/
def infiniteMagnitude : Nat := 2047 * hiddenBit

def binary (x : Float) : Binary :=
  let field : Nat := magnitude x / hiddenBit
  let fraction : Nat := magnitude x % hiddenBit
  if field = 2047 then
    if fraction = 0 then .infinite (negative x) else .nan
  else if field = 0 then .finite (negative x) fraction (-1074)
  else .finite (negative x) (hiddenBit + fraction) ((field : Int) - 1075)

def isNaN (x : Float) : Bool := infiniteMagnitude < magnitude x

/-- An integer with a sign of its own. -/
def signed (negative : Bool) (n : Nat) : Int := if negative then -n else n

/-- Position of a double among all doubles; both zeros are 0 and NaN has none. -/
def rank? (x : Float) : Option Int :=
  if isNaN x then none else some (signed (negative x) (magnitude x))

/-- Numeric order; NaN is unordered. -/
def order? (x y : Float) : Option Ordering :=
  match rank? x, rank? y with
  | some a, some b => some (compare a b)
  | _, _ => none

/-- Numeric equality: the zeros are equal and NaN equals nothing. -/
def equal (x y : Float) : Bool := order? x y == some .eq

def atMostZero (x : Float) : Bool :=
  match rank? x with
  | some a => a ≤ 0
  | none => false

def atLeastZero (x : Float) : Bool :=
  match rank? x with
  | some a => 0 ≤ a
  | none => false

def isZero (x : Float) : Bool := magnitude x = 0

/-- The integer part of `mantissa · 2 ^ exponent`. -/
def wholePart (mantissa : Nat) (exponent : Int) : Nat :=
  if 0 ≤ exponent then mantissa <<< exponent.toNat else mantissa >>> (-exponent).toNat

/-- The integer part of a double, toward zero. NaN counts as 0 and an infinity
as the power of two past every finite double. -/
def truncate (x : Float) : Int :=
  match binary x with
  | .nan => 0
  | .infinite s => signed s (1 <<< 1024)
  | .finite s m e => signed s (wholePart m e)

/-- A finite double without a fraction. -/
def isWhole (x : Float) : Bool :=
  match binary x with
  | .finite _ m e => 0 ≤ e || m % (1 <<< (-e).toNat) == 0
  | _ => false

/-- The natural number a double denotes exactly; -0 denotes 0. -/
def natural? (x : Float) : Option Nat :=
  if isWhole x ∧ 0 ≤ truncate x then some (truncate x).toNat else none

/-- The integer part, held between two bounds. -/
def clamp (low high : Int) (x : Float) : Int := max low (min high (truncate x))

def toUInt8 (x : Float) : UInt8 := .ofNat (clamp 0 0xff x).toNat
def toUInt64 (x : Float) : UInt64 := .ofNat (clamp 0 0xffffffffffffffff x).toNat
def toInt32 (x : Float) : Int32 := .ofInt (clamp (-0x80000000) 0x7fffffff x)
def toInt64 (x : Float) : Int64 := .ofInt (clamp (-0x8000000000000000) 0x7fffffffffffffff x)

end ValueEngine.Number
