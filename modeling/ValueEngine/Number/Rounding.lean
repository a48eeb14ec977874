import ValueEngine.Number.Binary

/-! Rounding `mantissa · 2 ^ exponent` to the nearest value of a binary format,
ties to the even neighbour. Integers become doubles this way, and doubles
become single-precision values. -/

namespace ValueEngine.Number

/-- A binary format: its significant bits, the exponent of its smallest step
and the power of two that no finite value reaches. -/
structure Format where
  digits : Nat
  leastExponent : Int
  bound : Int

def Format.double : Format := ⟨53, -1074, 1024⟩
def Format.single : Format := ⟨24, -149, 128⟩

/-- Number of binary digits; 0 has none. -/
def bitLength (n : Nat) : Nat := if n = 0 then 0 else n.log2 + 1

/-- The integer nearest to `n / d`, an exact half going to the even one. -/
def nearestQuotient (n d : Nat) : Nat :=
  let q := n / d
  let r := n % d
  if d < 2 * r ∨ (d = 2 * r ∧ q % 2 = 1) then q + 1 else q

/-- The nearest multiple of the format's step at this size, as a new mantissa
and exponent. -/
def Format.round (f : Format) (mantissa : Nat) (exponent : Int) : Nat × Int :=
  let place := max f.leastExponent (exponent + bitLength mantissa - f.digits)
  if place ≤ exponent then (mantissa <<< (exponent - place).toNat, place)
  else (nearestQuotient mantissa (1 <<< (place - exponent).toNat), place)

def Format.overflows (f : Format) (mantissa : Nat) (exponent : Int) : Bool :=
  mantissa ≠ 0 ∧ f.bound < exponent + bitLength mantissa

/-- The magnitude bits of the double nearest to `mantissa · 2 ^ exponent`. A
mantissa that carries into the next power of two carries into the exponent. -/
def doubleMagnitude (mantissa : Nat) (exponent : Int) : Nat :=
  let (m, e) := Format.double.round mantissa exponent
  if m = 0 then 0
  else if Format.double.overflows m e then infiniteMagnitude
  else (e + 1074).toNat * hiddenBit + m

/-- The double with given sign and magnitude bits. -/
def ofMagnitude (negative : Bool) (bits : Nat) : Float :=
  Float.ofBits (.ofNat (if negative then signBit + bits else bits))

/-- The double nearest to a signed `mantissa · 2 ^ exponent`. -/
def ofScaled (negative : Bool) (mantissa : Nat) (exponent : Int) : Float :=
  ofMagnitude negative (doubleMagnitude mantissa exponent)

def ofNat (n : Nat) : Float := ofScaled false n 0
def ofInt (n : Int) : Float := ofScaled (n < 0) n.natAbs 0

/-- The integer part as a double of the same sign; NaN counts as 0. -/
def trunc (x : Float) : Float :=
  match binary x with
  | .nan => ofNat 0
  | .infinite _ => x
  | .finite s m e => if 0 ≤ e then x else ofScaled s (wholePart m e) 0

def toSingle (x : Float) : Float :=
  match binary x with
  | .finite s m e =>
    let (m, e) := Format.single.round m e
    if Format.single.overflows m e then ofMagnitude s infiniteMagnitude else ofScaled s m e
  | _ => x

end ValueEngine.Number
