import ValueEngine.Number.Decimal
import ValueEngine.Number.Rounding

/-! Numerals of JSON documents and the doubles they are read as. Digits are gathered
into a 64-bit significand until the next one would not fit; later digits only
move the exponent. The significand is then scaled by a power of ten with a
single multiplication or division, and a number past the largest double is
refused. -/

namespace ValueEngine.Json

open Number (isDigit digitValue)

structure Numeral where
  negative : Bool
  whole : List Char
  /-- The digits after the point, if there is one. -/
  fraction : Option (List Char)
  /-- The sign and the digits of the exponent, if there is one. -/
  exponent : Option (Bool × List Char)
  deriving DecidableEq, Repr

namespace Numeral

def digits? (cs : List Char) : Option (List Char × List Char) :=
  match cs.takeWhile isDigit with
  | [] => none
  | ds => some (ds, cs.dropWhile isDigit)

/-- The whole part: a lone zero or a run that does not start with one. -/
def whole? (cs : List Char) : Option (List Char × List Char) :=
  match digits? cs with
  | some (['0'], rest) => some (['0'], rest)
  | some ('0' :: _, _) => none
  | other => other

def fraction? : List Char → Option (Option (List Char) × List Char)
  | '.' :: cs => (digits? cs).map fun (ds, rest) => (some ds, rest)
  | cs => some (none, cs)

def exponent? : List Char → Option (Option (Bool × List Char) × List Char)
  | c :: cs =>
    if c = 'e' ∨ c = 'E' then
      let (negative, cs) := match cs with
        | '-' :: cs => (true, cs)
        | '+' :: cs => (false, cs)
        | cs => (false, cs)
      (digits? cs).map fun (ds, rest) => (some (negative, ds), rest)
    else some (none, c :: cs)
  | [] => some (none, [])

def read? (cs : List Char) : Option (Numeral × List Char) := do
  let (negative, cs) := match cs with
    | '-' :: cs => (true, cs)
    | cs => (false, cs)
  let (whole, cs) ← whole? cs
  let (fraction, cs) ← fraction? cs
  let (exponent, cs) ← exponent? cs
  return (⟨negative, whole, fraction, exponent⟩, cs)

def significandLimit : Nat := 0xffffffffffffffff

/-- The largest exponent that is read; a longer one is as good as infinite. -/
def exponentLimit : Nat := 0x7fffffff

/-- Gather digits into the significand while they fit. Answers the digits left. -/
def gather : Nat → List Char → Nat × List Char
  | n, [] => (n, [])
  | n, c :: cs =>
    if 10 * n + digitValue c ≤ significandLimit then gather (10 * n + digitValue c) cs
    else (n, c :: cs)

def powerOfTen (n : Nat) : Float := Number.ofNat (Number.tenTo n)

/-- Divide by `10 ^ n`, in steps of the largest power of ten there is. -/
def divideByPower (x : Float) (n : Nat) : Float :=
  if n ≤ 308 then x / powerOfTen n
  else if Number.isZero x then x
  else divideByPower (x / powerOfTen 308) (n - 308)
termination_by n

/-- `significand · 10 ^ exponent`, refused when it is past the largest double. -/
def scale? (significand : Nat) (exponent : Int) : Option Float :=
  let x := Number.ofNat significand
  if exponent < 0 then some (divideByPower x exponent.natAbs)
  else if 308 < exponent then if significand = 0 then some x else none
  else
    let y := x * powerOfTen exponent.toNat
    if Number.magnitude y = Number.infiniteMagnitude then none else some y

/-- The magnitude a numeral is read as. -/
def magnitude? (n : Numeral) : Option Float :=
  let (significand, unread) := gather 0 n.whole
  let fraction := n.fraction.getD []
  let (significand, left) := gather significand fraction
  let place : Int := unread.length - (fraction.length - left.length : Nat)
  match n.exponent with
  | none => scale? significand place
  | some (negative, ds) =>
    let e := Number.decimalValue ds
    if e ≤ exponentLimit then scale? significand (if negative then place - e else place + e)
    else if significand ≠ 0 ∧ ¬ negative then none
    else some (Number.ofNat 0)

def double? (n : Numeral) : Option Float :=
  n.magnitude?.map fun x => if n.negative then -x else x

/-- The natural number a numeral denotes when it is written as a plain integer that
fits the significand. -/
def natural? (n : Numeral) : Option Nat :=
  let v := Number.decimalValue n.whole
  if n.negative ∨ n.fraction.isSome ∨ n.exponent.isSome ∨ significandLimit < v then none
  else some v

end Numeral

end ValueEngine.Json
