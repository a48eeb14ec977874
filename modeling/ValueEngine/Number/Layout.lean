import ValueEngine.Number.Decimal
import ValueEngine.Number.Shortest

/-! The text of a double. All texts show the shortest digits that read back; a
layout says which sizes are written positionally, whether whole numbers keep a
point and how the special values are spelled. -/

namespace ValueEngine.Number

structure Layout where
  /-- Decimal exponents from here up to `positionalEnd` are written without exponent. -/
  positionalStart : Int
  positionalEnd : Int
  /-- Whole numbers end in `.0`. -/
  keepsPoint : Bool
  /-- Exponents that are not negative carry a plus sign. -/
  plusSign : Bool
  signedZero : Bool
  tie : Tie
  nanText : String
  infinityText : String

/-- How a number reads to the user of a value. -/
def Layout.display : Layout :=
  ⟨-7, 21, false, true, false, .up, "NaN", "Infinity"⟩

/-- How a number reads in a description of a value. -/
def Layout.debug : Layout :=
  ⟨-4, 16, true, false, true, .up, "NaN", "inf"⟩

/-- How a number is written into a document. -/
def Layout.document : Layout :=
  ⟨-5, 16, true, true, true, .even, "null", "null"⟩

def zeros (n : Nat) : List Char := List.replicate n '0'

/-- Digits with the point after the first `whole` of them, `whole` at least 1. -/
def withPoint (l : Layout) (digits : List Char) (whole : Nat) : List Char :=
  if whole < digits.length then digits.take whole ++ '.' :: digits.drop whole
  else digits ++ zeros (whole - digits.length) ++ if l.keepsPoint then ['.', '0'] else []

/-- The text of the positive decimal `digits · 10 ^ place`. -/
def Layout.decimalText (l : Layout) (digits : Nat) (place : Int) : List Char :=
  let ds := decimal digits
  let exponent : Int := place + ds.length - 1
  if l.positionalStart ≤ exponent ∧ exponent < l.positionalEnd then
    if exponent < 0 then '0' :: '.' :: (zeros (-exponent - 1).toNat ++ ds)
    else withPoint l ds (exponent.toNat + 1)
  else
    let mantissa := match ds with
      | d :: e :: rest => d :: '.' :: e :: rest
      | short => short
    let sign := if exponent < 0 then ['-'] else if l.plusSign then ['+'] else []
    mantissa ++ 'e' :: (sign ++ decimal exponent.natAbs)

def Layout.text (l : Layout) (x : Float) : String :=
  let sign (s : Bool) : List Char := if s then ['-'] else []
  match binary x with
  | .nan => l.nanText
  | .infinite s => String.ofList (sign s) ++ l.infinityText
  | .finite s m e =>
    if m = 0 then
      String.ofList (sign (s && l.signedZero) ++ '0' :: if l.keepsPoint then ['.', '0'] else [])
    else
      let (digits, place) := shortest l.tie m e
      String.ofList (sign s ++ l.decimalText digits place)

def display (x : Float) : String := Layout.display.text x

end ValueEngine.Number
