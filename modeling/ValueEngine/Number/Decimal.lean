/-! Decimal numerals. The numeral of a natural number has no leading zero, and an
index name is the numeral of an index below the array limit, so every index has
exactly one name. -/

namespace ValueEngine

/-- No array, dynamic or growable, is longer than this. -/
def maxArrayLength : Nat := 0x3fffffff

namespace Number

def tenTo (n : Nat) : Nat := Nat.pow 10 n

def digit (d : Nat) : Char := Char.ofNat (48 + d)

/-- The decimal digits of a number, most significant first. -/
def decimal (n : Nat) : List Char :=
  if n < 10 then [digit n] else decimal (n / 10) ++ [digit (n % 10)]
termination_by n

def decimalText (n : Nat) : String := String.ofList (decimal n)

def isDigit (c : Char) : Bool := 48 ≤ c.toNat ∧ c.toNat ≤ 57

def digitValue (c : Char) : Nat := c.toNat - 48

def decimalValue (cs : List Char) : Nat := cs.foldl (fun n c => 10 * n + digitValue c) 0

/-- A decimal numeral as the shortest spelling would have it. -/
def isCanonical : List Char → Bool
  | [] => false
  | [c] => isDigit c
  | c :: cs => c ≠ '0' && isDigit c && cs.all isDigit

/-- The index a property name denotes, if it is the canonical name of one. -/
def arrayIndex? (name : String) : Option Nat :=
  let cs := name.toList
  if isCanonical cs ∧ cs.length ≤ 10 ∧ decimalValue cs < maxArrayLength
  then some (decimalValue cs) else none

end Number

end ValueEngine
