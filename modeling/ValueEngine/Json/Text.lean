/-! Strings of JSON documents as they are written: characters, and 16-bit units given
by number. A unit of the high surrogate range stands for a character only
together with a low one after it, and a low one never stands alone. -/

namespace ValueEngine.Json

/-- One piece of a written string. -/
inductive Piece
  | char (c : Char)
  | unit (u : Nat)
  deriving DecidableEq, Repr

namespace Piece

def hexValue? (c : Char) : Option Nat :=
  let n := c.toNat
  if 48 ≤ n ∧ n ≤ 57 then some (n - 48)
  else if 97 ≤ n ∧ n ≤ 102 then some (n - 87)
  else if 65 ≤ n ∧ n ≤ 70 then some (n - 55)
  else none

def escape? : Char → Option Char
  | '"' => some '"'
  | '\\' => some '\\'
  | '/' => some '/'
  | 'b' => some '\x08'
  | 'f' => some '\x0c'
  | 'n' => some '\n'
  | 'r' => some '\r'
  | 't' => some '\t'
  | _ => none

/-- Read the pieces up to the closing quote. Control characters must be escaped. -/
def read? : List Char → Option (List Piece × List Char)
  | '"' :: cs => some ([], cs)
  | '\\' :: 'u' :: a :: b :: c :: d :: cs => do
    let u := 4096 * (← hexValue? a) + 256 * (← hexValue? b) + 16 * (← hexValue? c) + (← hexValue? d)
    let (ps, rest) ← read? cs
    return (.unit u :: ps, rest)
  | '\\' :: e :: cs => do
    let c ← escape? e
    let (ps, rest) ← read? cs
    return (.char c :: ps, rest)
  | c :: cs =>
    if c.toNat < 0x20 ∨ c = '\\' then none
    else (read? cs).map fun (ps, rest) => (.char c :: ps, rest)
  | [] => none

def isHigh (u : Nat) : Bool := 0xD800 ≤ u ∧ u < 0xDC00
def isLow (u : Nat) : Bool := 0xDC00 ≤ u ∧ u < 0xE000

def decode? : List Piece → Option (List Char)
  | [] => some []
  | .char c :: ps => (decode? ps).map (c :: ·)
  | .unit h :: .unit l :: ps =>
    if isHigh h then
      if isLow l then
        (decode? ps).map (Char.ofNat (0x10000 + 1024 * (h - 0xD800) + (l - 0xDC00)) :: ·)
      else none
    else if isLow h then none
    else (decode? (.unit l :: ps)).map (Char.ofNat h :: ·)
  | .unit u :: ps =>
    if isHigh u ∨ isLow u then none else (decode? ps).map (Char.ofNat u :: ·)

def text? (ps : List Piece) : Option String := (decode? ps).map String.ofList

end Piece

end ValueEngine.Json
