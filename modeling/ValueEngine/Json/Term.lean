import ValueEngine.Json.Numeral
import ValueEngine.Json.Text

/-! JSON documents as they are written. A term keeps numerals and strings in their
written form, so reading checks the grammar only; what a term means is settled
by whoever uses it. -/

namespace ValueEngine.Json

inductive Term
  | null
  | bool (b : Bool)
  | number (n : Numeral)
  | text (ps : List Piece)
  | list (ts : List Term)
  | object (fields : List (List Piece × Term))

namespace Term

def isSpace (c : Char) : Bool := c = ' ' ∨ c = '\n' ∨ c = '\t' ∨ c = '\r'

def skip (cs : List Char) : List Char := cs.dropWhile isSpace

/-- A value whose first character decides its kind and which holds no others. -/
def scalar? : List Char → Option (Term × List Char)
  | 'n' :: 'u' :: 'l' :: 'l' :: cs => some (.null, cs)
  | 't' :: 'r' :: 'u' :: 'e' :: cs => some (.bool true, cs)
  | 'f' :: 'a' :: 'l' :: 's' :: 'e' :: cs => some (.bool false, cs)
  | '"' :: cs => (Piece.read? cs).map fun (ps, rest) => (.text ps, rest)
  | cs => (Numeral.read? cs).map fun (n, rest) => (.number n, rest)

mutual

/-- Read a value. Every nested call costs one unit of the first argument. -/
def value? : Nat → List Char → Option (Term × List Char)
  | 0, _ => none
  | n + 1, cs =>
    match skip cs with
    | '[' :: cs =>
      match skip cs with
      | ']' :: cs => some (.list [], cs)
      | cs => (elements? n cs).map fun (ts, rest) => (.list ts, rest)
    | '\x7b' :: cs =>
      match skip cs with
      | '\x7d' :: cs => some (.object [], cs)
      | cs => (members? n cs).map fun (fs, rest) => (.object fs, rest)
    | cs => scalar? cs

def elements? : Nat → List Char → Option (List Term × List Char)
  | 0, _ => none
  | n + 1, cs => do
    let (t, cs) ← value? n cs
    match skip cs with
    | ',' :: cs => (elements? n cs).map fun (ts, rest) => (t :: ts, rest)
    | ']' :: cs => some ([t], cs)
    | _ => none

def members? : Nat → List Char → Option (List (List Piece × Term) × List Char)
  | 0, _ => none
  | n + 1, cs =>
    match skip cs with
    | '"' :: cs => do
      let (key, cs) ← Piece.read? cs
      match skip cs with
      | ':' :: cs =>
        let (t, cs) ← value? n cs
        match skip cs with
        | ',' :: cs => (members? n cs).map fun (fs, rest) => ((key, t) :: fs, rest)
        | '\x7d' :: cs => some ([(key, t)], cs)
        | _ => none
      | _ => none
    | _ => none

end

/-- Read a whole document. Each character starts at most two nested calls. -/
def parse? (s : String) : Option Term :=
  let cs := s.toList
  match value? (2 * cs.length + 2) cs with
  | some (t, rest) => if skip rest = [] then some t else none
  | none => none

end Term

end ValueEngine.Json
