import ValueEngine.Fault
import ValueEngine.Proofs.Number.IntegerPart

/-! Ordinary lists with the operations of growable arrays, written with take, drop and
append. A list comes with the room reserved for it, since an operation that
needs more room than there is asks for new storage and may be refused. -/

namespace ValueEngine

/-- A list and the number of elements that it has room for. -/
structure Plain (α : Type) where
  elements : List α
  room : ℕ

namespace Plain

variable {α : Type}

/-- A new list has room for its own elements only. -/
def ofList (xs : List α) : Plain α := ⟨xs, xs.length⟩

def held (i : ℤ) (n : ℕ) : ℕ := (max 0 (min (n : ℤ) i)).toNat

/-- The index that a double stands for among `n` elements. A negative one counts from
the end. -/
def index (x : Float) (n : ℕ) : ℕ :=
  let i := Number.integerPart x
  held (if i < 0 then n + i else i) n

/-- The end of a range, which is the end of the list if none is given. -/
def stop (x : Option Float) (n : ℕ) : ℕ :=
  match x with
  | some x => index x n
  | none => n

/-- How many of `n` elements to remove, none if no count is given. -/
def count (x : Option Float) (n : ℕ) : ℕ :=
  match x with
  | some x => held (Number.integerPart x) n
  | none => 0

/-- The room that there is once `n` elements have room. More than the longest array is
refused unless the room is there already. -/
def reserve (room n : ℕ) : Except ArrayFault ℕ :=
  if max room maxArrayLength < n then .error (.allocation n)
  else .ok (if n ≤ room then room else min (n + 16) maxArrayLength)

def push (p : Plain α) (items : List α) : Except ArrayFault (ℕ × Plain α) := do
  let n := p.elements.length + items.length
  let room ← reserve p.room n
  return (n, ⟨p.elements ++ items, room⟩)

def pop (p : Plain α) : Except ArrayFault (α × Plain α) :=
  match p.elements.getLast? with
  | none => .error .empty
  | some x => .ok (x, ⟨p.elements.dropLast, p.room⟩)

/-- The rest gets room of its own, so it must not be longer than the longest array. -/
def shift (p : Plain α) : Except ArrayFault (α × Plain α) :=
  match p.elements with
  | [] => .error .empty
  | x :: rest =>
    if maxArrayLength < rest.length then .error (.allocation rest.length) else .ok (x, ofList rest)

def unshift (p : Plain α) (items : List α) : Except ArrayFault (ℕ × Plain α) := do
  let n := p.elements.length + items.length
  let room ← reserve p.room n
  return (n, ⟨items ++ p.elements, room⟩)

/-- Answers the elements removed. -/
def splice (p : Plain α) (start : Float) (number : Option Float) (items : List α) :
    Except ArrayFault (List α × Plain α) := do
  let xs := p.elements
  let s := index start xs.length
  let c := count number (xs.length - s)
  let room ← reserve p.room (xs.length - c + items.length)
  return ((xs.drop s).take c, ⟨xs.take s ++ items ++ xs.drop (s + c), room⟩)

def slice (p : Plain α) (first : Float) (last : Option Float) : List α :=
  (p.elements.take (stop last p.elements.length)).drop (index first p.elements.length)

def reverse (p : Plain α) : Plain α := ⟨p.elements.reverse, p.room⟩

def fill (p : Plain α) (x : α) (first : Float) (last : Option Float) : Plain α :=
  let n := p.elements.length
  ⟨p.elements.mapIdx fun i y => if index first n ≤ i ∧ i < stop last n then x else y, p.room⟩

/-- A range is cut off where the list ends after the target. -/
def copyWithin (p : Plain α) (target first : Float) (last : Option Float) : Plain α :=
  let xs := p.elements
  let t := index target xs.length
  let s := index first xs.length
  let c := min (stop last xs.length - s) (xs.length - t)
  ⟨xs.take t ++ (xs.drop s).take c ++ xs.drop (t + c), p.room⟩

def set (p : Plain α) (i : ℕ) (x : α) : Bool × Plain α :=
  (decide (i < p.elements.length), ⟨p.elements.set i x, p.room⟩)

end Plain

end ValueEngine
