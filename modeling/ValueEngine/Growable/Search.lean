import ValueEngine.Growable.Basic
import ValueEngine.Growable.Position

/-! Searching growable arrays. Elements are compared by the sameness of their kind, and
the position to search from is read like any other position argument. A search goes
through a slice of the live elements. A slice that would begin past the end, or end
past the last element, is no slice, and a search that asks for one has no answer at
all, which is not the answer that nothing is found: `indexOf?`, `lastIndexOf?` and
`includes?` tell the two apart. The searches `indexOf`, `lastIndexOf` and `includes`
are these with the question forgotten. -/

namespace ValueEngine.Growable

variable {α : Type}

/-- The live elements, if the storage has so many cells. -/
def live? (g : Growable α) : Option (List α) :=
  if g.length ≤ g.capacity then some g.toList else none

/-- The elements from a position on, which may be the end. -/
def sliceFrom? (xs : List α) (start : Nat) : Option (List α) :=
  if start ≤ xs.length then some (xs.drop start) else none

/-- The elements up to a position and with it. -/
def sliceUpTo? (xs : List α) (last : Nat) : Option (List α) :=
  if last < xs.length then some (xs.take (last + 1)) else none

def last? (n : Nat) : Option Nat := if n = 0 then none else some (n - 1)

/-- The truncated position to search from, 0 if none is given. -/
def origin (start : Option Float) : Int :=
  match start with
  | some x => Number.truncate x
  | none => 0

variable [Cell α]

/-- The first position at or after `start` whose element is the one sought. -/
def firstFrom? (g : Growable α) (x : α) (start : Nat) : Option (Option Nat) := do
  let slice ← sliceFrom? (← g.live?) start
  return (slice.findIdx? (Cell.same · x)).map (· + start)

/-- The last position at or before `last` whose element is the one sought. -/
def lastUpTo? (g : Growable α) (x : α) (last : Nat) : Option (Option Nat) := do
  let slice ← sliceUpTo? (← g.live?) last
  return (slice.reverse.findIdx? (Cell.same · x)).map (last - ·)

def indexOf? (g : Growable α) (x : α) (start : Option Float) : Option (Option Nat) :=
  let i := origin start
  if g.length ≤ i then some none
  else g.firstFrom? x (if i < 0 then (g.length + i).toNat else min i.toNat g.length)

/-- Search backwards, from the last element if no position is given. -/
def lastIndexOf? (g : Growable α) (x : α) (start : Option Float) : Option (Option Nat) :=
  if g.length = 0 then some none
  else
    match start.map Number.truncate with
    | none => do g.lastUpTo? x (← last? g.length)
    | some i =>
      if i < -g.length then some none
      else if i < 0 then g.lastUpTo? x (g.length + i).toNat
      else do g.lastUpTo? x (min i.toNat (← last? g.length))

/-- Whether an element occurs; a negative position counts as 0. -/
def includes? (g : Growable α) (x : α) (start : Option Float) : Option Bool :=
  let i := (origin start).toNat
  if g.length ≤ i then some false
  else do return (← sliceFrom? (← g.live?) i).any (Cell.same · x)

def indexOf (g : Growable α) (x : α) (start : Option Float) : Option Nat :=
  (g.indexOf? x start).join

def lastIndexOf (g : Growable α) (x : α) (start : Option Float) : Option Nat :=
  (g.lastIndexOf? x start).join

def includes (g : Growable α) (x : α) (start : Option Float) : Bool :=
  (g.includes? x start).getD false

end ValueEngine.Growable
