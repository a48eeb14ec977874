import ValueEngine.Growable.Basic
import ValueEngine.Growable.Position

/-! Editing growable arrays. Elements to be added are given as a list, read before the
array changes, so an array may be added to itself. -/

namespace ValueEngine.Growable

variable {α : Type} [Memory] [Cell α]

/-- Append elements. Answers the new length. -/
def push (g : Growable α) (items : List α) : Except ArrayFault (Nat × Growable α) := do
  let n := g.length + items.length
  let r ← g.reserve n
  return (n, ⟨Storage.write r.slots g.length items, n⟩)

def pop (g : Growable α) : Except ArrayFault (α × Growable α) :=
  if g.length = 0 then .error .empty
  else
    let last := g.length - 1
    let x := (g.slots[last]?).getD Cell.filler
    .ok (x, ⟨g.slots.setIfInBounds last Cell.filler, last⟩)

/-- Remove the first element. The new storage is exactly as long as what remains. -/
def shift (g : Growable α) : Except ArrayFault (α × Growable α) :=
  if g.length = 0 then .error .empty
  else do
    let rest := g.length - 1
    let slots ← Storage.allocate rest (Cell.filler : α)
    return ((g.slots[0]?).getD Cell.filler, ⟨Storage.copy slots 0 g.slots 1 rest, rest⟩)

/-- Prepend elements. Answers the new length. -/
def unshift (g : Growable α) (items : List α) : Except ArrayFault (Nat × Growable α) := do
  let n := g.length + items.length
  let r ← g.reserve n
  let slots := Storage.copyWithin r.slots 0 items.length g.length
  return (n, ⟨Storage.write slots 0 items, n⟩)

/-- Replace the elements from `start` on, none of them if no count is given. Answers
the elements removed. -/
def splice (g : Growable α) (start : Float) (count : Option Float) (items : List α) :
    Except ArrayFault (Growable α × Growable α) := do
  let start := Position.relative start g.length
  let count := match count with
    | some n => Position.count n (g.length - start)
    | none => 0
  let removed := (g.slots.extract start (start + count)).toList
  let n := g.length - count + items.length
  let r ← g.reserve n
  let tail := g.length - start - count
  let slots := Storage.copyWithin r.slots (start + count) (start + items.length) tail
  let slots := Storage.write slots start items
  return (ofList removed, setLength ⟨slots, g.length⟩ n)

omit [Cell α]

/-- The end of a range: the length, or a position held within it. -/
def stop (g : Growable α) (stop : Option Float) : Nat :=
  match stop with
  | some x => Position.relative x g.length
  | none => g.length

def slice (g : Growable α) (start : Float) (stop : Option Float) : Growable α :=
  let start := Position.relative start g.length
  let stop := g.stop stop
  if stop ≤ start then empty else ofList (g.slots.extract start stop).toList

def concat (g h : Growable α) : Growable α := ofList (g.toList ++ h.toList)

/-- Join two arrays to a new one when the storage for it is granted. -/
def append (g h : Growable α) : Except ArrayFault (Growable α) :=
  let n := g.length + h.length
  if Memory.grants 0 n then .ok (g.concat h) else .error (.allocation n)

def reverse (g : Growable α) : Growable α := { g with slots := Storage.reverse g.slots 0 g.length }

def fill (g : Growable α) (x : α) (start : Float) (stop : Option Float) : Growable α :=
  let start := Position.relative start g.length
  let stop := g.stop stop
  if start < stop then { g with slots := Storage.fill g.slots start stop x } else g

/-- Copy a range over other elements. A target or start past the end changes nothing,
and a range never runs past either end. -/
def copyWithin (g : Growable α) (target start : Float) (stop : Option Float) : Growable α :=
  match Position.bounded? target g.length, Position.bounded? start g.length with
  | some target, some start =>
    let stop := (stop.bind (Position.bounded? · g.length)).getD g.length
    if stop ≤ start then g
    else
      let count := min (min (stop - start) (g.length - start)) (g.length - target)
      { g with slots := Storage.copyWithin g.slots start target count }
  | _, _ => g

end ValueEngine.Growable
