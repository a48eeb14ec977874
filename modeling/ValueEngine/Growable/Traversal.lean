import ValueEngine.Config
import ValueEngine.Growable.Element

/-! Methods that visit the elements of a growable array in order. The array is read anew
before every call, so a callback may change it; the visit ends at the length the
array had at first, or when the array has become too short for the next index. -/

namespace ValueEngine.Growable

variable {σ α β : Type}

/-- Visit up to `count` elements from index `i` on. Each visit gives the next
accumulator and says whether to go on. -/
def visitFrom (place : Place σ (Growable α))
    (f : Nat → α → β → Action σ ArrayFault (β × Bool)) :
    (count : Nat) → (i : Nat) → β → Action σ ArrayFault β
  | 0, _, acc => pure acc
  | count + 1, i, acc => do
    match (place.read (← get)).get? i with
    | none => pure acc
    | some x =>
      let (acc, more) ← f i x acc
      if more then visitFrom place f count (i + 1) acc else pure acc

/-- Visit the elements that the array has now. -/
def visit (place : Place σ (Growable α))
    (f : Nat → α → β → Action σ ArrayFault (β × Bool)) (init : β) : Action σ ArrayFault β := do
  visitFrom place f (place.read (← get)).length 0 init

variable (place : Place σ (Growable α)) (c : Closure σ α)

def ask (x : α) (i : Nat) : Action σ ArrayFault Bool := do
  .ofExcept (← c.onElement x i).truthy

def every : Action σ ArrayFault Bool :=
  visit place (fun i x _ => do let b ← ask c x i; return (b, b)) true

def some : Action σ ArrayFault Bool :=
  visit place (fun i x _ => do let b ← ask c x i; return (b, !b)) false

def forEach : Action σ ArrayFault Unit :=
  visit place (fun i x _ => do discard (c.onElement x i); return ((), true)) ()

def filter : Action σ ArrayFault (Growable α) := do
  let kept ← visit place
    (fun i x kept => do return (if ← ask c x i then x :: kept else kept, true)) []
  return ofList kept.reverse

/-- The index and the value of the first element that a predicate holds of. -/
def findEntry? : Action σ ArrayFault (Option (Nat × α)) :=
  visit place
    (fun i x _ => do
      let b ← ask c x i
      return (if b then Option.some (i, x) else none, !b)) none

def find? : Action σ ArrayFault (Option α) := do return (← findEntry? place c).map (·.2)

def findIndex? : Action σ ArrayFault (Option Nat) := do return (← findEntry? place c).map (·.1)

/-- A result as an element, or the complaint that it is of another kind. -/
def unpack [Element β] (r : Result) : Except ArrayFault β :=
  match Element.ofResult? r with
  | Option.some x => .ok x
  | none => .error (.wrongResult r.kind? (Element.kind β))

/-- The results of a callback, as an array of another kind. -/
def collect [Element β] : Action σ ArrayFault (Growable β) := do
  let results ← visit place
    (fun i x results => do
      let y ← .ofExcept (unpack (← c.onElement x i))
      return ((y : β) :: results, true)) []
  return ofList results.reverse

/-- Map the elements. The kind that the callback declares must be registered and must be the
one asked for, and there must be storage for the results. -/
def map [Memory] [Element β] (config : Config) : Action σ ArrayFault (Growable β) := do
  let n := (place.read (← get)).length
  if ¬ config.hasKind c.returns then throw (.unregistered c.returns)
  else if c.returns ≠ Element.kind β then
    throw (.wrongResult (Option.some c.returns) (Element.kind β))
  else if Memory.grants 0 n then collect place c
  else throw (.allocation n)

/-- Fold over the elements at given indices. An index that the array no longer has is
passed over. -/
def foldAt [Element α] : List Nat → α → Action σ ArrayFault α
  | [], acc => pure acc
  | i :: is, acc => do
    match (place.read (← get)).get? i with
    | none => foldAt is acc
    | Option.some x =>
      let acc ← .ofExcept (unpack (← c.onFold acc x i))
      foldAt is acc

def reduce [Element α] (init : α) : Action σ ArrayFault α := do
  foldAt place c (List.range (place.read (← get)).length) init

def reduceRight [Element α] (init : α) : Action σ ArrayFault α := do
  foldAt place c (List.range (place.read (← get)).length).reverse init

end ValueEngine.Growable
