import ValueEngine.Action
import ValueEngine.Fault
import ValueEngine.Memory
import ValueEngine.Value.Basic

/-! The elements of a dynamic array. They are dense: every index below the length holds a
value, and growing pads with undefined. Elements are changed in steps, and a change
that fails leaves them as they are by then. -/

namespace ValueEngine.Elements

/-- The first elements that an array may have. -/
def ofList (vs : List Value) : Array Value := (vs.take maxArrayLength).toArray

variable [Memory]

/-- Truncate, or pad with undefined when the storage for that is granted. -/
def resize (n : Nat) : Action (Array Value) Fault Unit := do
  let a ← get
  if maxArrayLength < n then throw (.lengthTooLarge n)
  else if n ≤ a.size then set (a.extract 0 n)
  else if Memory.grants a.size (n - a.size) then set (a ++ Array.replicate (n - a.size) .undefined)
  else throw (.cannotAllocate n)

def reach (i : Nat) : Action (Array Value) Fault Unit := do
  if (← get).size ≤ i then resize (i + 1) else return ()

/-- Store an element, padding up to it. -/
def store (i : Nat) (v : Value) : Action (Array Value) Fault Unit :=
  if maxArrayLength ≤ i then throw .indexOutOfRange
  else do
    reach i
    modify (·.setIfInBounds i v)

def setLength (a : Array Value) (n : Nat) : Except Fault (Array Value) := (resize n).final a

def withLength (n : Nat) : Except Fault (Array Value) := setLength #[] n

def set (a : Array Value) (i : Nat) (v : Value) : Except Fault (Array Value) := (store i v).final a

end ValueEngine.Elements
