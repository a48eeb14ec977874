import ValueEngine.Engine.Lookup
import ValueEngine.Engine.Update

/-! Reading, assigning and deleting properties, as far as no function runs. Where an
accessor is met, the answer names the function that has to run. The `length` and
the elements of an array are assigned before any other property is looked at. -/

namespace ValueEngine.Engine

variable [Library]

/-- What reading a property comes to. -/
inductive Reading
  | absent
  | value (v : Value)
  | getter (f : Value)
  /-- An accessor without getter. -/
  | unreadable

def Reading.ofSlot : Slot → Reading
  | .data v => .value v
  | .accessor (some f) _ => .getter f
  | .accessor none _ => .unreadable

def read (e : Engine) (v : Value) (name : String) : Except Fault Reading := do
  match ← e.lookup (← v.toObject) name with
  | some p => return .ofSlot p.slot
  | none => return .absent

/-- An own property, prototypes left aside. -/
def readOwn (e : Engine) (v : Value) (name : String) : Except Fault (Option Slot) := do
  return ((e.object (← v.toObject)).own? name).map (·.slot)

def elementsOf (e : Engine) (v : Value) : Except Fault (ObjectId × Array Value) :=
  match v with
  | .object id =>
    match (e.object id).elements? with
    | some elements => .ok (id, elements)
    | none => .error .notAnArray
  | _ => .error .notAnArray

/-- The length that a value may give to an array. -/
def length? (v : Value) : Option Nat :=
  (v.number?.bind Number.natural?).filter (· ≤ maxArrayLength)

/-- Read an element of an array; there is none outside of it. -/
def getElement (e : Engine) (receiver : Value) (index : Int) : Except Fault (Option Value) := do
  let (_, elements) ← e.elementsOf receiver
  return if index < 0 then none else elements[index.toNat]?

namespace Update

/-- Delete an own property. The answer is no if there is no such property at all or if it
cannot be deleted, and yes if it is only inherited. -/
def delete (receiver : Value) (name : String) : Update Bool := do
  match receiver with
  | .object id =>
    if ¬ (← ask (·.has receiver name)) then return false
    else if ← look fun e => (e.object id).isVirtual name then return false
    else
      match ← look fun e => (e.object id).named? name with
      | none => return true
      | some p =>
        if p.flags.configurable then do
          write id (·.erase name)
          return true
        else return false
  | _ => return false

variable [Memory]

def storeElement (id : ObjectId) (i : Nat) (v : Value) : Update Unit := do
  ask (·.checkLength (i + 1))
  changeElements id (Elements.store i v)

def setLength (id : ObjectId) (v : Value) : Update Unit := do
  match length? v with
  | none => throw .invalidLength
  | some n => do
    ask (·.checkLength n)
    changeElements id (Elements.resize n)

/-- Assign the length or an element of an array. Answers whether the name is that of one. -/
def assignVirtual (id : ObjectId) (name : String) (v : Value) : Update Bool := do
  match ← look fun e => (e.object id).elements? with
  | none => return false
  | some _ =>
    if name = "length" then do
      setLength id v
      return true
    else
      match Number.arrayIndex? name with
      | none => return false
      | some i => do
        storeElement id i v
        return true

/-- Assign to a name that is not the length or an element of an array. The property met
first decides; if there is none, or one that can be written, the object gets the
value as a property of its own. If a setter is met it is the answer, and nothing is
written. -/
def assignNamed (id : ObjectId) (name : String) (v : Value) : Update (Option Value) := do
  match ← ask (·.lookup id name) with
  | some ⟨_, .accessor _ (some f), _⟩ => return some f
  | some ⟨_, .accessor _ none, _⟩ => throw (.onlyGetter name)
  | some ⟨_, .data _, flags⟩ =>
    if flags.writable then do
      write id (·.set name v)
      return none
    else throw (.readOnly name)
  | none => do
    write id (·.set name v)
    return none

def assign (receiver : Value) (name : String) (v : Value) : Update (Option Value) := do
  let id ← .ofExcept receiver.toObject
  if ← assignVirtual id name v then return none else assignNamed id name v

def setElement (receiver : Value) (index : Int) (v : Value) : Update Unit := do
  let (id, _) ← ask (·.elementsOf receiver)
  if index < 0 then throw .negativeIndex else storeElement id index.toNat v

end Update

/-- What assigning to a property comes to. -/
inductive Assignment
  | stored (e : Engine)
  | setter (f : Value)

def Assignment.ofResult : Option Value × Engine → Assignment
  | (none, e) => .stored e
  | (some f, _) => .setter f

def delete (e : Engine) (receiver : Value) (name : String) : Except Fault (Bool × Engine) :=
  (Update.delete receiver name).result e

variable [Memory]

def assign (e : Engine) (receiver : Value) (name : String) (v : Value) : Except Fault Assignment :=
  ((Update.assign receiver name v).result e).map .ofResult

def setElement (e : Engine) (receiver : Value) (index : Int) (v : Value) : Except Fault Engine :=
  (Update.setElement receiver index v).final e

end ValueEngine.Engine
