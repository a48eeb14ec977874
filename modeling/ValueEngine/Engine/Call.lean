import ValueEngine.Engine.Descriptor
import ValueEngine.World

/-! Operations that may run functions: calling a value, reading a property through its
getter, assigning one through its setter and defining one by a descriptor object,
whose parts are read like any other property. -/

namespace ValueEngine.Operation

variable [Library] {H : Type} (host : Host H)

/-- The wording under which a call without dispatcher becomes the pending exception. -/
def throwNoDispatcher : Operation H Box := do
  let text ← box (.string Fault.noDispatcher.text)
  modify fun w => { w with engine := w.engine.throwException text }
  throw .noDispatcher

def callValue (f : Value) (this : Box) (args : List Box) : Operation H Box := do
  match (← get).engine.callable? f with
  | none => throw .notAFunction
  | some (.native key) => host.native key this args
  | some (.external function environment) =>
    if (← get).engine.hasDispatcher then host.dispatch function environment this args
    else throwNoDispatcher

def call (f this : Box) (args : List Box) : Operation H Box := callValue host f.value this args

/-- Read a property. A getter runs with the receiver as its receiver; an accessor
without one reads as undefined. -/
def getProperty (receiver : Box) (name : String) : Operation H (Option Box) := do
  match ← ask (·.read receiver.value name) with
  | .absent => return none
  | .value v => return some (← box v)
  | .getter f => return some (← callValue host f receiver [])
  | .unreadable => return some Box.undefined

/-- Assign a property. A setter runs with the receiver as its receiver and the value as
its one argument; its result does not matter. -/
def setProperty [Memory] (receiver : Box) (name : String) (v : Box) : Operation H Unit := do
  match ← update (.assign receiver.value name v.value) with
  | none => return ()
  | some f => discard (callValue host f receiver [v])

/-- A part of a descriptor object, if it has one. -/
def descriptorPart (desc : Box) (name : String) : Operation H (Option Value) := do
  return (← getProperty host desc name).map (·.value)

/-- Read a descriptor object, its parts in a fixed order. -/
def readDescriptor (desc : Box) : Operation H Descriptor := do
  let value ← descriptorPart host desc "value"
  let writable ← descriptorPart host desc "writable"
  let getter ← descriptorPart host desc "get"
  let setter ← descriptorPart host desc "set"
  let enumerable ← descriptorPart host desc "enumerable"
  let configurable ← descriptorPart host desc "configurable"
  return ⟨value, writable.map (·.truthy), getter, setter, enumerable.map (·.truthy),
    configurable.map (·.truthy)⟩

def defineProperty [Memory] (receiver : Box) (name : String) (desc : Box) : Operation H Unit := do
  let id ← .ofExcept receiver.value.toObject
  if desc.value.object?.isNone then throw .descriptorNotObject
  let d ← readDescriptor host desc
  update (.define id name d)

/-- What stands for a type on the right of `instanceof`: the object in the `prototype`
property of a function, or any other object itself. -/
def instanceTarget (type : Box) : Operation H (Option ObjectId) := do
  match type.value with
  | .object id =>
    if (← get).engine.isFunction type.value then
      match ← getProperty host type "prototype" with
      | none => return none
      | some p =>
        match p.value with
        | .object target => return some target
        | _ => throw .noPrototypeObject
    else return some id
  | _ => throw .instanceofNotObject

/-- Whether a type is on the prototype chain of a value. -/
def instanceOf (v type : Box) : Operation H Bool := do
  match ← instanceTarget host type, v.value with
  | some target, .object id =>
    ask fun e => e.leadsTo target e.config.maxPrototypeDepth (e.prototype? id)
  | _, _ => return false

end ValueEngine.Operation
