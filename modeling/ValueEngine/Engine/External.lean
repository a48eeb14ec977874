import ValueEngine.Engine.Lookup
import ValueEngine.Engine.Reference

/-! Recognising references to objects of the host. The kind and the handle are read along
the prototype chain, so an object that inherits from a reference passes for one. -/

namespace ValueEngine.Engine

variable [Library]

/-- A number property found along the prototype chain. -/
def hiddenNumber? (e : Engine) (id : ObjectId) (name : String) : Option Float :=
  match e.lookup id name with
  | .ok (some p) => p.slot.value?.bind Value.number?
  | _ => none

def externalKind? (e : Engine) (id : ObjectId) : Option ExternalKind := do
  ExternalKind.ofCode? (Number.toUInt8 (← e.hiddenNumber? id kindName)).toNat

def isExternal (e : Engine) (v : Value) : Bool := (v.object?.bind e.externalKind?).isSome

/-- The tag of a value, that of its kind for a reference. -/
def typeOf (e : Engine) (v : Value) : TypeTag :=
  match v.object?.bind e.externalKind? with
  | some kind => kind.tag
  | none => v.tag

/-- What the source language's `typeof` says of a value. -/
def typeofName (e : Engine) (v : Value) : String :=
  if e.isFunction v then "function" else (e.typeOf v).typeofName

def toExternal (e : Engine) (v : Value) : Except Fault (ExternalKind × UInt64) :=
  match v with
  | .object id =>
    match e.externalKind? id, e.hiddenNumber? id handleName with
    | none, _ => .error .notExternal
    | some _, none => .error .missingHandle
    | some kind, some handle => .ok (kind, Number.toUInt64 handle)
  | _ => .error .notExternal

end ValueEngine.Engine
