import ValueEngine.Engine.Update

/-! Making references to objects of the host. A reference is an object with two hidden
number properties, its kind and its handle, that can be neither changed nor
listed; the reference to a function is a function object. -/

namespace ValueEngine.Engine

variable [Library]

/-- The hidden property that holds the kind. -/
def kindName : String := "@tag"

/-- The hidden property that holds the handle. -/
def handleName : String := "@ref"

def referencePayload (kind : ExternalKind) (handle environment : UInt64) : ObjectClass :=
  match kind with
  | .function => .function (.external handle environment)
  | _ => .plain

def referenceObject (kind : ExternalKind) (handle environment : UInt64) : Object :=
  ((Object.ofClass (referencePayload kind handle environment)).define kindName
    (.data (.number (Number.ofNat kind.code))) Flags.none).define handleName
    (.data (.number (Number.ofNat handle.toNat))) Flags.none

def createExternal (e : Engine) (kind : ExternalKind) (handle environment : UInt64) :
    Box × Engine :=
  e.create (referenceObject kind handle environment)

/-- Make a reference whose kind is given by its tag. -/
def Update.createReference (tag : TypeTag) (handle environment : UInt64) : Update Box :=
  match ExternalKind.ofTag? tag with
  | some kind => make (·.createExternal kind handle environment)
  | none => throw (.notExternalKind tag)

def createReference (e : Engine) (tag : TypeTag) (handle environment : UInt64) :
    Except Fault (Box × Engine) :=
  (Update.createReference tag handle environment).result e

def createNative (e : Engine) (key : String) : Box × Engine :=
  e.create (.ofClass (.function (.native key)))

end ValueEngine.Engine
