import ValueEngine.Config
import ValueEngine.Engine.Object

/-! The state of an engine: its settings, all objects ever made, the pending exception and
the counters that give boxes and symbols their identity. -/

namespace ValueEngine

/-- The one box that all handles to undefined share. -/
def Box.undefined : Box := ⟨0, .undefined⟩

/-- The one box that all handles to null share. -/
def Box.null : Box := ⟨1, .null⟩

structure Engine where
  config : Config
  objects : Array Object
  boxes : Nat
  symbols : Nat
  pending : Option Box
  /-- A dispatcher for external functions is registered. Which one it is belongs to the state of
  the host. -/
  hasDispatcher : Bool
  deriving Inhabited

namespace Engine

def new (config : Config) : Engine := ⟨config, #[], 2, 0, none, false⟩

def object (e : Engine) (id : ObjectId) : Object := (e.objects[id]?).getD default

def modify (e : Engine) (id : ObjectId) (f : Object → Object) : Engine :=
  { e with objects := e.objects.modify id f }

/-- Put a value into a box of its own. -/
def box (e : Engine) (v : Value) : Box × Engine := (⟨e.boxes, v⟩, { e with boxes := e.boxes + 1 })

def create (e : Engine) (o : Object) : Box × Engine :=
  box { e with objects := e.objects.push o } (.object e.objects.size)

theorem object_modify_self (e : Engine) {id : ObjectId} (f : Object → Object)
    (h : id < e.objects.size) : (e.modify id f).object id = f (e.object id) := by
  simp [object, modify, h, Array.getElem_modify]

theorem object_modify_of_ne (e : Engine) {id other : ObjectId} (f : Object → Object)
    (h : id ≠ other) : (e.modify id f).object other = e.object other := by
  simp [object, modify, Array.getElem?_modify, h]

theorem object_create_self (e : Engine) (o : Object) :
    (e.create o).2.object e.objects.size = o := by
  simp [object, create, box]

def createSymbol (e : Engine) (description : Option String) : Box × Engine :=
  box { e with symbols := e.symbols + 1 } (.symbol ⟨e.symbols, description⟩)

/-- An array is refused when it would be longer than the settings allow. -/
def checkLength (e : Engine) (n : Nat) : Except Fault Unit :=
  if e.config.lengthLimit < n then .error (.lengthOverLimit n e.config.lengthLimit) else .ok ()

def isArray (e : Engine) (v : Value) : Bool :=
  v.object?.any fun id => (e.object id).elements?.isSome

/-- What a value runs when it is called. -/
def callable? (e : Engine) (v : Value) : Option Callable :=
  v.object?.bind fun id => (e.object id).callable?

def isFunction (e : Engine) (v : Value) : Bool := (e.callable? v).isSome

/-- Record a pending exception in place of any earlier one. -/
def throwException (e : Engine) (b : Box) : Engine := { e with pending := some b }

def takeException (e : Engine) : Option Box × Engine := (e.pending, { e with pending := none })

/-- The handles that the engine itself holds. -/
def held (e : Engine) : List Box := Box.undefined :: Box.null :: e.pending.toList

end Engine

namespace Value

def toNumber : Value → Except Fault Float
  | number x => .ok x
  | _ => .error .notANumber

def toBool : Value → Except Fault Bool
  | bool b => .ok b
  | _ => .error .notABoolean

/-- The object that an operation is applied to. -/
def toObject : Value → Except Fault ObjectId
  | object id => .ok id
  | _ => .error .notAnObject

end Value

end ValueEngine
