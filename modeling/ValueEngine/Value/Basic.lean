import ValueEngine.Number.Rounding
import ValueEngine.Value.Tag

/-! Dynamic values and the boxes that programs hold them in. Symbols and objects have an
identity, other values are their content. A box has an identity of its own,
apart from that of the value in it. -/

namespace ValueEngine

/-- Identity of an object: its place in the engine's list of objects. -/
abbrev ObjectId := Nat

structure Symbol where
  id : Nat
  description : Option String
  deriving DecidableEq, Repr, Inhabited

inductive Value
  | undefined
  | null
  | bool (b : Bool)
  | number (x : Float)
  | string (s : String)
  | symbol (s : Symbol)
  | object (id : ObjectId)
  deriving DecidableEq, Inhabited

namespace Value

/-- The tag of the value itself; external references are objects. -/
def tag : Value → TypeTag
  | undefined => .undefined
  | null => .null
  | bool _ => .boolean
  | number _ => .number
  | string _ => .string
  | symbol _ => .symbol
  | object _ => .object

def isUndefined : Value → Bool
  | undefined => true
  | _ => false

def isNull : Value → Bool
  | null => true
  | _ => false

def isNothing (v : Value) : Bool := v.isUndefined || v.isNull

def object? : Value → Option ObjectId
  | object id => some id
  | _ => none

def number? : Value → Option Float
  | number x => some x
  | _ => none

def bool? : Value → Option Bool
  | bool b => some b
  | _ => none

/-- The payload is shared between the boxes that hold the value. -/
def isCounted : Value → Bool
  | string _ | symbol _ | object _ => true
  | _ => false

/-- Undefined, null, `false`, the zeros, NaN and the empty string. -/
def isFalsy : Value → Bool
  | undefined | null => true
  | bool b => !b
  | number x => Number.isZero x || Number.isNaN x
  | string s => s = ""
  | symbol _ | object _ => false

def truthy (v : Value) : Bool := !v.isFalsy

/-- The same value: symbols and objects by identity, the rest by content, and NaN
is the same as nothing. -/
def same : Value → Value → Bool
  | undefined, undefined => true
  | null, null => true
  | bool a, bool b => a == b
  | number x, number y => Number.equal x y
  | string s, string t => s == t
  | symbol s, symbol t => s.id == t.id
  | object a, object b => a == b
  | _, _ => false

/-- Sameness under which NaN is the same as itself. -/
def sameOrBothNaN : Value → Value → Bool
  | number x, number y => (Number.isNaN x && Number.isNaN y) || Number.equal x y
  | v, w => v.same w

end Value

/-- A value in a box of its own identity. -/
structure Box where
  id : Nat
  value : Value
  deriving Inhabited

namespace Box

def sameBox (a b : Box) : Bool := a.id == b.id

def handleCount (b : Box) (held : List Box) : Nat := held.countP b.sameBox

end Box

end ValueEngine
