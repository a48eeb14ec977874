import ValueEngine.Engine.Elements
import ValueEngine.Library

/-! Objects. An object has a class, a prototype link and a table of named properties. The
`length` and the elements of an array are properties too, but they are computed
from its elements and never stored in the table. -/

namespace ValueEngine

/-- What a function object runs: a function of the host, or an opaque host function in an
environment. A function of the host is told from all others by a key of its own; the name it
goes by is a label beside it, which nothing here reads, so two functions of one name have
two keys. -/
inductive Callable
  | native (key : String)
  | external (function environment : UInt64)
  deriving DecidableEq, Repr

inductive ObjectClass
  | plain
  | array (elements : Array Value)
  | function (f : Callable)
  deriving Inhabited

def ObjectClass.name : ObjectClass → String
  | plain => "Object"
  | array _ => "Array"
  | function _ => "Function"

structure Object where
  payload : ObjectClass
  prototype : Option ObjectId
  properties : Property.Table
  deriving Inhabited

namespace Object

variable [Library]

/-- An object without prototype and properties. -/
def ofClass (c : ObjectClass) : Object := ⟨c, none, .new⟩

def elements? (o : Object) : Option (Array Value) :=
  match o.payload with
  | .array elements => some elements
  | _ => none

def callable? (o : Object) : Option Callable :=
  match o.payload with
  | .function f => some f
  | _ => none

/-- The property of a name in the table. -/
def named? (o : Object) (name : String) : Option Property := o.properties.get? Library.hash name

/-- Names that an array answers from its elements. -/
def isElementName (name : String) : Bool := name = "length" || (Number.arrayIndex? name).isSome

def isVirtual (o : Object) (name : String) : Bool := o.elements?.isSome && isElementName name

/-- An own property, the virtual ones of arrays included. -/
def own? (o : Object) (name : String) : Option Property :=
  match o.elements? with
  | none => o.named? name
  | some elements =>
    if name = "length" then
      some ⟨name, .data (.number (Number.ofNat elements.size)), ⟨true, false, false⟩⟩
    else
      match (Number.arrayIndex? name).bind (elements[·]?) with
      | some v => some ⟨name, .data v, Flags.all⟩
      | none => o.named? name

def withElements (o : Object) (elements : Array Value) : Object :=
  { o with payload := .array elements }

def set (o : Object) (name : String) (v : Value) : Object :=
  { o with properties := (o.properties.set Library.hash name v).2 }

def define (o : Object) (name : String) (slot : Slot) (flags : Flags) : Object :=
  { o with properties := (o.properties.define Library.hash name slot flags).2 }

def erase (o : Object) (name : String) : Object :=
  { o with properties := (o.properties.erase Library.hash name).2 }

end Object

end ValueEngine
