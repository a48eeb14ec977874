/-! Type tags of dynamic values. The four external tags name the kinds of host objects
that a reference can stand for; each kind has a code under which the reference
remembers it. -/

namespace ValueEngine

inductive TypeTag
  | undefined
  | null
  | boolean
  | number
  | string
  | object
  | symbol
  | externalObject
  | externalFunction
  | externalInterface
  | externalArray
  | unknown
  deriving DecidableEq, Repr

namespace TypeTag

def all : List TypeTag :=
  [undefined, null, boolean, number, string, object, symbol, externalObject, externalFunction,
    externalInterface, externalArray, unknown]

def name : TypeTag → String
  | undefined => "Undefined"
  | null => "Null"
  | boolean => "Boolean"
  | number => "Number"
  | string => "String"
  | object => "Object"
  | symbol => "Symbol"
  | externalObject => "ExternalObject"
  | externalFunction => "ExternalFunction"
  | externalInterface => "ExternalInterface"
  | externalArray => "ExternalArray"
  | unknown => "Unknown"

def ofName? (s : String) : Option TypeTag := all.find? (·.name = s)

def code (t : TypeTag) : Nat := all.idxOf t

def isExternal : TypeTag → Bool
  | externalObject | externalFunction | externalInterface | externalArray => true
  | _ => false

/-- What the source language's `typeof` says of a value with this tag. -/
def typeofName : TypeTag → String
  | undefined | unknown => "undefined"
  | boolean => "boolean"
  | number => "number"
  | string => "string"
  | symbol => "symbol"
  | externalFunction => "function"
  | null | object | externalObject | externalInterface | externalArray => "object"

end TypeTag

/-- The kinds of host objects that an external reference stands for. -/
inductive ExternalKind
  | object
  | function
  | interface
  | array
  deriving DecidableEq, Repr

namespace ExternalKind

def all : List ExternalKind := [object, function, interface, array]

/-- The number stored in a reference. -/
def code (k : ExternalKind) : Nat := all.idxOf k

def ofCode? (n : Nat) : Option ExternalKind := all[n]?

def tag : ExternalKind → TypeTag
  | object => .externalObject
  | function => .externalFunction
  | interface => .externalInterface
  | array => .externalArray

def ofTag? (t : TypeTag) : Option ExternalKind := all.find? (·.tag = t)

def shortName : ExternalKind → String
  | object => "ExtObj"
  | function => "ExtFunc"
  | interface => "ExtInfc"
  | array => "ExtArray"

end ExternalKind

end ValueEngine
