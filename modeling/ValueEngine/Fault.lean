import ValueEngine.Growable.Kind
import ValueEngine.Number.Decimal
import ValueEngine.Value.Tag

/-! What can go wrong. A fault is recorded by its cause; its class, its status code and
its wording are functions of the cause. Faults of growable arrays include the
faults of the engine that their callbacks run into. -/

namespace ValueEngine

inductive FaultClass
  | typeError
  | exception
  deriving DecidableEq, Repr

/-- A fault of the engine, by its cause. -/
inductive Fault
  | notAnObject
  | notAnArray
  | negativeIndex
  | notANumber
  | notABoolean
  | notAFunction
  | descriptorNotObject
  | prototypeNotObject
  | setPrototypeOfNothing
  | readPrototypeOfNothing
  | instanceofNotObject
  | noPrototypeObject
  | notExternal
  | notExternalKind (tag : TypeTag)
  | readOnly (name : String)
  | onlyGetter (name : String)
  | cannotRedefine (name : String)
  | mixedDescriptor
  | halfNotFunction
  | accessorOnElement
  | invalidLength
  | lengthTooLarge (length : Nat)
  | lengthOverLimit (length limit : Nat)
  | cannotAllocate (length : Nat)
  | indexOutOfRange
  | circularChain
  | chainTooDeep
  | missingHandle
  | noDispatcher
  | malformedDocument
  | malformedConfig
  | raised (kind : FaultClass) (text : String)
  deriving DecidableEq, Repr

namespace Fault

def kind : Fault → FaultClass
  | notAnObject | notAnArray | negativeIndex | notANumber | notABoolean | notAFunction
  | descriptorNotObject | prototypeNotObject | setPrototypeOfNothing | readPrototypeOfNothing
  | instanceofNotObject | noPrototypeObject | notExternal | notExternalKind _ => .typeError
  | raised kind _ => kind
  | _ => .exception

/-- The wording of a fault, without its class. -/
def text : Fault → String
  | notAnObject => "not an object"
  | notAnArray => "not an array"
  | negativeIndex => "negative array index"
  | notANumber => "value is not a number"
  | notABoolean => "value is not a boolean"
  | notAFunction => "value is not a function"
  | descriptorNotObject => "property descriptor is not an object"
  | prototypeNotObject => "prototype must be an object or null"
  | setPrototypeOfNothing => "cannot set prototype of null or undefined"
  | readPrototypeOfNothing => "cannot read prototype of null or undefined"
  | instanceofNotObject => "right-hand side of instanceof is not an object"
  | noPrototypeObject => "function has no prototype object"
  | notExternal => "value is not an external reference"
  | notExternalKind tag => tag.name ++ " is not an external kind"
  | readOnly name => "property '" ++ name ++ "' is read-only"
  | onlyGetter name => "property '" ++ name ++ "' has only a getter"
  | cannotRedefine name => "cannot redefine property '" ++ name ++ "'"
  | mixedDescriptor =>
    "invalid property descriptor: accessors cannot have a value or be writable"
  | halfNotFunction => "getter or setter is not a function"
  | accessorOnElement => "cannot define an accessor on an array element"
  | invalidLength => "invalid array length"
  | lengthTooLarge length => "invalid array length " ++ Number.decimalText length
  | lengthOverLimit length limit =>
    "array length " ++ Number.decimalText length ++ " exceeds the limit of " ++
      Number.decimalText limit
  | cannotAllocate length => "cannot allocate array of length " ++ Number.decimalText length
  | indexOutOfRange => "array index out of range"
  | circularChain => "circular prototype chain"
  | chainTooDeep => "prototype chain too deep"
  | missingHandle => "external reference has no handle"
  | noDispatcher => "no callback dispatcher registered"
  | malformedDocument => "JSON parse error"
  | malformedConfig => "invalid engine config"
  | raised _ text => text

end Fault

def FaultClass.name : FaultClass → String
  | typeError => "TypeError"
  | exception => "Exception"

/-- The status code that reports a class of faults. -/
def FaultClass.code : FaultClass → Int
  | typeError => -2
  | exception => -1

def Fault.message (f : Fault) : String := f.kind.name ++ ": " ++ f.text

def Fault.code (f : Fault) : Int := f.kind.code

namespace Status

/-- An answer as one number: 1 for yes, 0 for no, a negative code for a fault. -/
def triState : Except Fault Bool → Int
  | .ok true => 1
  | .ok false => 0
  | .error f => f.code

/-- The status of a yes-or-no operation; a negative answer has a code of its own. -/
def ofAnswer : Except Fault Bool → Int
  | .ok true => 0
  | .ok false => -3
  | .error f => f.code

/-- The status of an operation whose result does not matter. -/
def ofOutcome {α : Type} : Except Fault α → Int
  | .ok _ => 0
  | .error f => f.code

end Status

inductive ArrayFault
  | empty
  | allocation (requested : Nat)
  | unregistered (kind : ElementKind)
  /-- A callback answered with a result of another kind; a result may also be none. -/
  | wrongResult (found : Option ElementKind) (expected : ElementKind)
  | engine (fault : Fault)
  deriving DecidableEq, Repr

def ArrayFault.message : ArrayFault → String
  | empty => "array is empty"
  | allocation n => "failed to allocate storage for " ++ Number.decimalText n ++ " elements"
  | unregistered kind => "no growable array type registered for " ++ kind.title ++ " elements"
  | wrongResult found expected =>
    let found := match found with
      | some kind => kind.name
      | none => "void"
    "callback returned " ++ found ++ ", expected " ++ expected.name
  | engine f => f.message

end ValueEngine
