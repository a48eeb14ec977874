import ValueEngine.Engine.External
import ValueEngine.Engine.Printing

/-! Comparing values. Values of one kind are compared by the rule of that kind; the left
operand selects the rule and the right one is converted to it. At the boundary to
compiled code, operands of different kinds are handled too, and references to
host objects are compared by the objects they resolve to. -/

namespace ValueEngine

inductive Operator
  | less
  | greater
  | atMost
  | atLeast
  | equal
  | unequal
  | identical
  | notIdentical
  deriving DecidableEq, Repr

namespace Operator

def all : List Operator :=
  [less, greater, atMost, atLeast, equal, unequal, identical, notIdentical]

def name : Operator → String
  | less => "LessThan"
  | greater => "GreaterThan"
  | atMost => "LessThanEquals"
  | atLeast => "GreaterThanEquals"
  | equal => "EqualsEquals"
  | unequal => "ExclamationEquals"
  | identical => "EqualsEqualsEquals"
  | notIdentical => "ExclamationEqualsEquals"

/-- The number of the operator among the tokens of the source language. -/
def token : Operator → Int
  | less => 29
  | greater => 31
  | atMost => 32
  | atLeast => 33
  | equal => 34
  | unequal => 35
  | identical => 36
  | notIdentical => 37

def ofToken? (n : Int) : Option Operator := all.find? (·.token = n)

/-- The operator holds of identical operands. -/
def holdsOfEqual : Operator → Bool
  | atMost | atLeast | equal | identical => true
  | less | greater | unequal | notIdentical => false

def isEquality : Operator → Bool
  | equal | identical => true
  | _ => false

def isInequality : Operator → Bool
  | unequal | notIdentical => true
  | _ => false

def isOrdering : Operator → Bool
  | less | greater | atMost | atLeast => true
  | _ => false

/-- Apply the operator to an ordering; there is none if the operands are unordered. -/
def test : Operator → Option Ordering → Bool
  | less, o => o == some .lt
  | greater, o => o == some .gt
  | atMost, o => o == some .lt || o == some .eq
  | atLeast, o => o == some .gt || o == some .eq
  | equal, o | identical, o => o == some .eq
  | unequal, o | notIdentical, o => o != some .eq

/-- Apply the operator where operands are only the same or not. An inequality asks for
difference and every other operator for sameness. -/
def testSame (op : Operator) (same : Bool) : Bool := if op.isInequality then !same else same

end Operator

/-- The order of byte strings: the first difference decides, and a prefix comes first. -/
def compareBytes : List UInt8 → List UInt8 → Ordering
  | [], [] => .eq
  | [], _ :: _ => .lt
  | _ :: _, [] => .gt
  | a :: as, b :: bs => (compare a.toNat b.toNat).then (compareBytes as bs)

namespace Engine

variable [Library]

def sameType (e : Engine) (l r : Value) : Bool := e.typeOf l = e.typeOf r

/-- Compare two boxes by the rule of the left one's kind. -/
def compare (e : Engine) (l r : Box) (op : Operator) : Bool :=
  if l.sameBox r then op.holdsOfEqual
  else
    match e.typeOf l.value with
    | .boolean => op.test (Ord.compare (l.value.bool?.getD false) (r.value.bool?.getD false))
    | .number => op.test (Number.order? (l.value.number?.getD (Number.ofNat 0))
        (r.value.number?.getD (Number.ofNat 0)))
    | .string =>
      op.test (compareBytes (Text.Utf8.encode (e.display l.value))
        (Text.Utf8.encode (e.display r.value)))
    | .null => op.holdsOfEqual
    | .undefined => op.isEquality
    | .object => op.testSame (l.value.same r.value)
    | _ => false

/-- The identity of the host object behind a value, if a table knows one. -/
def resolve (e : Engine) (table : UInt64 → Option UInt64) (v : Value) : Option UInt64 :=
  match e.toExternal v with
  | .ok (_, handle) => table handle
  | .error _ => none

/-- Compare two boxes as compiled code sees them: by their kind if that answers yes, and
otherwise anew. Undefined differs from every other kind, and so does a plain
value; null and references are compared by what a table resolves them to. -/
def compareAtBoundary (e : Engine) (l r : Box) (op : Operator) (table : UInt64 → Option UInt64) :
    Bool :=
  let left := e.typeOf l.value
  let right := e.typeOf r.value
  let plain (v : Value) (tag : TypeTag) := !v.isNull && !tag.isExternal
  if left = right ∧ e.compare l r op then true
  else if left ≠ right ∧ (left = .undefined ∨ right = .undefined) then op.isInequality
  else if plain l.value left || plain r.value right then left ≠ right && op.isInequality
  else op.testSame (e.resolve table l.value == e.resolve table r.value)

end Engine

end ValueEngine
