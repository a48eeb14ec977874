import ValueEngine.Action
import ValueEngine.Growable.Basic
import ValueEngine.Text.Utf8
import ValueEngine.Value.Basic

/-! What passes between a growable array and the callbacks of its methods: arguments in a
fixed order, results that say their kind, and closures that declare the kind of
result they give. -/

namespace ValueEngine

/-- A single-precision number, kept as the double of the same value. -/
structure Single where
  value : Float
  deriving Inhabited

def Single.ofFloat (x : Float) : Single := ⟨Number.toSingle x⟩

/-- A string of the host: bytes that need not be well-formed text. -/
structure Bytes where
  list : List UInt8
  deriving DecidableEq, Inhabited

namespace Bytes

def ofString (s : String) : Bytes := ⟨Text.Utf8.encode s⟩

def text (b : Bytes) : String := Text.Utf8.decodeText b.list

end Bytes

/-- A handle of an object of the host. -/
structure HostRef where
  handle : UInt64
  deriving DecidableEq, Inhabited

inductive Argument (α : Type)
  | context (c : UInt64)
  | element (x : α)
  | index (i : Nat)
  /-- The array whose method is running. -/
  | receiver

inductive Result
  | void
  | f64 (x : Float)
  | f32 (x : Single)
  | i64 (n : Int64)
  | i32 (n : Int32)
  | bool (b : Bool)
  | any (b : Box)
  | str (s : Bytes)
  | ref (r : HostRef)

namespace Result

def kind? : Result → Option ElementKind
  | void => none
  | f64 _ => some .f64
  | f32 _ => some .f32
  | i64 _ => some .i64
  | i32 _ => some .i32
  | bool _ => some .bool
  | any _ => some .any
  | str _ => some .str
  | ref _ => some .ref

def kindName (r : Result) : String :=
  match r.kind? with
  | some k => k.name
  | none => "void"

/-- The answer of a predicate. -/
def truthy : Result → Except ArrayFault Bool
  | bool b => .ok b
  | i32 n => .ok (n ≠ 0)
  | any b => .ok b.value.truthy
  | r => .error (.wrongResult r.kind? .bool)

/-- The answer of a comparator. -/
def number : Result → Except ArrayFault Float
  | f64 x => .ok x
  | f32 x => .ok x.value
  | i64 n => .ok (Number.ofInt n.toInt)
  | i32 n => .ok (Number.ofInt n.toInt)
  | any ⟨_, .number x⟩ => .ok x
  | r => .error (.wrongResult r.kind? .f64)

end Result

/-- A callback with the context that is passed to it and the kind of result that it declares. -/
structure Closure (σ α : Type) where
  context : UInt64
  returns : ElementKind
  run : List (Argument α) → Action σ ArrayFault Result

namespace Closure

variable {σ α : Type}

def onElement (c : Closure σ α) (x : α) (i : Nat) : Action σ ArrayFault Result :=
  c.run [.context c.context, .element x, .index i, .receiver]

def onFold (c : Closure σ α) (acc x : α) (i : Nat) : Action σ ArrayFault Result :=
  c.run [.context c.context, .element acc, .element x, .index i, .receiver]

def onPair (c : Closure σ α) (pivot x : α) : Action σ ArrayFault Result :=
  c.run [.context c.context, .element pivot, .element x]

end Closure

end ValueEngine
