import ValueEngine.Engine.Call
import ValueEngine.Engine.External
import ValueEngine.Engine.Printing
import ValueEngine.Growable.Traversal

/-! Function values as callbacks of growable arrays. A function gets the elements and the
index of a call as dynamic values, and its result is converted to the kind that
the closure declares. -/

namespace ValueEngine

/-- The arguments that a function gets: elements and indices, boxed in order. -/
def boxArguments {α : Type} [Element α] : List (Argument α) → Engine → List Box × Engine
  | [], e => ([], e)
  | .element x :: rest, e =>
    let (b, e) := Element.box x e
    let (bs, e) := boxArguments rest e
    (b :: bs, e)
  | .index i :: rest, e =>
    let (b, e) := e.box (.number (Number.ofNat i))
    let (bs, e) := boxArguments rest e
    (b :: bs, e)
  | .context _ :: rest, e => boxArguments rest e
  | .receiver :: rest, e => boxArguments rest e

/-- A dynamic value as a result of a given kind. -/
def Result.ofBox (b : Box) (kind : ElementKind) (e : Engine) : Except Fault Result :=
  match kind with
  | .f64 => b.value.toNumber.map .f64
  | .f32 => b.value.toNumber.map fun x => .f32 (.ofFloat x)
  | .i64 => b.value.toNumber.map fun x => .i64 (Number.toInt64 x)
  | .i32 => b.value.toNumber.map fun x => .i32 (Number.toInt32 x)
  | .bool => .ok (.bool b.value.truthy)
  | .any => .ok (.any b)
  | .str => .ok (.str (.ofString (e.display b.value)))
  | .ref => (e.toExternal b.value).map fun (_, handle) => .ref ⟨handle⟩

variable {H α : Type} [Element α]

/-- Call a function value with an undefined receiver of its own. -/
def callBoxed (host : Host H) (f : Box) (returns : ElementKind) (args : List (Argument α)) :
    Operation H Result := do
  let args ← Operation.make (boxArguments args)
  let this ← Operation.box .undefined
  let b ← Operation.call host f this args
  Operation.ask (Result.ofBox b returns)

/-- A function value as a closure. Its context is the number of the function object. -/
def Closure.ofFunction (host : Host H) (f : Box) (returns : ElementKind) : Closure (World H) α where
  context := .ofNat (f.value.object?.getD 0)
  returns
  run args := (callBoxed host f returns args).mapError .engine

/-- The first element that a predicate holds of, boxed, or undefined. -/
def Growable.findBoxed (place : Place (World H) (Growable α)) (c : Closure (World H) α) :
    Action (World H) ArrayFault Box := do
  match ← find? place c with
  | Option.some x => (Operation.make (Element.box x)).mapError .engine
  | none => return Box.undefined

end ValueEngine
