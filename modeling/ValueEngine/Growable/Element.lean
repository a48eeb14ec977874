import ValueEngine.Engine.Reference
import ValueEngine.Growable.Callback

/-! The element types of growable arrays. Each has its kind, recognises the callback
results of that kind and can be boxed into a dynamic value. -/

namespace ValueEngine

class Element (α : Type) extends Cell α where
  kind : ElementKind
  /-- The element in a result of this kind. -/
  ofResult? : Result → Option α
  /-- The element as a dynamic value. -/
  box : [Library] → α → Engine → Box × Engine

def boxNumber (x : Float) (e : Engine) : Box × Engine := e.box (.number x)

instance : Element Float where
  filler := Number.ofNat 0
  same := Number.equal
  kind := .f64
  ofResult?
    | .f64 x => some x
    | _ => none
  box := boxNumber

instance : Element Single where
  filler := ⟨Number.ofNat 0⟩
  same x y := Number.equal x.value y.value
  kind := .f32
  ofResult?
    | .f32 x => some x
    | _ => none
  box x := boxNumber x.value

instance : Element Int64 where
  filler := 0
  same m n := m == n
  kind := .i64
  ofResult?
    | .i64 n => some n
    | _ => none
  box n := boxNumber (Number.ofInt n.toInt)

instance : Element Int32 where
  filler := 0
  same m n := m == n
  kind := .i32
  ofResult?
    | .i32 n => some n
    | _ => none
  box n := boxNumber (Number.ofInt n.toInt)

instance : Element Bool where
  filler := false
  same a b := a == b
  kind := .bool
  ofResult?
    | .bool b => some b
    | _ => none
  box b e := e.box (.bool b)

/-- Dynamic values are elements as they are. -/
instance : Element Box where
  filler := Box.undefined
  same a b := a.value.same b.value
  kind := .any
  ofResult?
    | .any b => some b
    | _ => none
  box b e := (b, e)

instance : Element Bytes where
  filler := ⟨[]⟩
  same a b := a.list.length == b.list.length && a.list == b.list
  kind := .str
  ofResult?
    | .str s => some s
    | _ => none
  box s e := e.box (.string s.text)

/-- A handle is boxed as a reference to an external object. -/
instance : Element HostRef where
  filler := ⟨0⟩
  same a b := a.handle == b.handle
  kind := .ref
  ofResult?
    | .ref r => some r
    | _ => none
  box r e := e.createExternal .object r.handle 0

end ValueEngine
