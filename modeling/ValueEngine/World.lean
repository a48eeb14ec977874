import ValueEngine.Engine.Update
import ValueEngine.Growable.Store

/-! The world that operations run in: an engine, a store of growable arrays and whatever
state the host keeps. The host supplies the functions that function objects run;
they act on the same world, so a function may change the objects and arrays that
the operation calling it works on. -/

namespace ValueEngine

structure World (H : Type) where
  engine : Engine
  arrays : Store
  host : H

abbrev Operation (H α : Type) := Action (World H) Fault α

/-- The functions of the host. Each is given the receiver and the arguments of its call. -/
structure Host (H : Type) where
  /-- The function of a key. -/
  native : String → Box → List Box → Operation H Box
  /-- The dispatcher, which runs an external function in its environment. A host that puts one
  dispatcher in the place of another keeps the present one in its state and asks it here. -/
  dispatch : UInt64 → UInt64 → Box → List Box → Operation H Box

namespace World

variable {H : Type}

def arraysPlace : Place (World H) Store :=
  ⟨arrays, fun s w => { w with arrays := s }, fun _ _ => rfl⟩

def hostPlace : Place (World H) H := ⟨host, fun h w => { w with host := h }, fun _ _ => rfl⟩

/-- Where the array of a number is kept. -/
def arrayPlace (k : ElementKind) (id : Nat) : Place (World H) (Growable k.Carrier) :=
  arraysPlace.within (Store.place k id)

end World

namespace Operation

variable {H α : Type}

/-- Ask the engine for something that does not change it. -/
def ask (f : Engine → Except Fault α) : Operation H α := do
  .ofExcept (f (← get).engine)

def make (f : Engine → α × Engine) : Operation H α := do
  let w ← get
  let (a, e) := f w.engine
  set { w with engine := e }
  return a

/-- Let the engine make something, or change nothing if it refuses. -/
def attempt (f : Engine → Except Fault (α × Engine)) : Operation H α := do
  let w ← get
  let (a, e) ← .ofExcept (f w.engine)
  set { w with engine := e }
  return a

/-- Let the engine update itself. What it has written stays, also when it fails. -/
def update (u : Engine.Update α) : Operation H α := do
  let w ← get
  let (r, e) := u.outcome w.engine
  set { w with engine := e }
  .ofExcept r

/-- Put a value into a box of its own. -/
def box (v : Value) : Operation H Box := make (·.box v)

end Operation

end ValueEngine
