import Mathlib.Data.Nat.Notation
import Mathlib.Logic.Relation
import ValueEngine.Engine.Call
import ValueEngine.Engine.Construction
import ValueEngine.Engine.Prototype
import ValueEngine.Engine.Reference
import ValueEngine.Proofs.Action

/-! The steps that an engine can take. A program changes an engine only by these, each
an operation of the engine that has succeeded, and so do the functions of a host
that conforms: whatever they do amounts to some steps. -/

namespace ValueEngine

variable [Library]

namespace Engine

/-- One change that can be made to an engine. -/
inductive Step (e : Engine) : Engine → Prop
  | assign {receiver v : Value} {name : String} {e' : Engine}
      (h : e.assign receiver name v = .ok (.stored e')) : Step e e'
  | define {id : ObjectId} {name : String} {d : Descriptor} {e' : Engine}
      (h : e.defineOwn id name d = .ok e') : Step e e'
  | delete {receiver : Value} {name : String} {answer : Bool} {e' : Engine}
      (h : e.delete receiver name = .ok (answer, e')) : Step e e'
  | setElement {receiver v : Value} {index : Int} {e' : Engine}
      (h : e.setElement receiver index v = .ok e') : Step e e'
  | setPrototype {v proto : Value} {e' : Engine} (h : e.setPrototype v proto = .ok e') : Step e e'
  | newObject : Step e (e.create (.ofClass .plain)).2
  | newArray : Step e (e.create (.ofClass (.array #[]))).2
  | createArray {n : ℕ} {b : Box} {e' : Engine} (h : e.createArray n = .ok (b, e')) : Step e e'
  | createWithPrototype {proto : Value} {b : Box} {e' : Engine}
      (h : e.createWithPrototype proto = .ok (b, e')) : Step e e'
  | createReference {tag : TypeTag} {handle environment : UInt64} {b : Box} {e' : Engine}
      (h : e.createReference tag handle environment = .ok (b, e')) : Step e e'
  | createNative (key : String) : Step e (e.createNative key).2
  | createSymbol (description : Option String) : Step e (e.createSymbol description).2
  | createText (bytes : List UInt8) (length : ℕ) : Step e (e.createText bytes length).2
  | parse {text : String} {b : Box} {e' : Engine} (h : e.parse text = .ok (b, e')) : Step e e'
  | box (v : Value) : Step e (e.box v).2
  | throwException (b : Box) : Step e (e.throwException b)
  | takeException : Step e e.takeException.2
  | registerDispatcher : Step e { e with hasDispatcher := true }

abbrev Steps : Engine → Engine → Prop := Relation.ReflTransGen Step

/-- An engine that has come about by steps from a new one. -/
def Reachable (e : Engine) : Prop := ∃ config, Steps (new config) e

theorem Reachable.steps {e e' : Engine} (he : e.Reachable) (h : Steps e e') : e'.Reachable := by
  obtain ⟨config, hconfig⟩ := he
  exact ⟨config, hconfig.trans h⟩

theorem Step.steps {e e' : Engine} (h : Step e e') : Steps e e' := Relation.ReflTransGen.single h

end Engine

open Engine (Step Steps)

variable {H α : Type}

/-- Whatever an operation does to the engine amounts to steps of the engine. -/
def Operation.Conforms (a : Operation H α) : Prop := ∀ w, Steps w.engine (a.outcome w).2.engine

/-- The functions of a host conform. -/
structure Host.Conforms (host : Host H) : Prop where
  native : ∀ name this args, (host.native name this args).Conforms
  dispatch : ∀ function environment this args,
    (host.dispatch function environment this args).Conforms

end ValueEngine
