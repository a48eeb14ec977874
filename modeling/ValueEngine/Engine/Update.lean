import ValueEngine.Engine.State

/-! Updates. What changes the objects of an engine is an action on the engine: it looks at
what it needs, step by step, and writes when it has seen enough. An update that fails
leaves the engine as it is by then, so what has been written before a failure stays. -/

namespace ValueEngine.Engine

/-- An action on an engine. -/
abbrev Update (α : Type) := Action Engine Fault α

namespace Update

variable {α : Type}

def look (f : Engine → α) : Update α := do return f (← get)

/-- Ask the engine for something that it may refuse. -/
def ask (f : Engine → Except Fault α) : Update α := do .ofExcept (f (← get))

def make (f : Engine → α × Engine) : Update α := modifyGet f

def write (id : ObjectId) (f : Object → Object) : Update Unit := do set ((← get).modify id f)

/-- Change the elements of an array. If that fails they are as the change has left them. -/
def changeElements (id : ObjectId) (a : Action (Array Value) Fault Unit) : Update Unit := do
  match ((← get).object id).elements? with
  | none => throw .notAnArray
  | some elements =>
    let (r, elements) := a.outcome elements
    write id (·.withElements elements)
    .ofExcept r

end Update

end ValueEngine.Engine
