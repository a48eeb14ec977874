import ValueEngine.Engine.Update
import ValueEngine.Text.Utf8

/-! Building values: arrays of a length, what documents say, and strings from bytes. Every
list and object of a document becomes an object of its own, its parts before itself. -/

namespace ValueEngine.Engine

open Json (Document)

/-- Make an array of so many undefined elements. -/
def Update.createArray [Memory] (n : Nat) : Update Box := do
  ask (·.checkLength n)
  let elements ← .ofExcept (Elements.withLength n)
  make (·.create (.ofClass (.array elements)))

def createArray [Memory] (e : Engine) (n : Nat) : Except Fault (Box × Engine) :=
  (Update.createArray n).result e

variable [Library]

def createValue (e : Engine) (o : Object) : Value × Engine :=
  (.object e.objects.size, { e with objects := e.objects.push o })

mutual

/-- Build the value of a document. -/
def build (e : Engine) : Document → Value × Engine
  | .null => (.null, e)
  | .bool b => (.bool b, e)
  | .number x => (.number x, e)
  | .text s => (.string s, e)
  | .list items =>
    let (vs, e) := buildItems e items
    e.createValue (.ofClass (.array (Elements.ofList vs)))
  | .object fields =>
    let (ps, e) := buildFields e fields
    e.createValue (ps.foldl (fun o (key, v) => o.set key v) (.ofClass .plain))

def buildItems (e : Engine) : List Document → List Value × Engine
  | [] => ([], e)
  | d :: ds =>
    let (v, e) := build e d
    let (vs, e) := buildItems e ds
    (v :: vs, e)

def buildFields (e : Engine) : List (String × Document) → List (String × Value) × Engine
  | [] => ([], e)
  | f :: fs =>
    let (p, e) := buildField e f
    let (ps, e) := buildFields e fs
    (p :: ps, e)

def buildField (e : Engine) : String × Document → (String × Value) × Engine
  | (key, d) =>
    let (v, e) := build e d
    ((key, v), e)

end

/-- Read a document and build its value. -/
def Update.parse (s : String) : Update Box :=
  match Library.document? s with
  | some d => do
    let v ← make (·.build d)
    make (·.box v)
  | none => throw .malformedDocument

def parse (e : Engine) (s : String) : Except Fault (Box × Engine) := (Update.parse s).result e

/-- Make a string of the first bytes of a buffer, at most `length` of them. -/
def createText (e : Engine) (bytes : List UInt8) (length : Nat) : Box × Engine :=
  e.box (.string (Text.Utf8.decodeText (bytes.take length)))

end ValueEngine.Engine
