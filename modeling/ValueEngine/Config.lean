import ValueEngine.Fault
import ValueEngine.Json.Document

/-! Engine settings and the documents they are read from. A document is an object whose
unknown fields are skipped and whose missing fields take their defaults, or a
list of the settings in order. -/

namespace ValueEngine

structure Config where
  /-- Element kinds that have a registered growable array type. -/
  arrayKinds : List ElementKind
  /-- The longest prototype chain that any walk follows. -/
  maxPrototypeDepth : Nat
  /-- The largest length that a dynamic array may be padded to. -/
  maxArrayLength : Nat
  deriving DecidableEq, Repr, Inhabited

namespace Config

open Json

def standard : Config := ⟨ElementKind.all, 1024, ValueEngine.maxArrayLength⟩

def hasKind (c : Config) (k : ElementKind) : Bool := c.arrayKinds.contains k

def lengthLimit (c : Config) : Nat := min c.maxArrayLength ValueEngine.maxArrayLength

/-- An element kind is its name, or an object of that one field with no content. -/
def kind? : Term → Option ElementKind
  | .text ps => (Piece.text? ps).bind ElementKind.ofName?
  | .object [(key, .null)] => (Piece.text? key).bind ElementKind.ofName?
  | _ => none

def kinds? : Term → Option (List ElementKind)
  | .list ts => ts.mapM kind?
  | _ => none

/-- A natural number of at most so many bits. -/
def natural? (bits : Nat) : Term → Option Nat
  | .number n => n.natural?.filter (· < 1 <<< bits)
  | _ => none

/-- Which settings a document has given so far. -/
structure Given where
  arrayKinds : Option (List ElementKind) := none
  maxPrototypeDepth : Option Nat := none
  maxArrayLength : Option Nat := none

def Given.config (g : Given) : Config :=
  ⟨g.arrayKinds.getD standard.arrayKinds, g.maxPrototypeDepth.getD standard.maxPrototypeDepth,
    g.maxArrayLength.getD standard.maxArrayLength⟩

/-- Take in a field. A setting must not be given twice. -/
def Given.field? (g : Given) (key : String) (t : Term) : Option Given :=
  if key = "array_kinds" then
    if g.arrayKinds.isSome then none
    else (kinds? t).map fun ks => { g with arrayKinds := some ks }
  else if key = "max_prototype_depth" then
    if g.maxPrototypeDepth.isSome then none
    else (natural? 64 t).map fun n => { g with maxPrototypeDepth := some n }
  else if key = "max_array_length" then
    if g.maxArrayLength.isSome then none
    else (natural? 32 t).map fun n => { g with maxArrayLength := some n }
  else some g

def Given.member? (g : Given) (f : List Piece × Term) : Option Given :=
  (Piece.text? f.1).bind fun key => g.field? key f.2

def ofTerm? : Term → Option Config
  | .object fields =>
    (fields.foldlM Given.member? {}).map Given.config
  | .list ts =>
    match ts with
    | [] => some standard
    | [a] => do return Given.config { arrayKinds := ← kinds? a }
    | [a, b] => do
      return Given.config { arrayKinds := ← kinds? a, maxPrototypeDepth := ← natural? 64 b }
    | [a, b, c] => do
      return ⟨← kinds? a, ← natural? 64 b, ← natural? 32 c⟩
    | _ => none
  | _ => none

def parse (s : String) : Except Fault Config :=
  match (Term.parse? s).bind ofTerm? with
  | some c => .ok c
  | none => .error .malformedConfig

def render (c : Config) : String :=
  let kinds := ",".intercalate (c.arrayKinds.map fun k => "\"" ++ k.name ++ "\"")
  "\x7b\"array_kinds\":[" ++ kinds ++ "],\"max_prototype_depth\":" ++
    Number.decimalText c.maxPrototypeDepth ++ ",\"max_array_length\":" ++
    Number.decimalText c.maxArrayLength ++ "\x7d"

end Config

end ValueEngine
