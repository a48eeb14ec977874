import ValueEngine.Json.Term

/-! The content of a JSON document. Numbers are doubles, strings are decoded, and the
fields of an object have distinct keys in ascending order, a repeated key keeping
its last value. Nesting is bounded. -/

namespace ValueEngine.Json

inductive Document
  | null
  | bool (b : Bool)
  | number (x : Float)
  | text (s : String)
  | list (items : List Document)
  | object (fields : List (String × Document))

namespace Document

/-- Lists and objects may nest this deep. -/
def nestingLimit : Nat := 127

/-- Put a field into ascending fields, replacing one of the same key. -/
def insertField (key : String) (d : Document) : List (String × Document) → List (String × Document)
  | [] => [(key, d)]
  | (k, e) :: rest =>
    match compare key k with
    | .lt => (key, d) :: (k, e) :: rest
    | .eq => (key, d) :: rest
    | .gt => (k, e) :: insertField key d rest

def sortFields (fields : List (String × Document)) : List (String × Document) :=
  fields.foldl (fun fs (k, d) => insertField k d fs) []

/-- The content of a term whose lists and objects nest at most `room` deep. -/
def ofTerm? : (room : Nat) → Term → Option Document
  | _, .null => some .null
  | _, .bool b => some (.bool b)
  | _, .number n => n.double?.map .number
  | _, .text ps => (Piece.text? ps).map .text
  | 0, .list _ => none
  | 0, .object _ => none
  | room + 1, .list ts => (ts.mapM (ofTerm? room)).map .list
  | room + 1, .object fields =>
    (fields.mapM fun (key, t) => do return (← Piece.text? key, ← ofTerm? room t)).map
      fun fs => .object (sortFields fs)

def parse? (s : String) : Option Document := do
  ofTerm? nestingLimit (← Term.parse? s)

def parseNumbers? (s : String) : Option (List Float) :=
  match Term.parse? s with
  | some (.list ts) => ts.mapM fun
    | .number n => n.double?
    | _ => none
  | _ => none

end Document

end ValueEngine.Json
