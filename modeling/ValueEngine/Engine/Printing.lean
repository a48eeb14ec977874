import ValueEngine.Engine.State
import ValueEngine.Number.Layout
import ValueEngine.Storage
import ValueEngine.Text.Quoted
import ValueEngine.Text.Utf8

/-! Texts of values. The display text is what string conversion gives; the inspection
text quotes strings and shows what objects hold. Both go only a few objects deep,
so they end on objects that contain themselves. The description names the box
and the kind of a plain value. -/

namespace ValueEngine

open Number (Layout)

/-- Objects that a text goes through, one inside another. -/
def printDepth : Nat := 4

def Symbol.display (s : Symbol) : String := "Symbol(" ++ s.description.getD "" ++ ")"

/-- The text of a value without the help of an engine; objects have none. -/
def Value.plainText : Value → String
  | .undefined => "undefined"
  | .null => "null"
  | .bool b => if b then "true" else "false"
  | .number x => Number.display x
  | .string s => s
  | .symbol s => s.display
  | .object _ => ""

namespace Engine

/-- The display text, going through at most `room` arrays. Undefined and null elements
show nothing. -/
def displayWithin (e : Engine) : (room : Nat) → Value → String
  | room, .object id =>
    match (e.object id).payload with
    | .function _ => "function () \x7b [native code] \x7d"
    | .plain => "[object Object]"
    | .array elements =>
      match room with
      | 0 => ""
      | room + 1 =>
        ",".intercalate (elements.toList.map fun v =>
          if v.isNothing then "" else displayWithin e room v)
  | _, v => v.plainText

def display (e : Engine) (v : Value) : String := e.displayWithin printDepth v

/-- Entries between brackets, with blanks inside unless there are none. -/
def bracketed (left right : String) (entries : List String) : String :=
  if entries.isEmpty then left ++ right
  else left ++ " " ++ ", ".intercalate entries ++ " " ++ right

def entryText (inspect : Value → String) (p : Property) : String :=
  p.key ++ ": " ++
    match p.slot with
    | .data v => inspect v
    | .accessor .. => "[Getter/Setter]"

/-- The inspection text, going through at most `room` objects. Of a plain object it shows
the enumerable properties. -/
def inspectWithin (e : Engine) : (room : Nat) → Value → String
  | _, .string s => Text.quote s
  | room, .object id =>
    match (e.object id).payload, room with
    | .function _, _ => "[Function]"
    | .array _, 0 => "[Array]"
    | .plain, 0 => "[Object]"
    | .array elements, room + 1 =>
      bracketed "[" "]" (elements.toList.map (inspectWithin e room))
    | .plain, room + 1 =>
      let shown := (e.object id).properties.toList.filter (·.flags.enumerable)
      bracketed "\x7b" "\x7d" (shown.map (entryText (inspectWithin e room)))
  | _, v => v.plainText

def inspect (e : Engine) (v : Value) : String := e.inspectWithin printDepth v

/-- Write as much of the inspection text as fits at the start of a buffer. Answers how
many bytes were written. -/
def inspectInto (e : Engine) (v : Value) (buf : Array UInt8) : Nat × Array UInt8 :=
  let bytes := (Text.Utf8.encode (e.inspect v)).take buf.size
  (bytes.length, Storage.write buf 0 bytes)

end Engine

def describeOption : Option String → String
  | some s => "Some(" ++ Text.quote s ++ ")"
  | none => "None"

/-- The description of a value that is not an object. -/
def Value.describe : Value → String
  | .undefined => "Undefined"
  | .null => "Null"
  | .bool b => "Bool(" ++ (if b then "true" else "false") ++ ")"
  | .number x => "Number(" ++ Layout.debug.text x ++ ")"
  | .string s => "String(" ++ Text.quote s ++ ")"
  | .symbol s => "Symbol(SymbolData \x7b description: " ++ describeOption s.description ++ " \x7d)"
  | .object _ => "Object"

def Box.describe (b : Box) : String := "DynValue(" ++ b.value.describe ++ ")"

end ValueEngine
