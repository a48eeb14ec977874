/-! The kinds of elements that growable arrays have. -/

namespace ValueEngine

inductive ElementKind
  | f64
  | f32
  | i64
  | i32
  | bool
  | any
  | str
  | ref
  deriving DecidableEq, Repr

namespace ElementKind

def all : List ElementKind := [f64, f32, i64, i32, bool, any, str, ref]

def name : ElementKind → String
  | f64 => "f64"
  | f32 => "f32"
  | i64 => "i64"
  | i32 => "i32"
  | bool => "bool"
  | any => "any"
  | str => "str"
  | ref => "ref"

/-- The name under which descriptions and messages show the kind. -/
def title : ElementKind → String
  | f64 => "F64"
  | f32 => "F32"
  | i64 => "I64"
  | i32 => "I32"
  | bool => "Bool"
  | any => "Any"
  | str => "Str"
  | ref => "Ref"

def ofName? (s : String) : Option ElementKind := all.find? (·.name = s)

end ElementKind

end ValueEngine
