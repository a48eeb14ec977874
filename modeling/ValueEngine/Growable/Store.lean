import Std.Data.HashMap
import ValueEngine.Growable.Edit
import ValueEngine.Growable.Element

/-! A store of growable arrays of all kinds, known by number. Several names may stand for
one array; whoever has its number and kind has a place to read and write it. -/

namespace ValueEngine

/-- The type of the elements of a kind. -/
def ElementKind.Carrier : ElementKind → Type
  | f64 => Float
  | f32 => Single
  | i64 => Int64
  | i32 => Int32
  | bool => Bool
  | any => Box
  | str => Bytes
  | ref => HostRef

instance (k : ElementKind) : Element k.Carrier :=
  match k with
  | .f64 => inferInstanceAs (Element Float)
  | .f32 => inferInstanceAs (Element Single)
  | .i64 => inferInstanceAs (Element Int64)
  | .i32 => inferInstanceAs (Element Int32)
  | .bool => inferInstanceAs (Element Bool)
  | .any => inferInstanceAs (Element Box)
  | .str => inferInstanceAs (Element Bytes)
  | .ref => inferInstanceAs (Element HostRef)

structure Store where
  next : Nat
  arrays : Std.HashMap Nat ((k : ElementKind) × Growable k.Carrier)

namespace Store

def empty : Store := ⟨0, ∅⟩

instance : Inhabited Store := ⟨empty⟩

/-- Add an array. Answers its number. -/
def add (s : Store) (k : ElementKind) (g : Growable k.Carrier) : Nat × Store :=
  (s.next, ⟨s.next + 1, s.arrays.insert s.next ⟨k, g⟩⟩)

def kind? (s : Store) (id : Nat) : Option ElementKind := (s.arrays[id]?).map (·.1)

/-- The array of a number, empty if it is of another kind. -/
def get (s : Store) (k : ElementKind) (id : Nat) : Growable k.Carrier :=
  match s.arrays[id]? with
  | some ⟨k', g⟩ => if h : k' = k then h ▸ g else .empty
  | none => .empty

def put (s : Store) (k : ElementKind) (id : Nat) (g : Growable k.Carrier) : Store :=
  { s with arrays := s.arrays.insert id ⟨k, g⟩ }

theorem get_put (s : Store) (k : ElementKind) (id : Nat) (g : Growable k.Carrier) :
    (s.put k id g).get k id = g := by
  simp [get, put]

def place (k : ElementKind) (id : Nat) : Place Store (Growable k.Carrier) where
  read s := s.get k id
  write g s := s.put k id g
  read_write g s := get_put s k id g

/-- The boxes that an array holds in its live elements. -/
def boxes (s : Store) (id : Nat) : List Box :=
  match s.arrays[id]? with
  | some ⟨.any, g⟩ => Growable.toList g
  | _ => []

end Store

end ValueEngine
