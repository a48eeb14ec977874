import ValueEngine.Value.Basic

/-! Named properties. A property holds a value or a pair of accessor functions, either of
which may be absent, and three flags. -/

namespace ValueEngine

structure Flags where
  writable : Bool
  enumerable : Bool
  configurable : Bool
  deriving DecidableEq, Repr, Inhabited

namespace Flags

/-- What plain assignment gives a new property. -/
def all : Flags := ⟨true, true, true⟩

def none : Flags := ⟨false, false, false⟩

/-- The flags whose bits are set, from the lowest bit writable, enumerable, configurable. -/
def ofBits (n : Nat) : Flags := ⟨n.testBit 0, n.testBit 1, n.testBit 2⟩

/-- One letter for each flag, a dash for one that is off. -/
def letters (f : Flags) : String :=
  String.ofList [if f.writable then 'w' else '-', if f.enumerable then 'e' else '-',
    if f.configurable then 'c' else '-']

end Flags

inductive Slot
  | data (v : Value)
  | accessor (getter setter : Option Value)
  deriving DecidableEq, Inhabited

def Slot.value? : Slot → Option Value
  | .data v => some v
  | .accessor .. => none

structure Property where
  key : String
  slot : Slot
  flags : Flags
  deriving DecidableEq, Inhabited

end ValueEngine
