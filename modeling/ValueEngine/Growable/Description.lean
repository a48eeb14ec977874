import ValueEngine.Growable.Callback
import ValueEngine.Number.Decimal
import ValueEngine.Text.Quoted

/-! Texts of growable arrays: the strings of an array joined into one, and descriptions of
arrays and closures. -/

namespace ValueEngine

/-- Put a separator between byte strings and join them all. -/
def Bytes.join (separator : Bytes) (parts : List Bytes) : Bytes :=
  ⟨(parts.map (·.list)).intersperse separator.list |>.flatten⟩

/-- Join the strings of an array, by a comma if no separator is given. -/
def Growable.join (g : Growable Bytes) (separator : Option Bytes) : Bytes :=
  .join (separator.getD (.ofString ",")) g.toList

def integerText (n : Int) : String :=
  (if n < 0 then "-" else "") ++ Number.decimalText n.natAbs

class Description (α : Type) where
  describe : α → String

instance : Description Int64 := ⟨fun n => integerText n.toInt⟩
instance : Description Int32 := ⟨fun n => integerText n.toInt⟩
instance : Description Bool := ⟨fun b => if b then "true" else "false"⟩
instance : Description Bytes := ⟨fun s => Text.quote s.text⟩
instance : Description HostRef := ⟨fun r => "HostRef(" ++ Number.decimalText r.handle.toNat ++ ")"⟩

/-- The live elements between square brackets. -/
def Growable.describe {α : Type} [Description α] (g : Growable α) : String :=
  "[" ++ ", ".intercalate (g.toList.map Description.describe) ++ "]"

/-- The context of a closure in hexadecimal, and the kind of result that it declares. -/
def Closure.describe {σ α : Type} (c : Closure σ α) : String :=
  "Closure \x7b context: 0x" ++ String.ofList (Text.hex c.context.toNat) ++ ", returns: " ++
    c.returns.title ++ ", .. \x7d"

end ValueEngine
