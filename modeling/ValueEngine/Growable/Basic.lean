import ValueEngine.Storage

/-! Growable arrays: storage of which the first `length` cells are live. Cells past the
length are dead and hold a filler. When more cells are needed than there are, new
storage with some slack is allocated and the live elements are copied over. -/

namespace ValueEngine

/-- What a type of elements brings to a growable array. -/
class Cell (α : Type) where
  /-- What dead cells hold. -/
  filler : α
  /-- The equality that searches use; it need not be reflexive. -/
  same : α → α → Bool

structure Growable (α : Type) where
  slots : Array α
  length : Nat

namespace Growable

variable {α : Type}

instance : Inhabited (Growable α) := ⟨⟨#[], 0⟩⟩

def empty : Growable α := ⟨#[], 0⟩

/-- The array of the given elements, without spare cells. -/
def ofList (xs : List α) : Growable α := ⟨xs.toArray, xs.length⟩

def withLength [Memory] (n : Nat) (x : α) : Except ArrayFault (Growable α) :=
  (Storage.allocate n x).map (⟨·, n⟩)

def capacity (g : Growable α) : Nat := g.slots.size
def isEmpty (g : Growable α) : Bool := g.length = 0

def get? (g : Growable α) (i : Nat) : Option α := if i < g.length then g.slots[i]? else none

/-- The live elements. -/
def toList (g : Growable α) : List α := (g.slots.extract 0 g.length).toList

/-- Overwrite a live element. Answers whether there is one. -/
def set (g : Growable α) (i : Nat) (x : α) : Bool × Growable α :=
  if i < g.length then (true, { g with slots := g.slots.setIfInBounds i x }) else (false, g)

def swap (g : Growable α) (i j : Nat) : Growable α :=
  if i < g.length ∧ j < g.length then { g with slots := g.slots.swapIfInBounds i j } else g

@[simp] theorem toList_empty : (empty : Growable α).toList = [] := rfl

@[simp] theorem toList_ofList (xs : List α) : (ofList xs).toList = xs := by
  simp [toList, ofList]

@[simp] theorem length_ofList (xs : List α) : (ofList xs).length = xs.length := rfl

@[simp] theorem capacity_ofList (xs : List α) : (ofList xs).capacity = xs.length := by
  simp [capacity, ofList]

/-- A position is live when it is below the length, as far as there is storage. -/
theorem get?_eq_getElem?_toList (g : Growable α) (i : Nat) : g.get? i = g.toList[i]? := by
  unfold get? toList
  rw [Array.getElem?_toList, Array.getElem?_extract, Nat.sub_zero, Nat.zero_add]
  by_cases h : i < g.length
  · rw [if_pos h]
    split
    · rfl
    · exact Array.getElem?_eq_none (by omega)
  · rw [if_neg h, if_neg (by omega)]

/-- Spare cells that new storage has. -/
def slack : Nat := 16

/-- The capacity allocated when `n` live elements do not fit. -/
def grown (n : Nat) : Nat := min (n + slack) maxArrayLength

variable [Cell α]

/-- Make room for `n` live elements. -/
def reserve [Memory] (g : Growable α) (n : Nat) : Except ArrayFault (Growable α) :=
  if n ≤ g.capacity then .ok g
  else if maxArrayLength < n then .error (.allocation n)
  else do
    let slots ← Storage.allocate (grown n) (Cell.filler : α)
    return { g with slots := Storage.copy slots 0 g.slots 0 g.length }

/-- Change the length, clearing the cells that die. -/
def setLength (g : Growable α) (n : Nat) : Growable α :=
  ⟨if n < g.length then Storage.fill g.slots n g.length Cell.filler else g.slots, n⟩

end Growable

end ValueEngine
