import ValueEngine.Fault
import ValueEngine.Memory

/-! Storage of a fixed number of cells. Blocks are moved cell by cell, in the direction
that reads every cell before it is overwritten, and cells are exchanged in place. -/

namespace ValueEngine.Storage

variable {α : Type}

/-- Storage of `n` equal cells. No storage is larger than the longest array. -/
def allocate [Memory] (n : Nat) (x : α) : Except ArrayFault (Array α) :=
  if maxArrayLength < n then .error (.allocation n)
  else if Memory.grants 0 n then .ok (Array.replicate n x)
  else .error (.allocation n)

/-- Boundless memory leaves the limit as the only ground for a refusal. -/
theorem allocate_boundless (n : Nat) (x : α) : allocate n x =
    if maxArrayLength < n then .error (.allocation n) else .ok (Array.replicate n x) := by
  rw [allocate, Memory.grants_boundless, if_pos rfl]

theorem allocate_eq_ok [Memory] {n : Nat} {x : α} {a : Array α} (h : allocate n x = .ok a) :
    n ≤ maxArrayLength ∧ a = Array.replicate n x := by
  unfold allocate at h
  split at h
  · cases h
  · split at h
    · cases h
      exact ⟨Nat.not_lt.mp ‹_›, rfl⟩
    · cases h

/-- Write values into the cells from `offset` on. -/
def write (a : Array α) (offset : Nat) : List α → Array α
  | [] => a
  | x :: xs => write (a.setIfInBounds offset x) (offset + 1) xs

def copy (a : Array α) (offset : Nat) (source : Array α) (start count : Nat) : Array α :=
  write a offset (source.extract start (start + count)).toList

def copyCell (a : Array α) (source target : Nat) : Array α :=
  match a[source]? with
  | some x => a.setIfInBounds target x
  | none => a

/-- Move a block, its first cell first. -/
def moveForward (a : Array α) (source target : Nat) : (count : Nat) → Array α
  | 0 => a
  | count + 1 => moveForward (copyCell a source target) (source + 1) (target + 1) count

/-- Move a block, its last cell first. -/
def moveBackward (a : Array α) (source target : Nat) : (count : Nat) → Array α
  | 0 => a
  | count + 1 => moveBackward (copyCell a (source + count) (target + count)) source target count

/-- Move a block inside the storage; the two ranges may overlap. -/
def copyWithin (a : Array α) (source target count : Nat) : Array α :=
  if source = target ∨ count = 0 then a
  else if target < source then moveForward a source target count
  else moveBackward a source target count

def fillCells (a : Array α) (x : α) (start : Nat) : (count : Nat) → Array α
  | 0 => a
  | count + 1 => fillCells (a.setIfInBounds start x) x (start + 1) count

/-- Overwrite the cells from `start` up to but not including `stop`. -/
def fill (a : Array α) (start stop : Nat) (x : α) : Array α := fillCells a x start (stop - start)

/-- Reverse the cells from `left` up to but not including `right`, exchanging the two
ends and going on inside them. -/
def reverse (a : Array α) (left right : Nat) : Array α :=
  if left + 1 < right then
    reverse (a.swapIfInBounds left (right - 1)) (left + 1) (right - 1)
  else a
termination_by right - left

@[simp] theorem size_write (a : Array α) (offset : Nat) (xs : List α) :
    (write a offset xs).size = a.size := by
  induction xs generalizing a offset with
  | nil => rfl
  | cons x xs ih => rw [write, ih, Array.size_setIfInBounds]

@[simp] theorem size_copy (a : Array α) (offset : Nat) (source : Array α) (start count : Nat) :
    (copy a offset source start count).size = a.size := size_write ..

@[simp] theorem size_copyCell (a : Array α) (source target : Nat) :
    (copyCell a source target).size = a.size := by
  unfold copyCell
  split <;> simp

@[simp] theorem size_moveForward (a : Array α) (source target count : Nat) :
    (moveForward a source target count).size = a.size := by
  induction count generalizing a source target with
  | zero => rfl
  | succ count ih => rw [moveForward, ih, size_copyCell]

@[simp] theorem size_moveBackward (a : Array α) (source target count : Nat) :
    (moveBackward a source target count).size = a.size := by
  induction count generalizing a with
  | zero => rfl
  | succ count ih => rw [moveBackward, ih, size_copyCell]

@[simp] theorem size_copyWithin (a : Array α) (source target count : Nat) :
    (copyWithin a source target count).size = a.size := by
  unfold copyWithin
  split
  · rfl
  · split <;> simp

@[simp] theorem size_fill (a : Array α) (start stop : Nat) (x : α) :
    (fill a start stop x).size = a.size := by
  unfold fill
  generalize stop - start = count
  induction count generalizing a start with
  | zero => rfl
  | succ count ih => rw [fillCells, ih, Array.size_setIfInBounds]

@[simp] theorem size_reverse (a : Array α) (left right : Nat) :
    (reverse a left right).size = a.size := by
  fun_induction reverse a left right with
  | case1 a left right h ih => rw [ih, Array.size_swapIfInBounds]
  | case2 => rfl

end ValueEngine.Storage
