import ValueEngine.Proofs.Storage.Cells

/-! Storage operations that stay inside. Each operation has a strict twin in which it is a failure
to read or to store a cell that is not there. Where the ranges of an operation lie inside the
storage, its twin does not fail and comes to the same. A block move then is exact: its target
holds what the source has held, whichever way the two overlap. The direction in which the
cells are moved is what makes it so, and each of the two is looked at for itself. -/

namespace ValueEngine.Storage

variable {α : Type} {a : Array α} {source target count left right : Nat}

section Strict

def store? (a : Array α) (i : Nat) (x : α) : Option (Array α) :=
  if i < a.size then some (a.setIfInBounds i x) else none

def exchange? (a : Array α) (i j : Nat) : Option (Array α) :=
  if i < a.size ∧ j < a.size then some (a.swapIfInBounds i j) else none

def copyCell? (a : Array α) (source target : Nat) : Option (Array α) := do
  let x ← a[source]?
  store? a target x

def moveForward? (a : Array α) (source target : Nat) : (count : Nat) → Option (Array α)
  | 0 => return a
  | count + 1 => do
    let a ← copyCell? a source target
    moveForward? a (source + 1) (target + 1) count

def moveBackward? (a : Array α) (source target : Nat) : (count : Nat) → Option (Array α)
  | 0 => return a
  | count + 1 => do
    let a ← copyCell? a (source + count) (target + count)
    moveBackward? a source target count

def copyWithin? (a : Array α) (source target count : Nat) : Option (Array α) :=
  if source = target ∨ count = 0 then return a
  else if target < source then moveForward? a source target count
  else moveBackward? a source target count

def reverse? (a : Array α) (left right : Nat) : Option (Array α) :=
  if left + 1 < right then do
    let a ← exchange? a left (right - 1)
    reverse? a (left + 1) (right - 1)
  else return a
termination_by right - left

end Strict

section Inside

theorem store?_eq {i : Nat} (h : i < a.size) (x : α) : store? a i x = some (a.setIfInBounds i x) :=
  if_pos h

theorem copyCell?_eq (hs : source < a.size) (ht : target < a.size) :
    copyCell? a source target = some (copyCell a source target) := by
  have hx : a[source]? = some a[source] := Array.getElem?_eq_getElem hs
  rw [copyCell?, copyCell, hx]
  exact store?_eq ht _

theorem moveForward?_eq (hs : source + count ≤ a.size) (ht : target + count ≤ a.size) :
    moveForward? a source target count = some (moveForward a source target count) := by
  induction count generalizing a source target with
  | zero => rfl
  | succ count ih =>
    rw [moveForward?, copyCell?_eq (by omega) (by omega), Option.bind_eq_bind, Option.bind_some]
    exact ih (by rw [size_copyCell]; omega) (by rw [size_copyCell]; omega)

theorem moveBackward?_eq (hs : source + count ≤ a.size) (ht : target + count ≤ a.size) :
    moveBackward? a source target count = some (moveBackward a source target count) := by
  induction count generalizing a with
  | zero => rfl
  | succ count ih =>
    rw [moveBackward?, copyCell?_eq (by omega) (by omega), Option.bind_eq_bind, Option.bind_some]
    exact ih (by rw [size_copyCell]; omega) (by rw [size_copyCell]; omega)

theorem copyWithin?_eq (hs : source + count ≤ a.size) (ht : target + count ≤ a.size) :
    copyWithin? a source target count = some (copyWithin a source target count) := by
  unfold copyWithin? copyWithin
  split_ifs
  · rfl
  · exact moveForward?_eq hs ht
  · exact moveBackward?_eq hs ht

theorem reverse?_eq (h : right ≤ a.size) :
    reverse? a left right = some (reverse a left right) := by
  fun_induction reverse a left right with
  | case1 a left right hlt ih =>
    have hends : left < a.size ∧ right - 1 < a.size := by omega
    rw [reverse?, if_pos hlt, exchange?, if_pos hends, Option.bind_eq_bind, Option.bind_some]
    exact ih (by rw [Array.size_swapIfInBounds]; omega)
  | case2 a left right hge =>
    rw [reverse?, if_neg hge]
    rfl

end Inside

/-- **A block move is exact.** Where both ranges lie inside the storage, however they overlap, a
move stays inside; every cell of the target then holds what the cell of the source at the same
distance has held, and the other cells and their number are as they were. -/
theorem block_move_is_exact (a : Array α) {source target count : Nat}
    (hs : source + count ≤ a.size) (ht : target + count ≤ a.size) :
    let b := copyWithin a source target count
    copyWithin? a source target count = some b ∧ b.size = a.size ∧
      (∀ k < count, ∃ x, a[source + k]? = some x ∧ b[target + k]? = some x) ∧
      ∀ i, i < target ∨ target + count ≤ i → b[i]? = a[i]? := by
  intro b
  have hcell (i : Nat) := getElem?_copyWithin a source target count i hs ht
  refine ⟨copyWithin?_eq hs ht, size_copyWithin .., fun k hk => ?_, fun i hi => ?_⟩
  · have hx : a[source + k]? = some a[source + k] := Array.getElem?_eq_getElem (by omega)
    refine ⟨_, hx, ?_⟩
    rw [hcell, if_pos (by omega), Nat.add_sub_cancel_left, hx]
  · rw [hcell, if_neg (by omega)]

/-- Moves of three out of five cells, up and down by two; one cell belongs to both ranges. -/
theorem block_move_is_exact_overlapping :
    let a := #[1, 2, 3, 4, 5]
    (0 + 3 ≤ a.size ∧ 2 + 3 ≤ a.size) ∧
      (∀ k < 3, (copyWithin a 0 2 3)[2 + k]? = a[0 + k]?) ∧
      ∀ k < 3, (copyWithin a 2 0 3)[0 + k]? = a[2 + k]? := by
  intro a
  have hlow : 0 + 3 ≤ a.size := by decide
  have hhigh : 2 + 3 ≤ a.size := by decide
  obtain ⟨-, -, hup, -⟩ := block_move_is_exact a hlow hhigh
  obtain ⟨-, -, hdown, -⟩ := block_move_is_exact a hhigh hlow
  refine ⟨⟨hlow, hhigh⟩, fun k hk => ?_, fun k hk => ?_⟩
  · obtain ⟨x, hold, hnew⟩ := hup k hk
    exact hnew.trans hold.symm
  · obtain ⟨x, hold, hnew⟩ := hdown k hk
    exact hnew.trans hold.symm

end ValueEngine.Storage
