import ValueEngine.Growable.Callback

/-! Sorting in place by a comparator of the host. A range is partitioned around the value
of its middle element by two scans that start at its ends and move towards each
other; the positions carry the proof that they stay in the range, so both parts
are shorter than the range whatever the comparator answers. Only live elements
are exchanged, and a range that the array no longer covers is left as it is. -/

namespace ValueEngine.Growable

variable {σ α : Type}

/-- A position in a range. -/
abbrev Between (l r : Nat) := { i : Nat // l ≤ i ∧ i ≤ r }

variable (place : Place σ (Growable α)) (c : Closure σ α)

/-- Whether the comparator's answer for the pivot and an element passes a test. -/
def judge (test : Float → Bool) (pivot x : α) : Action σ ArrayFault Bool := do
  return test (← .ofExcept (← c.onPair pivot x).number)

/-- The first position from `p` on whose element does not sort before the pivot. The
right end is taken without asking. There is none if the array has become too short. -/
def scanUp (pivot : α) (r p : Nat) (h : p ≤ r) :
    Action σ ArrayFault (Option (Between p r)) := do
  if hr : p < r then
    match (place.read (← get)).get? p with
    | none => return none
    | some x =>
      if ← judge c Number.atMostZero pivot x then return some ⟨p, Nat.le_refl p, h⟩
      else
        let found ← scanUp pivot r (p + 1) hr
        return found.map fun i => ⟨i.1, Nat.le_of_succ_le i.2.1, i.2.2⟩
  else return some ⟨p, Nat.le_refl p, h⟩
termination_by r - p

/-- The first position from `p` downwards whose element does not sort after the pivot.
The left end is taken without asking. -/
def scanDown (pivot : α) (l p : Nat) (h : l ≤ p) :
    Action σ ArrayFault (Option (Between l p)) := do
  if hl : l < p then
    match (place.read (← get)).get? p with
    | none => return none
    | some x =>
      if ← judge c Number.atLeastZero pivot x then return some ⟨p, h, Nat.le_refl p⟩
      else
        let found ← scanDown pivot l (p - 1) (by omega)
        return found.map fun j => ⟨j.1, j.2.1, by omega⟩
  else return some ⟨p, h, Nat.le_refl p⟩
termination_by p - l

/-- Scan from both ends and exchange what the scans stop at, until they meet. Answers
where the downward scan stopped. -/
def partitionFrom (pivot : α) (l r : Nat) (p q : Between l r) :
    Action σ ArrayFault (Option (Between l r)) := do
  match ← scanUp place c pivot r p.1 p.2.2 with
  | none => return none
  | some i =>
    match ← scanDown place c pivot l q.1 q.2.1 with
    | none => return none
    | some j =>
      if h : i.1 < j.1 then
        modify fun s => place.write ((place.read s).swap i.1 j.1) s
        partitionFrom pivot l r ⟨i.1 + 1, by omega⟩ ⟨j.1 - 1, by omega⟩
      else return some ⟨j.1, j.2.1, by omega⟩
termination_by r - p.1
decreasing_by omega

/-- Sort the range from `l` to `r`, both included. -/
def sortRange (l r : Nat) : Action σ ArrayFault Unit := do
  if h : l < r then
    match (place.read (← get)).get? (l + (r - l) / 2) with
    | none => return ()
    | some pivot =>
      match ← partitionFrom place c pivot l r ⟨l, by omega⟩ ⟨r, by omega⟩ with
      | none => return ()
      | some j =>
        let split := min j.1 (r - 1)
        sortRange l split
        sortRange (split + 1) r
  else return ()
termination_by r - l
decreasing_by all_goals omega

/-- Sort the array that is there now. -/
def sort : Action σ ArrayFault Unit := do
  let n := (place.read (← get)).length
  if 1 < n then sortRange place c 0 (n - 1)

end ValueEngine.Growable
