import ValueEngine.Number.Rounding
import ValueEngine.Proofs.Growable.Refinement

/-! Copying elements inside an array. The range to copy and its target are given by doubles that
each stand for an index of the array, and as many elements are copied as the range has and as fit
behind the target. What is copied is what the range has held before, also where the target
overlaps it on either side. -/

namespace ValueEngine.Growable

variable {α : Type} {g : Growable α}

/-- With an empty range or no element behind the target, an array stays as it is. -/
theorem copyWithin_eq_self {target first : Float} {last : Option Float}
    (h : Plain.stop last g.length ≤ Plain.index first g.length ∨
      g.length ≤ Plain.index target g.length) : g.copyWithin target first last = g := by
  have hnone : min (Plain.stop last g.length - Plain.index first g.length)
      (g.length - Plain.index target g.length) = 0 := by omega
  rw [copyWithin_eq, hnone, Storage.copyWithin_zero]

/-- **Copying inside an array moves a block.** As many elements as the range has and as fit behind
the target are copied there, each as it has been before; if there are none the array stays as it
is, and in any case the other elements, the length and the capacity do. -/
theorem copyWithin_moves_block (h : g.Fits) (target first : Float) (last : Option Float) :
    let n := g.length
    let t := Plain.index target n
    let s := Plain.index first n
    let e := Plain.stop last n
    let c : ℤ := min ((e : ℤ) - s) ((n : ℤ) - t)
    let g' := g.copyWithin target first last
    (c ≤ 0 → g' = g) ∧
      (∀ k : ℕ, (k : ℤ) < c → ∃ x, g.get? (s + k) = some x ∧ g'.get? (t + k) = some x) ∧
      (∀ i : ℕ, (i < t ∨ t + c ≤ i) → g'.get? i = g.get? i) ∧
      g'.length = n ∧ g'.capacity = g.capacity := by
  intro n t s e c g'
  have hc : c = min ((e : ℤ) - s) ((n : ℤ) - t) := rfl
  have hstop : e ≤ n := stop_le last n
  have hn : g'.length = n := length_copyWithin g target first last
  have hself : e ≤ s ∨ n ≤ t → g' = g := copyWithin_eq_self
  have hcells (i : ℕ) : g'.slots[i]? =
      if t ≤ i ∧ i < t + min (e - s) (n - t) then g.slots[s + (i - t)]? else g.slots[i]? :=
    slots_copyWithin h target first last i
  clear_value t s e c
  refine ⟨?_, ?_, ?_, hn, capacity_copyWithin g target first last⟩
  · intro hnone
    exact hself (by omega)
  · intro k hk
    have hs : s + k < n := by omega
    have ht : t + k < n := by omega
    obtain ⟨x, hx⟩ := get?_of_lt h hs
    refine ⟨x, hx, ?_⟩
    rw [get?, if_pos hs] at hx
    rw [get?, if_pos (hn ▸ ht), hcells, if_pos (by omega), Nat.add_sub_cancel_left, hx]
  · intro i hi
    have hsame : g'.slots[i]? = g.slots[i]? := by rw [hcells, if_neg (by omega)]
    rw [get?, get?, hn, hsame]

/-- A range that starts below its target, with a fraction in the target and an end that is counted
from behind. -/
theorem copyWithin_moves_block_overlapping :
    let g : Growable ℕ := ⟨#[1, 2, 3, 4, 5, 0], 5⟩
    let target : Float := .ofBits 0x3ff8000000000000
    let last := some (Number.ofInt (-1))
    g.Fits ∧ ∀ k < 4, (g.copyWithin target (Number.ofInt 0) last).get? (1 + k) = g.get? k := by
  intro g target last
  have hlen : g.length = 5 := rfl
  have hfits : g.Fits := Nat.le_succ 5
  have ht : Plain.index target g.length = 1 := by
    rw [← position_eq]
    decide +kernel
  have hs : Plain.index (Number.ofInt 0) g.length = 0 := by
    rw [← position_eq]
    decide +kernel
  have he : Plain.stop last g.length = 4 := by
    rw [← stop_eq]
    decide +kernel
  obtain ⟨-, hcopied, -⟩ := copyWithin_moves_block hfits target (Number.ofInt 0) last
  refine ⟨hfits, fun k hk => ?_⟩
  rw [ht, hs, he] at hcopied
  obtain ⟨x, hx, hx'⟩ := hcopied k (by omega)
  rw [hx', ← hx, Nat.zero_add]

end ValueEngine.Growable
