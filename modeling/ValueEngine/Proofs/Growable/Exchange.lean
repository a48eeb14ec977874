import Mathlib.Logic.Relation
import ValueEngine.Proofs.Growable.Refinement

/-! Arrays that differ by exchanges within a range. Whatever has been exchanged, the array
has kept its length, its capacity and its elements, the cells outside the range are
untouched, and an element of the range was in the range before. -/

namespace ValueEngine.Growable

variable {α : Type}

/-- One exchange of two positions from `l` to `r`. -/
def Swapped (l r : ℕ) (g h : Growable α) : Prop :=
  ∃ i j, (l ≤ i ∧ i ≤ r) ∧ (l ≤ j ∧ j ≤ r) ∧ h = g.swap i j

def Exchanged (l r : ℕ) : Growable α → Growable α → Prop := Relation.ReflTransGen (Swapped l r)

theorem length_swap (g : Growable α) (i j : ℕ) : (g.swap i j).length = g.length := by
  unfold swap
  split_ifs <;> rfl

theorem capacity_swap (g : Growable α) (i j : ℕ) : (g.swap i j).capacity = g.capacity := by
  unfold swap
  split_ifs
  · exact Array.size_swapIfInBounds
  · rfl

theorem get?_swap {g : Growable α} (hg : g.Fits) {i j : ℕ} (hi : i < g.length)
    (hj : j < g.length) (k : ℕ) :
    (g.swap i j).get? k = if k = i then g.get? j else if k = j then g.get? i else g.get? k := by
  have hsize : g.length ≤ g.slots.size := hg
  rw [swap, if_pos ⟨hi, hj⟩, get?, get?, get?, get?,
    Storage.getElem?_swapIfInBounds _ _ _ _ (by omega) (by omega), if_pos hi, if_pos hj]
  change (if k < g.length then _ else _) = _
  by_cases hk : k < g.length
  · rw [if_pos hk, if_pos hk]
  · rw [if_neg hk, if_neg hk, if_neg (by omega), if_neg (by omega)]

theorem perm_swap {g : Growable α} (hg : g.Fits) (i j : ℕ) : (g.swap i j).toList.Perm g.toList := by
  by_cases hij : i < g.length ∧ j < g.length
  · have hlen := length_toList hg
    have hfits : (g.swap i j).Fits := by
      rw [Fits, length_swap, capacity_swap]
      exact hg
    have hi : i < g.toList.toArray.size := by rw [List.size_toArray]; omega
    have hj : j < g.toList.toArray.size := by rw [List.size_toArray]; omega
    have hswap : (g.swap i j).toList = (g.toList.toArray.swap i j hi hj).toList := by
      apply List.ext_getElem?
      intro k
      rw [← get?_eq_getElem?_toList, get?_swap hg hij.1 hij.2, Array.getElem?_toList,
        Array.getElem?_swap]
      simp only [get?_eq_getElem?_toList, List.getElem_toArray]
      by_cases hki : k = i
      · subst hki
        by_cases hkj : j = k
        · subst hkj
          simp
        · rw [if_pos rfl, if_neg hkj, if_pos rfl, List.getElem?_eq_getElem]
      · rw [if_neg hki, if_neg (Ne.symm hki)]
        by_cases hkj : k = j
        · rw [if_pos hkj, if_pos hkj.symm, List.getElem?_eq_getElem]
        · rw [if_neg hkj, if_neg (Ne.symm hkj), List.getElem?_toArray]
    rw [hswap]
    exact (Array.swap_perm hi hj).toList
  · rw [swap, if_neg hij]

namespace Exchanged

variable {l r : ℕ} {g h : Growable α}

theorem refl (g : Growable α) : Exchanged l r g g := Relation.ReflTransGen.refl

theorem trans {k : Growable α} (hgh : Exchanged l r g h) (hhk : Exchanged l r h k) :
    Exchanged l r g k :=
  Relation.ReflTransGen.trans hgh hhk

theorem swap (g : Growable α) {i j : ℕ} (hi : l ≤ i ∧ i ≤ r) (hj : l ≤ j ∧ j ≤ r) :
    Exchanged l r g (g.swap i j) :=
  Relation.ReflTransGen.single ⟨i, j, hi, hj, rfl⟩

/-- Exchanges within a range are exchanges within a larger one. -/
theorem widen {l' r' : ℕ} (hgh : Exchanged l r g h) (hl : l' ≤ l) (hr : r ≤ r') :
    Exchanged l' r' g h := by
  apply Relation.ReflTransGen.mono _ g h hgh
  rintro a b ⟨i, j, hi, hj, rfl⟩
  exact ⟨i, j, ⟨hl.trans hi.1, hi.2.trans hr⟩, ⟨hl.trans hj.1, hj.2.trans hr⟩, rfl⟩

theorem length (hgh : Exchanged l r g h) : h.length = g.length := by
  induction hgh with
  | refl => rfl
  | tail _ hstep ih =>
    obtain ⟨i, j, -, -, rfl⟩ := hstep
    rw [length_swap, ih]

theorem capacity (hgh : Exchanged l r g h) : h.capacity = g.capacity := by
  induction hgh with
  | refl => rfl
  | tail _ hstep ih =>
    obtain ⟨i, j, -, -, rfl⟩ := hstep
    rw [capacity_swap, ih]

theorem fits (hgh : Exchanged l r g h) (hg : g.Fits) : h.Fits := by
  rw [Fits, hgh.length, hgh.capacity]
  exact hg

theorem perm (hgh : Exchanged l r g h) (hg : g.Fits) : h.toList.Perm g.toList := by
  induction hgh with
  | refl => exact List.Perm.refl _
  | tail hrest hstep ih =>
    obtain ⟨i, j, -, -, rfl⟩ := hstep
    exact (perm_swap (fits hrest hg) i j).trans ih

theorem source (hgh : Exchanged l r g h) (hg : g.Fits) (hr : r < g.length) {k : ℕ} {x : α}
    (hk : l ≤ k ∧ k ≤ r) (hx : h.get? k = some x) :
    ∃ k', (l ≤ k' ∧ k' ≤ r) ∧ g.get? k' = some x := by
  induction hgh generalizing k with
  | refl => exact ⟨k, hk, hx⟩
  | tail hrest hstep ih =>
    obtain ⟨i, j, hi, hj, rfl⟩ := hstep
    have hlen := length hrest
    rw [get?_swap (fits hrest hg) (by omega) (by omega)] at hx
    split_ifs at hx
    · exact ih hj hx
    · exact ih hi hx
    · exact ih hk hx

theorem outside (hgh : Exchanged l r g h) (hg : g.Fits) (hr : r < g.length) {k : ℕ}
    (hk : k < l ∨ r < k) : h.get? k = g.get? k := by
  induction hgh with
  | refl => rfl
  | tail hrest hstep ih =>
    obtain ⟨i, j, hi, hj, rfl⟩ := hstep
    have hlen := length hrest
    rw [get?_swap (fits hrest hg) (by omega) (by omega), if_neg (by omega), if_neg (by omega), ih]

end Exchanged

end ValueEngine.Growable
