import Mathlib.Tactic.SplitIfs
import ValueEngine.Storage

/-! Storage operations cell by cell. Each is described by what every cell holds
afterwards. A block move reads the old cells also where its two ranges overlap,
because each direction overwrites a cell only after it has been read. -/

namespace ValueEngine.Storage

variable {α : Type}

theorem getElem?_write (a : Array α) (offset : Nat) (xs : List α) (i : Nat)
    (h : offset + xs.length ≤ a.size) :
    (write a offset xs)[i]? =
      if offset ≤ i ∧ i < offset + xs.length then xs[i - offset]? else a[i]? := by
  induction xs generalizing a offset with
  | nil => rw [write, List.length_nil, if_neg (by omega)]
  | cons x xs ih =>
    rw [List.length_cons] at h ⊢
    rw [write, ih _ _ (by rw [Array.size_setIfInBounds]; omega), Array.getElem?_setIfInBounds]
    rcases Nat.lt_trichotomy i offset with hi | rfl | hi
    · rw [if_neg (by omega), if_neg (by omega), if_neg (by omega)]
    · rw [if_neg (by omega), if_pos rfl, if_pos (by omega), if_pos (by omega), Nat.sub_self]
      rfl
    · have hpred : i - offset = i - (offset + 1) + 1 := by omega
      rw [hpred, List.getElem?_cons_succ, if_neg (by omega : ¬ offset = i)]
      by_cases hin : i < offset + 1 + xs.length
      · rw [if_pos (by omega), if_pos (by omega)]
      · rw [if_neg (by omega), if_neg (by omega)]

theorem toList_write (a : Array α) (offset : Nat) (xs : List α) (h : offset + xs.length ≤ a.size) :
    (write a offset xs).toList =
      a.toList.take offset ++ (xs ++ a.toList.drop (offset + xs.length)) := by
  apply List.ext_getElem?
  intro i
  have htake : (a.toList.take offset).length = offset := by
    rw [List.length_take, Array.length_toList]
    omega
  rw [Array.getElem?_toList, getElem?_write a offset xs i h]
  by_cases hbefore : i < offset
  · rw [if_neg (by omega), List.getElem?_append_left (by omega), List.getElem?_take_of_lt hbefore,
      Array.getElem?_toList]
  · rw [List.getElem?_append_right (by omega), htake]
    by_cases hin : i < offset + xs.length
    · rw [if_pos (by omega), List.getElem?_append_left (by omega)]
    · have hrest : offset + xs.length + (i - offset - xs.length) = i := by omega
      rw [if_neg (by omega), List.getElem?_append_right (by omega), List.getElem?_drop, hrest,
        Array.getElem?_toList]

theorem getElem?_copy (a : Array α) (offset : Nat) (source : Array α) (start count i : Nat)
    (hs : start + count ≤ source.size) (ha : offset + count ≤ a.size) :
    (copy a offset source start count)[i]? =
      if offset ≤ i ∧ i < offset + count then source[start + (i - offset)]? else a[i]? := by
  have hlen : (source.extract start (start + count)).toList.length = count := by
    rw [Array.length_toList, Array.size_extract]
    omega
  rw [copy, getElem?_write _ _ _ _ (by omega), hlen, Array.getElem?_toList,
    Array.getElem?_extract]
  by_cases hin : offset ≤ i ∧ i < offset + count
  · rw [if_pos hin, if_pos hin, if_pos (by omega)]
  · rw [if_neg hin, if_neg hin]

theorem getElem?_copyCell (a : Array α) (source target i : Nat) (hs : source < a.size)
    (ht : target < a.size) :
    (copyCell a source target)[i]? = if i = target then a[source]? else a[i]? := by
  have hx : a[source]? = some a[source] := Array.getElem?_eq_getElem hs
  rw [copyCell, hx]
  by_cases hi : target = i
  · subst hi
    rw [if_pos rfl]
    exact Array.getElem?_setIfInBounds_self_of_lt ht
  · rw [if_neg (Ne.symm hi)]
    exact Array.getElem?_setIfInBounds_ne hi

/-- Moving down, first cell first: what is still to be read lies above what is written. -/
theorem getElem?_moveForward (a : Array α) (source target count i : Nat) (h : target < source)
    (hs : source + count ≤ a.size) :
    (moveForward a source target count)[i]? =
      if target ≤ i ∧ i < target + count then a[source + (i - target)]? else a[i]? := by
  induction count generalizing a source target with
  | zero => rw [moveForward, if_neg (by omega)]
  | succ count ih =>
    have hcell (k : Nat) := getElem?_copyCell a source target k (by omega) (by omega)
    rw [moveForward, ih _ _ _ (by omega) (by rw [size_copyCell]; omega), hcell, hcell]
    rcases Nat.lt_trichotomy i target with hi | rfl | hi
    · rw [if_neg (by omega), if_neg (by omega), if_neg (by omega)]
    · rw [if_neg (by omega), if_pos rfl, if_pos (by omega), Nat.sub_self, Nat.add_zero]
    · have hread : source + 1 + (i - (target + 1)) = source + (i - target) := by omega
      rw [hread, if_neg (by omega : ¬ source + (i - target) = target),
        if_neg (by omega : ¬ i = target)]
      by_cases hin : i < target + 1 + count
      · rw [if_pos (by omega), if_pos (by omega)]
      · rw [if_neg (by omega), if_neg (by omega)]

/-- Moving up, last cell first: what is still to be read lies below what is written. -/
theorem getElem?_moveBackward (a : Array α) (source target count i : Nat) (h : source < target)
    (ht : target + count ≤ a.size) :
    (moveBackward a source target count)[i]? =
      if target ≤ i ∧ i < target + count then a[source + (i - target)]? else a[i]? := by
  induction count generalizing a with
  | zero => rw [moveBackward, if_neg (by omega)]
  | succ count ih =>
    have hcell (k : Nat) :=
      getElem?_copyCell a (source + count) (target + count) k (by omega) (by omega)
    rw [moveBackward, ih _ (by rw [size_copyCell]; omega), hcell, hcell]
    by_cases hin : target ≤ i ∧ i < target + count
    · rw [if_pos hin, if_neg (by omega), if_pos (by omega)]
    · by_cases hlast : i = target + count
      · subst hlast
        rw [if_neg hin, if_pos rfl, if_pos (by omega), Nat.add_sub_cancel_left]
      · rw [if_neg hin, if_neg hlast, if_neg (by omega)]

theorem copyWithin_zero (a : Array α) (source target : Nat) : copyWithin a source target 0 = a :=
  if_pos (.inr rfl)

/-- A block move: the target range holds the old source range and nothing else changes. -/
theorem getElem?_copyWithin (a : Array α) (source target count i : Nat)
    (hs : source + count ≤ a.size) (ht : target + count ≤ a.size) :
    (copyWithin a source target count)[i]? =
      if target ≤ i ∧ i < target + count then a[source + (i - target)]? else a[i]? := by
  unfold copyWithin
  by_cases hnone : source = target ∨ count = 0
  · rw [if_pos hnone]
    split_ifs with hin
    · have hsame : source + (i - target) = i := by omega
      rw [hsame]
    · rfl
  · rw [if_neg hnone]
    by_cases hdown : target < source
    · rw [if_pos hdown]
      exact getElem?_moveForward a source target count i hdown hs
    · rw [if_neg hdown]
      exact getElem?_moveBackward a source target count i (by omega) ht

theorem getElem?_fillCells (a : Array α) (x : α) (start count i : Nat)
    (h : start + count ≤ a.size) :
    (fillCells a x start count)[i]? =
      if start ≤ i ∧ i < start + count then some x else a[i]? := by
  induction count generalizing a start with
  | zero => rw [fillCells, if_neg (by omega)]
  | succ count ih =>
    rw [fillCells, ih _ _ (by rw [Array.size_setIfInBounds]; omega),
      Array.getElem?_setIfInBounds]
    rcases Nat.lt_trichotomy i start with hi | rfl | hi
    · rw [if_neg (by omega), if_neg (by omega), if_neg (by omega)]
    · rw [if_neg (by omega), if_pos rfl, if_pos (by omega), if_pos (by omega)]
    · by_cases hin : i < start + 1 + count
      · rw [if_pos (by omega), if_pos (by omega)]
      · rw [if_neg (by omega), if_neg (by omega), if_neg (by omega)]

theorem getElem?_fill (a : Array α) (start stop i : Nat) (x : α) (h : stop ≤ a.size) :
    (fill a start stop x)[i]? = if start ≤ i ∧ i < stop then some x else a[i]? := by
  by_cases hle : start ≤ stop
  · rw [fill, getElem?_fillCells _ _ _ _ _ (by omega), Nat.add_sub_cancel' hle]
  · rw [fill, Nat.sub_eq_zero_of_le (by omega), fillCells, if_neg (by omega)]

theorem getElem?_swapIfInBounds (a : Array α) (i j k : Nat) (hi : i < a.size) (hj : j < a.size) :
    (a.swapIfInBounds i j)[k]? = if k = i then a[j]? else if k = j then a[i]? else a[k]? := by
  rw [Array.swapIfInBounds, dif_pos hi, dif_pos hj, Array.getElem?_swap,
    Array.getElem?_eq_getElem hi, Array.getElem?_eq_getElem hj]
  by_cases hki : k = i
  · subst hki
    by_cases hkj : j = k
    · subst hkj
      rw [if_pos rfl]
    · rw [if_neg hkj, if_pos rfl, if_pos rfl]
  · rw [if_neg hki, if_neg (Ne.symm hki)]
    by_cases hkj : k = j
    · rw [if_pos hkj, if_pos hkj.symm]
    · rw [if_neg hkj, if_neg (Ne.symm hkj)]

theorem getElem?_reverse (a : Array α) (left right i : Nat) (h : right ≤ a.size) :
    (reverse a left right)[i]? =
      if left ≤ i ∧ i < right then a[left + (right - 1 - i)]? else a[i]? := by
  fun_induction reverse a left right with
  | case1 a left right hlt ih =>
    have hcell (k : Nat) :=
      getElem?_swapIfInBounds a left (right - 1) k (by omega) (by omega)
    rw [ih (by rw [Array.size_swapIfInBounds]; omega), hcell, hcell]
    by_cases hin : left ≤ i ∧ i < right
    · rw [if_pos hin]
      by_cases hl : i = left
      · subst hl
        have hmirror : i + (right - 1 - i) = right - 1 := by omega
        rw [if_neg (by omega), if_pos rfl, hmirror]
      · by_cases hr : i = right - 1
        · have hmirror : left + (right - 1 - i) = left := by omega
          rw [if_neg (by omega), if_neg hl, if_pos hr, hmirror]
        · have hmirror : left + 1 + (right - 1 - 1 - i) = left + (right - 1 - i) := by omega
          rw [if_pos (by omega), hmirror, if_neg (by omega), if_neg (by omega)]
    · rw [if_neg hin, if_neg (by omega), if_neg (by omega), if_neg (by omega)]
  | case2 a left right hge =>
    split_ifs with hin
    · have hmirror : left + (right - 1 - i) = i := by omega
      rw [hmirror]
    · rfl

/-- Reversing what has been written is writing it the other way round. -/
theorem reverse_write (a : Array α) (offset : Nat) (xs : List α) (h : offset + xs.length ≤ a.size) :
    reverse (write a offset xs) offset (offset + xs.length) = write a offset xs.reverse := by
  apply Array.ext_getElem?
  intro i
  rw [getElem?_reverse _ _ _ _ (by rwa [size_write]),
    getElem?_write a offset xs.reverse i (by rwa [List.length_reverse]), List.length_reverse]
  by_cases hin : offset ≤ i ∧ i < offset + xs.length
  · have hmirror :
        offset + (offset + xs.length - 1 - i) - offset = xs.length - 1 - (i - offset) := by
      omega
    rw [if_pos hin, if_pos hin, getElem?_write _ _ _ _ h, if_pos (by omega), hmirror,
      List.getElem?_reverse (by omega)]
  · rw [if_neg hin, if_neg hin, getElem?_write _ _ _ _ h, if_neg hin]

end ValueEngine.Storage
