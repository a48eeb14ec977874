import ValueEngine.Growable.Edit
import ValueEngine.Proofs.Growable.Plain
import ValueEngine.Proofs.Storage.Cells

/-! Every operation of a growable array is the operation of the same name on the list of
its live elements. An array refines a list when it fits its storage, its live
cells hold the list and its capacity is the room of the list; each operation
keeps this and fails exactly when the list operation fails. -/

namespace ValueEngine

/-- Two outcomes that fail alike, or succeed with related results. -/
inductive Alike {β γ : Type} (R : β → γ → Prop) : Except ArrayFault β → Except ArrayFault γ → Prop
  | ok {b : β} {c : γ} : R b c → Alike R (.ok b) (.ok c)
  | error (f : ArrayFault) : Alike R (.error f) (.error f)

theorem Alike.bind {β β' γ γ' : Type} {R : β → γ → Prop} {S : β' → γ' → Prop}
    {x : Except ArrayFault β} {y : Except ArrayFault γ} {f : β → Except ArrayFault β'}
    {g : γ → Except ArrayFault γ'} (h : Alike R x y) (hfg : ∀ b c, R b c → Alike S (f b) (g c)) :
    Alike S (x >>= f) (y >>= g) := by
  cases h with
  | ok hbc => exact hfg _ _ hbc
  | error f => exact .error f

namespace Growable

variable {α : Type}

/-- The live elements are all in the storage. -/
def Fits (g : Growable α) : Prop := g.length ≤ g.capacity

def plain (g : Growable α) : Plain α := ⟨g.toList, g.capacity⟩

/-- The array fits and is this list. -/
def Refines (g : Growable α) (p : Plain α) : Prop := g.Fits ∧ g.plain = p

theorem fits_ofList (xs : List α) : (ofList xs).Fits := by
  rw [Fits, capacity_ofList, length_ofList]

theorem refines_ofList (xs : List α) : (ofList xs).Refines (.ofList xs) := by
  refine ⟨fits_ofList xs, ?_⟩
  rw [plain, toList_ofList, capacity_ofList, Plain.ofList]

theorem Fits.refines {g : Growable α} (h : g.Fits) : g.Refines g.plain := ⟨h, rfl⟩

theorem length_toList {g : Growable α} (h : g.Fits) : g.toList.length = g.length := by
  unfold Fits capacity at h
  rw [toList, Array.length_toList, Array.size_extract]
  omega

theorem getElem?_toList {g : Growable α} {i : ℕ} (h : i < g.length) :
    g.toList[i]? = g.slots[i]? := by
  rw [← get?_eq_getElem?_toList, get?, if_pos h]

theorem get?_of_lt {g : Growable α} (hg : g.Fits) {k : ℕ} (hk : k < g.length) :
    ∃ x, g.get? k = some x := by
  have hlen := length_toList hg
  rw [get?_eq_getElem?_toList, List.getElem?_eq_getElem (by omega)]
  exact ⟨_, rfl⟩

/-- An array is known by its cells, its length and its capacity. -/
theorem refines_of_cells {g : Growable α} {p : Plain α} (hn : p.elements.length = g.length)
    (hsize : g.slots.size = p.room) (hroom : g.length ≤ p.room)
    (hcells : ∀ i < g.length, g.slots[i]? = p.elements[i]?) : g.Refines p := by
  have hfits : g.Fits := hroom.trans (Nat.le_of_eq hsize.symm)
  refine ⟨hfits, ?_⟩
  have hlist : g.toList = p.elements := by
    apply List.ext_getElem?
    intro i
    by_cases hi : i < g.length
    · rw [getElem?_toList hi, hcells i hi]
    · rw [List.getElem?_eq_none (by rw [length_toList hfits]; omega),
        List.getElem?_eq_none (by omega)]
  rw [plain, hlist, capacity, hsize]

theorem position_eq (x : Float) (n : ℕ) : Position.relative x n = Plain.index x n := by
  rw [Position.relative, Plain.index, Plain.held, Number.truncate_eq_integerPart]
  split_ifs <;> omega

theorem position_le (x : Float) (n : ℕ) : Plain.index x n ≤ n := by
  rw [Plain.index, Plain.held]
  omega

theorem stop_eq (g : Growable α) (x : Option Float) : g.stop x = Plain.stop x g.length := by
  cases x with
  | none => rfl
  | some x => exact position_eq x g.length

theorem stop_le (x : Option Float) (n : ℕ) : Plain.stop x n ≤ n := by
  cases x with
  | none => exact Nat.le_refl n
  | some x => exact position_le x n

theorem count_eq (x : Float) (n : ℕ) : Position.count x n = Plain.count (some x) n := by
  rw [Position.count, Plain.count, Plain.held, Number.truncate_eq_integerPart]
  omega

theorem count_le (x : Option Float) (n : ℕ) : Plain.count x n ≤ n := by
  cases x with
  | none => exact Nat.zero_le n
  | some x =>
    rw [Plain.count, Plain.held]
    omega

theorem bounded?_eq (x : Float) (n : ℕ) :
    Position.bounded? x n =
      if Plain.index x n = n ∧ 0 ≤ Number.integerPart x then none else some (Plain.index x n) := by
  rw [Position.bounded?, Plain.index, Plain.held, Number.truncate_eq_integerPart]
  by_cases hneg : Number.integerPart x < 0
  · rw [if_pos hneg, if_pos hneg, if_neg (by omega)]
    congr 1
    omega
  · rw [if_neg hneg, if_neg hneg]
    by_cases hpast : (n : ℤ) ≤ Number.integerPart x
    · rw [if_pos hpast, if_pos (by omega)]
    · rw [if_neg hpast, if_neg (by omega)]
      congr 1
      omega

theorem getElem?_extract_toList (a : Array α) (first last i : ℕ) (h : last ≤ a.size)
    (hi : first + i < last) : (a.extract first last).toList[i]? = a[first + i]? := by
  rw [Array.getElem?_toList, Array.getElem?_extract, if_pos (by omega)]

theorem extract_toList_eq {g : Growable α} (h : g.Fits) {first last : ℕ} (hlast : last ≤ g.length) :
    (g.slots.extract first last).toList = (g.toList.take last).drop first := by
  have hsize : last ≤ g.slots.size := hlast.trans h
  apply List.ext_getElem?
  intro i
  rw [List.getElem?_drop]
  by_cases hi : first + i < last
  · rw [getElem?_extract_toList _ _ _ _ hsize hi, List.getElem?_take_of_lt hi,
      getElem?_toList (by omega)]
  · rw [List.getElem?_eq_none (by rw [Array.length_toList, Array.size_extract]; omega),
      List.getElem?_eq_none (by rw [List.length_take]; omega)]

theorem slice_eq {g : Growable α} (h : g.Fits) (first : Float) (last : Option Float) :
    g.slice first last = ofList (g.plain.slice first last) := by
  have hlen := length_toList h
  have hlast := stop_le last g.length
  unfold slice Plain.slice
  simp only [plain, hlen, position_eq, stop_eq]
  split_ifs with hempty
  · rw [List.drop_eq_nil_of_le (by rw [List.length_take]; omega)]
    rfl
  · rw [extract_toList_eq h hlast]

theorem reverse_refines {g : Growable α} (h : g.Fits) : g.reverse.Refines g.plain.reverse := by
  have hlen := length_toList h
  refine refines_of_cells ?_ (Storage.size_reverse _ _ _) h ?_
  · rw [Plain.reverse, List.length_reverse]
    exact hlen
  · intro i (hi : i < g.length)
    change (Storage.reverse g.slots 0 g.length)[i]? = g.toList.reverse[i]?
    rw [Storage.getElem?_reverse _ _ _ _ h, if_pos ⟨Nat.zero_le i, hi⟩,
      List.getElem?_reverse (by omega), hlen, getElem?_toList (by omega), Nat.zero_add]

theorem fill_refines {g : Growable α} (h : g.Fits) (x : α) (first : Float)
    (last : Option Float) : (g.fill x first last).Refines (g.plain.fill x first last) := by
  have hlen := length_toList h
  have hlast := stop_le last g.length
  have hlen' : (g.plain.fill x first last).elements.length = g.length := by
    rw [Plain.fill, List.length_mapIdx]
    exact hlen
  have hcells : ∀ i < g.length, (g.plain.fill x first last).elements[i]? =
      if Plain.index first g.length ≤ i ∧ i < Plain.stop last g.length then some x
      else g.slots[i]? := by
    intro i hi
    have hin : i < g.slots.size := hi.trans_le h
    simp only [Plain.fill, plain, List.getElem?_mapIdx, getElem?_toList hi, hlen,
      Array.getElem?_eq_getElem hin, Option.map_some]
    split_ifs <;> rfl
  unfold fill
  simp only [position_eq, stop_eq]
  split_ifs with hrange
  · refine refines_of_cells hlen' (Storage.size_fill ..) h ?_
    intro i hi
    rw [Storage.getElem?_fill _ _ _ _ _ (hlast.trans h), hcells i hi]
  · refine refines_of_cells hlen' rfl h ?_
    intro i hi
    rw [hcells i hi, if_neg (by omega)]

theorem set_refines {g : Growable α} (h : g.Fits) (i : ℕ) (x : α) :
    (g.set i x).1 = (g.plain.set i x).1 ∧ (g.set i x).2.Refines (g.plain.set i x).2 := by
  have hlen := length_toList h
  have hlen' : (g.plain.set i x).2.elements.length = g.length := by
    change (g.toList.set i x).length = g.length
    rw [List.length_set, hlen]
  have hanswer : (g.plain.set i x).1 = decide (i < g.length) := by
    change decide (i < g.toList.length) = decide (i < g.length)
    rw [hlen]
  rw [hanswer]
  unfold set
  split_ifs with hi
  · refine ⟨(decide_eq_true hi).symm, refines_of_cells hlen' Array.size_setIfInBounds h ?_⟩
    intro j (hj : j < g.length)
    change (g.slots.setIfInBounds i x)[j]? = (g.toList.set i x)[j]?
    have hin : j < g.slots.size := hj.trans_le h
    rw [Array.getElem?_setIfInBounds, List.getElem?_set, getElem?_toList hj, hlen]
    by_cases hij : i = j
    · rw [if_pos hij, if_pos hij, if_pos (hij ▸ hin), if_pos hi]
    · rw [if_neg hij, if_neg hij]
  · refine ⟨(decide_eq_false hi).symm, refines_of_cells hlen' rfl h ?_⟩
    intro j (hj : j < g.length)
    change g.slots[j]? = (g.toList.set i x)[j]?
    rw [List.getElem?_set_ne (by omega), getElem?_toList hj]

theorem getElem?_spliced (xs items : List α) (s c i : ℕ) (hs : s ≤ xs.length) :
    (xs.take s ++ items ++ xs.drop (s + c))[i]? =
      if i < s then xs[i]?
      else if i < s + items.length then items[i - s]?
      else xs[s + c + (i - (s + items.length))]? := by
  have htake : (xs.take s).length = s := by rw [List.length_take]; omega
  rw [List.append_assoc]
  split_ifs with hleft hmid
  · rw [List.getElem?_append_left (by omega), List.getElem?_take_of_lt hleft]
  · rw [List.getElem?_append_right (by omega), htake, List.getElem?_append_left (by omega)]
  · have hrest : i - s - items.length = i - (s + items.length) := by omega
    rw [List.getElem?_append_right (by omega), htake, List.getElem?_append_right (by omega),
      List.getElem?_drop, hrest]

theorem bounded?_getD (x : Float) (n : ℕ) :
    (Position.bounded? x n).getD n = Plain.index x n := by
  rw [bounded?_eq]
  split_ifs with hpast
  · exact hpast.1.symm
  · rfl

/-- Copying inside an array is one block move; nothing is moved where the code gives up. -/
theorem copyWithin_eq (g : Growable α) (target first : Float) (last : Option Float) :
    g.copyWithin target first last =
      ⟨Storage.copyWithin g.slots (Plain.index first g.length) (Plain.index target g.length)
        (min (Plain.stop last g.length - Plain.index first g.length)
          (g.length - Plain.index target g.length)), g.length⟩ := by
  have hlast : (last.bind (Position.bounded? · g.length)).getD g.length =
      Plain.stop last g.length := by
    cases last with
    | none => rfl
    | some x => exact bounded?_getD x g.length
  have hstop := stop_le last g.length
  have hidle (s t c : ℕ) (hc : c = 0) : Storage.copyWithin g.slots s t c = g.slots := by
    rw [hc, Storage.copyWithin_zero]
  unfold copyWithin
  rw [bounded?_eq, bounded?_eq, hlast]
  by_cases ht : Plain.index target g.length = g.length ∧ 0 ≤ Number.integerPart target
  · rw [if_pos ht, hidle _ _ _ (by omega)]
  · rw [if_neg ht]
    by_cases hs : Plain.index first g.length = g.length ∧ 0 ≤ Number.integerPart first
    · rw [if_pos hs, hidle _ _ _ (by omega)]
    · rw [if_neg hs]
      change (if Plain.stop last g.length ≤ Plain.index first g.length then g else _) = _
      by_cases hempty : Plain.stop last g.length ≤ Plain.index first g.length
      · rw [if_pos hempty, hidle _ _ _ (by omega)]
      · have hcount : min (min (Plain.stop last g.length - Plain.index first g.length)
            (g.length - Plain.index first g.length)) (g.length - Plain.index target g.length) =
            min (Plain.stop last g.length - Plain.index first g.length)
              (g.length - Plain.index target g.length) := by omega
        rw [if_neg hempty, hcount]

@[simp] theorem length_copyWithin (g : Growable α) (target first : Float) (last : Option Float) :
    (g.copyWithin target first last).length = g.length := by
  rw [copyWithin_eq]

@[simp] theorem capacity_copyWithin (g : Growable α) (target first : Float)
    (last : Option Float) : (g.copyWithin target first last).capacity = g.capacity := by
  rw [copyWithin_eq]
  exact Storage.size_copyWithin ..

/-- The cells of the target hold what those of the range have held, and no others change. -/
theorem slots_copyWithin {g : Growable α} (h : g.Fits) (target first : Float)
    (last : Option Float) (i : ℕ) :
    let t := Plain.index target g.length
    let s := Plain.index first g.length
    let c := min (Plain.stop last g.length - s) (g.length - t)
    (g.copyWithin target first last).slots[i]? =
      if t ≤ i ∧ i < t + c then g.slots[s + (i - t)]? else g.slots[i]? := by
  intro t s c
  have hsize : g.length ≤ g.slots.size := h
  have ht : t ≤ g.length := position_le target g.length
  have hs : s ≤ g.length := position_le first g.length
  have hstop := stop_le last g.length
  rw [copyWithin_eq]
  exact Storage.getElem?_copyWithin g.slots s t c i (by omega) (by omega)

theorem copyWithin_refines {g : Growable α} (h : g.Fits) (target first : Float)
    (last : Option Float) :
    (g.copyWithin target first last).Refines (g.plain.copyWithin target first last) := by
  have hlen := length_toList h
  have hstop := stop_le last g.length
  have ht := position_le target g.length
  have hcells := slots_copyWithin h target first last
  set t := Plain.index target g.length with ht_def
  set s := Plain.index first g.length with hs_def
  set c := min (Plain.stop last g.length - s) (g.length - t) with hc_def
  have hmid : ((g.toList.drop s).take c).length = c := by
    rw [List.length_take, List.length_drop]
    omega
  have helements : (g.plain.copyWithin target first last).elements =
      g.toList.take t ++ (g.toList.drop s).take c ++ g.toList.drop (t + c) := by
    simp only [Plain.copyWithin, plain, hlen, ← ht_def, ← hs_def, ← hc_def]
  have hlen' := length_copyWithin g target first last
  refine refines_of_cells ?_ (capacity_copyWithin g target first last) (hlen'.trans_le h) ?_
  · rw [hlen', helements, List.length_append, List.length_append, hmid, List.length_take,
      List.length_drop]
    omega
  · intro i hi
    rw [hlen'] at hi
    rw [hcells, helements, getElem?_spliced _ _ _ _ _ (by omega), hmid]
    by_cases hleft : i < t
    · rw [if_neg (by omega), if_pos hleft, getElem?_toList hi]
    · rw [if_neg hleft]
      by_cases hin : i < t + c
      · rw [if_pos (by omega), if_pos hin, List.getElem?_take_of_lt (by omega),
          List.getElem?_drop, getElem?_toList (by omega)]
      · have hrest : t + c + (i - (t + c)) = i := by omega
        rw [if_neg (by omega), if_neg hin, hrest, getElem?_toList hi]

/-! ### Operations that need room -/

section Room

variable [Cell α]

/-- Making room keeps the live cells and asks for exactly what the list asks for. -/
theorem reserve_alike {g : Growable α} (h : g.Fits) (n : ℕ) :
    Alike (fun r room => r.slots.size = room ∧ n ≤ room ∧ g.length ≤ room ∧
        ∀ i < g.length, r.slots[i]? = g.slots[i]?)
      (g.reserve n) (Plain.reserve g.capacity n) := by
  have hsize : g.length ≤ g.slots.size := h
  unfold reserve Plain.reserve capacity
  by_cases hroom : n ≤ g.slots.size
  · rw [if_pos hroom, if_pos hroom, if_neg (by omega)]
    exact .ok ⟨rfl, hroom, hsize, fun i _ => rfl⟩
  · rw [if_neg hroom, if_neg hroom]
    by_cases hmax : maxArrayLength < n
    · rw [if_pos hmax, if_pos (by omega)]
      exact .error _
    · have hgrown : grown n = min (n + 16) maxArrayLength := rfl
      rw [if_neg hmax, if_neg (by omega), Storage.allocate_boundless, if_neg (by omega)]
      refine .ok ⟨?_, by omega, by omega, ?_⟩
      · rw [Storage.size_copy, Array.size_replicate, hgrown]
      · intro i hi
        rw [Storage.getElem?_copy _ _ _ _ _ _ (by omega)
          (by rw [Array.size_replicate]; omega), if_pos (by omega), Nat.zero_add, Nat.sub_zero]

theorem push_alike {g : Growable α} (h : g.Fits) (items : List α) :
    Alike (fun r q => r.1 = q.1 ∧ r.2.Refines q.2) (g.push items) (g.plain.push items) := by
  have hlen := length_toList h
  unfold push Plain.push
  rw [plain, hlen]
  refine (reserve_alike h _).bind ?_
  rintro r room ⟨hsize, hn, -, hcells⟩
  refine .ok ⟨rfl, refines_of_cells ?_ ?_ hn ?_⟩
  · rw [List.length_append, hlen]
  · rw [Storage.size_write, hsize]
  · intro i (hi : i < g.length + items.length)
    change (Storage.write r.slots g.length items)[i]? = (g.toList ++ items)[i]?
    rw [Storage.getElem?_write _ _ _ _ (by omega)]
    by_cases hold : i < g.length
    · rw [if_neg (by omega), hcells i hold, List.getElem?_append_left (by omega),
        getElem?_toList hold]
    · rw [if_pos (by omega), List.getElem?_append_right (by omega), hlen]

theorem unshift_alike {g : Growable α} (h : g.Fits) (items : List α) :
    Alike (fun r q => r.1 = q.1 ∧ r.2.Refines q.2) (g.unshift items) (g.plain.unshift items) := by
  have hlen := length_toList h
  unfold unshift Plain.unshift
  rw [plain, hlen]
  refine (reserve_alike h _).bind ?_
  rintro r room ⟨hsize, hn, hold, hcells⟩
  refine .ok ⟨rfl, refines_of_cells ?_ ?_ hn ?_⟩
  · rw [List.length_append, hlen, Nat.add_comm]
  · rw [Storage.size_write, Storage.size_copyWithin, hsize]
  · intro i (hi : i < g.length + items.length)
    change (Storage.write (Storage.copyWithin r.slots 0 items.length g.length) 0 items)[i]? =
      (items ++ g.toList)[i]?
    rw [Storage.getElem?_write _ _ _ _ (by rw [Storage.size_copyWithin]; omega), Nat.zero_add,
      Nat.sub_zero]
    by_cases hnew : i < items.length
    · rw [if_pos ⟨Nat.zero_le i, hnew⟩, List.getElem?_append_left hnew]
    · rw [if_neg (by omega), Storage.getElem?_copyWithin _ _ _ _ _ (by omega) (by omega),
        if_pos (by omega), Nat.zero_add, hcells _ (by omega),
        List.getElem?_append_right (by omega), getElem?_toList (by omega)]

theorem pop_alike {g : Growable α} (h : g.Fits) :
    Alike (fun r q => r.1 = q.1 ∧ r.2.Refines q.2) g.pop g.plain.pop := by
  have hlen := length_toList h
  have hsize : g.length ≤ g.slots.size := h
  unfold pop Plain.pop
  by_cases hempty : g.length = 0
  · have hnil : g.plain.elements = [] := List.eq_nil_of_length_eq_zero (hlen.trans hempty)
    rw [if_pos hempty, hnil, List.getLast?_nil]
    exact .error _
  · have hcell : g.slots[g.length - 1]? = some g.slots[g.length - 1] :=
      Array.getElem?_eq_getElem (by omega)
    have hlast : g.plain.elements.getLast? = some g.slots[g.length - 1] := by
      rw [List.getLast?_eq_getElem?, plain, hlen, getElem?_toList (by omega), hcell]
    rw [if_neg hempty, hlast]
    refine .ok ⟨by simp only [hcell, Option.getD_some], refines_of_cells ?_ ?_ ?_ ?_⟩
    · rw [List.length_dropLast]
      exact congrArg (· - 1) hlen
    · exact Array.size_setIfInBounds
    · exact (Nat.sub_le _ _).trans h
    · intro i (hi : i < g.length - 1)
      change (g.slots.setIfInBounds (g.length - 1) Cell.filler)[i]? = g.toList.dropLast[i]?
      rw [Array.getElem?_setIfInBounds_ne (by omega), List.getElem?_dropLast, hlen, if_pos hi,
        getElem?_toList (by omega)]

theorem shift_alike {g : Growable α} (h : g.Fits) :
    Alike (fun r q => r.1 = q.1 ∧ r.2.Refines q.2) g.shift g.plain.shift := by
  have hlen := length_toList h
  have hsize : g.length ≤ g.slots.size := h
  unfold shift Plain.shift
  cases hxs : g.toList with
  | nil =>
    have hempty : g.length = 0 := by rw [← hlen, hxs, List.length_nil]
    rw [if_pos hempty, plain, hxs]
    exact .error _
  | cons x rest =>
    rw [hxs, List.length_cons] at hlen
    have hrest : rest.length = g.length - 1 := by omega
    have hcell (i : ℕ) (hi : i < g.length) : g.slots[i]? = (x :: rest)[i]? := by
      rw [← hxs, getElem?_toList hi]
    rw [if_neg (by omega)]
    simp only [plain, hxs, ← hrest, Storage.allocate_boundless]
    by_cases hmax : maxArrayLength < rest.length
    · rw [if_pos hmax, if_pos hmax]
      exact .error _
    · rw [if_neg hmax, if_neg hmax]
      refine .ok ⟨?_, refines_of_cells rfl ?_ (Nat.le_refl _) ?_⟩
      · simp only [hcell 0 (by omega), List.getElem?_cons_zero, Option.getD_some]
      · rw [Storage.size_copy, Array.size_replicate]
        rfl
      · intro i (hi : i < rest.length)
        change (Storage.copy _ 0 g.slots 1 rest.length)[i]? = rest[i]?
        rw [Storage.getElem?_copy _ _ _ _ _ _ (by omega)
          (by rw [Array.size_replicate]; omega), if_pos (by omega), Nat.sub_zero,
          Nat.add_comm 1 i, hcell _ (by omega), List.getElem?_cons_succ]

/-- Splicing with the positions as the list operation reads them. -/
theorem splice_eq [Memory] (g : Growable α) (start : Float) (number : Option Float) (items : List α) :
    g.splice start number items =
      (let s := Plain.index start g.length
      let c := Plain.count number (g.length - s)
      do
        let r ← g.reserve (g.length - c + items.length)
        return (ofList (g.slots.extract s (s + c)).toList,
          setLength ⟨Storage.write (Storage.copyWithin r.slots (s + c) (s + items.length)
            (g.length - s - c)) s items, g.length⟩ (g.length - c + items.length))) := by
  unfold splice
  cases number with
  | none =>
    simp only [position_eq]
    rfl
  | some x => simp only [position_eq, count_eq]

/-- A change of length leaves the cells below the new length alone. -/
theorem slots_setLength (slots : Array α) (m n i : ℕ) (h : m ≤ slots.size) (hi : i < n) :
    (setLength ⟨slots, m⟩ n).slots[i]? = slots[i]? := by
  change (if n < m then Storage.fill slots n m Cell.filler else slots)[i]? = slots[i]?
  split_ifs with hshorter
  · rw [Storage.getElem?_fill _ _ _ _ _ h, if_neg (by omega)]
  · rfl

theorem capacity_setLength (slots : Array α) (m n : ℕ) :
    (setLength ⟨slots, m⟩ n).slots.size = slots.size := by
  change (if n < m then Storage.fill slots n m Cell.filler else slots).size = slots.size
  split_ifs with hshorter
  · exact Storage.size_fill ..
  · rfl

theorem splice_alike {g : Growable α} (h : g.Fits) (start : Float) (number : Option Float)
    (items : List α) :
    Alike (fun r q => r.1 = ofList q.1 ∧ r.2.Refines q.2) (g.splice start number items)
      (g.plain.splice start number items) := by
  have hlen := length_toList h
  have hsize : g.length ≤ g.slots.size := h
  have hs := position_le start g.length
  have hc := count_le number (g.length - Plain.index start g.length)
  rw [splice_eq]
  unfold Plain.splice
  simp only [plain, hlen]
  set s := Plain.index start g.length
  set c := Plain.count number (g.length - s)
  refine (reserve_alike h _).bind ?_
  rintro r room ⟨hroom, hn, hold, hcells⟩
  have hremoved : (g.slots.extract s (s + c)).toList = (g.toList.drop s).take c := by
    rw [extract_toList_eq h (by omega), List.drop_take, Nat.add_sub_cancel_left]
  refine .ok ⟨by rw [hremoved], refines_of_cells ?_ ?_ hn ?_⟩
  · change (g.toList.take s ++ items ++ g.toList.drop (s + c)).length = _
    rw [List.length_append, List.length_append, List.length_take, List.length_drop, hlen]
    change _ = g.length - c + items.length
    omega
  · rw [capacity_setLength, Storage.size_write, Storage.size_copyWithin, hroom]
  · intro i (hi : i < g.length - c + items.length)
    rw [slots_setLength _ _ _ _ (by rw [Storage.size_write, Storage.size_copyWithin]; omega) hi,
      getElem?_spliced _ _ _ _ _ (by omega),
      Storage.getElem?_write _ _ _ _ (by rw [Storage.size_copyWithin]; omega),
      Storage.getElem?_copyWithin _ _ _ _ _ (by omega) (by omega)]
    by_cases hleft : i < s
    · rw [if_neg (by omega), if_neg (by omega), if_pos hleft, hcells i (by omega),
        getElem?_toList (by omega)]
    · rw [if_neg hleft]
      by_cases hmid : i < s + items.length
      · rw [if_pos (by omega), if_pos hmid]
      · rw [if_neg (by omega), if_pos (by omega), if_neg hmid, hcells _ (by omega),
          getElem?_toList (by omega)]

end Room

end Growable

end ValueEngine
