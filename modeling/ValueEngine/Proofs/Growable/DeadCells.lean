import ValueEngine.Proofs.Action
import ValueEngine.Proofs.Growable.Runs

/-! Dead cells. Every operation of a growable array leaves the filler in all cells past the
length, so that no element is kept by a cell that is not live any more, and it changes
the capacity by one rule: what needs more cells than there are gets them with some
slack, and removing the first element leaves no spare cell at all. -/

namespace ValueEngine

/-- The capacity after an operation that has succeeded, by the capacity before it and the new
length. -/
def Edit.capacity {ι α : Type} (e : Edit ι α) (c n : ℕ) : ℕ :=
  match e with
  | push _ | unshift _ | splice _ _ _ =>
    if c < n then min (n + Growable.slack) maxArrayLength else c
  | shift => n
  | _ => c

namespace Growable

variable {α : Type} [Cell α] {g g' : Growable α} {slots : Array α} {n m : ℕ}

/-- The cells from a position on hold the filler. -/
def DeadFrom (slots : Array α) (n : ℕ) : Prop :=
  ∀ i, n ≤ i → i < slots.size → slots[i]? = .some Cell.filler

/-- The live elements fit in the storage, and all other cells hold the filler. -/
structure Clean (g : Growable α) : Prop where
  fits : g.Fits
  dead : DeadFrom g.slots g.length

namespace DeadFrom

theorem of_getElem? {slots' : Array α} (h : DeadFrom slots n) (hsize : slots'.size = slots.size)
    (hcells : ∀ i, m ≤ i → i < slots.size → n ≤ i ∧ slots'[i]? = slots[i]?) :
    DeadFrom slots' m := by
  intro i hi hin
  rw [hsize] at hin
  obtain ⟨hdead, hcell⟩ := hcells i hi hin
  rw [hcell]
  exact h i hdead hin

end DeadFrom

/-- An array without spare cells has no dead ones. -/
theorem clean_of_full (h : g.slots.size = g.length) : g.Clean where
  fits := h.ge
  dead i hi hin := absurd (hi.trans_lt hin) (by rw [h]; exact lt_irrefl _)

theorem clean_ofList (xs : List α) : (ofList xs).Clean := clean_of_full (capacity_ofList xs)

theorem clean_withLength [Memory] {x : α} (h : withLength n x = .ok g) : g.Clean := by
  rw [withLength] at h
  cases hslots : Storage.allocate n x with
  | error _ =>
    rw [hslots] at h
    cases h
  | ok slots =>
    rw [hslots] at h
    obtain ⟨-, rfl⟩ := Storage.allocate_eq_ok hslots
    cases h
    exact clean_of_full Array.size_replicate

theorem Clean.of_cells (h : g.Clean) (hsize : slots.size = g.slots.size)
    (hcells : ∀ i, g.length ≤ i → slots[i]? = g.slots[i]?) : Clean ⟨slots, g.length⟩ where
  fits := h.fits.trans_eq hsize.symm
  dead := h.dead.of_getElem? hsize fun i hi _ => ⟨hi, hcells i hi⟩

theorem reserve_dead [Memory] {r : Growable α} (h : g.Clean) (hr : g.reserve n = .ok r) :
    r.slots.size = (if g.capacity < n then grown n else g.capacity) ∧ n ≤ r.slots.size ∧
      g.length ≤ r.slots.size ∧ DeadFrom r.slots g.length := by
  have hfits : g.length ≤ g.slots.size := h.fits
  rw [reserve, capacity] at *
  split_ifs at hr with hroom hmax
  · cases hr
    rw [if_neg (Nat.not_lt.mpr hroom)]
    exact ⟨rfl, hroom, hfits, h.dead⟩
  · have hgrown : grown n = min (n + slack) maxArrayLength := rfl
    obtain ⟨slots, hslots, hr⟩ := bind_eq_ok hr
    obtain ⟨-, rfl⟩ := Storage.allocate_eq_ok hslots
    cases hr
    have hsize : (Array.replicate (grown n) (Cell.filler : α)).size = grown n := Array.size_replicate
    rw [Storage.size_copy, hsize, if_pos (Nat.not_le.mp hroom)]
    refine ⟨rfl, by omega, by omega, fun i hi hin => ?_⟩
    rw [Storage.size_copy, hsize] at hin
    rw [Storage.getElem?_copy _ _ _ _ _ _ (by omega) (by omega), if_neg (by omega),
      Array.getElem?_replicate, if_pos hin]

/-! ### Operations -/

section Operations

variable {items : List α} {x : α}

theorem push_clean [Memory] (h : g.Clean) (hr : g.push items = .ok (n, g')) :
    g'.Clean ∧ g'.capacity = (Edit.push items : Edit _ α).capacity g.capacity g'.length := by
  obtain ⟨r, hreserve, hr⟩ := bind_eq_ok hr
  cases hr
  obtain ⟨hsize, hn, -, hdead⟩ := reserve_dead h hreserve
  have hsize' := Storage.size_write r.slots g.length items
  refine ⟨⟨hn.trans_eq hsize'.symm, ?_⟩, hsize'.trans hsize⟩
  refine hdead.of_getElem? hsize' fun i hi _ => ?_
  change g.length + items.length ≤ i at hi
  rw [Storage.getElem?_write _ _ _ _ (by omega), if_neg (by omega)]
  exact ⟨by omega, rfl⟩

theorem unshift_clean [Memory] (h : g.Clean) (hr : g.unshift items = .ok (n, g')) :
    g'.Clean ∧ g'.capacity = (Edit.unshift items : Edit _ α).capacity g.capacity g'.length := by
  obtain ⟨r, hreserve, hr⟩ := bind_eq_ok hr
  cases hr
  obtain ⟨hsize, hn, -, hdead⟩ := reserve_dead h hreserve
  have hmoved := Storage.size_copyWithin r.slots 0 items.length g.length
  have hsize' := (Storage.size_write (Storage.copyWithin r.slots 0 items.length g.length) 0
    items).trans hmoved
  refine ⟨⟨hn.trans_eq hsize'.symm, ?_⟩, hsize'.trans hsize⟩
  refine hdead.of_getElem? hsize' fun i hi _ => ?_
  change g.length + items.length ≤ i at hi
  rw [Storage.getElem?_write _ _ _ _ (by omega), if_neg (by omega),
    Storage.getElem?_copyWithin _ _ _ _ _ (by omega) (by omega), if_neg (by omega)]
  exact ⟨by omega, rfl⟩

/-- A change of length clears the cells that die. -/
theorem setLength_dead (hm : m ≤ slots.size) (h : DeadFrom slots (max m n)) :
    DeadFrom (setLength ⟨slots, m⟩ n).slots n := by
  intro i hi hin
  rw [capacity_setLength] at hin
  change (if n < m then Storage.fill slots n m Cell.filler else slots)[i]? = .some Cell.filler
  split_ifs with hshorter
  · rw [Storage.getElem?_fill _ _ _ _ _ hm]
    split_ifs with hdies
    · rfl
    · exact h i (by omega) hin
  · exact h i (by omega) hin

theorem splice_clean [Memory] {start : Float} {number : Option Float} {removed : Growable α}
    (h : g.Clean) (hr : g.splice start number items = .ok (removed, g')) :
    removed.Clean ∧ g'.Clean ∧ g'.capacity =
      (Edit.splice start number (.some items) : Edit _ α).capacity g.capacity g'.length := by
  have hs := position_le start g.length
  have hc := count_le number (g.length - Plain.index start g.length)
  rw [splice_eq] at hr
  dsimp only at hr
  generalize Plain.index start g.length = s at hr hs hc
  generalize Plain.count number (g.length - s) = c at hr hc
  obtain ⟨r, hreserve, hr⟩ := bind_eq_ok hr
  cases hr
  obtain ⟨hsize, hn, hfits, hdead⟩ := reserve_dead h hreserve
  have hmoved := Storage.size_copyWithin r.slots (s + c) (s + items.length) (g.length - s - c)
  have hsize' := (Storage.size_write (Storage.copyWithin r.slots (s + c) (s + items.length)
    (g.length - s - c)) s items).trans hmoved
  have hcapacity := (capacity_setLength _ g.length (g.length - c + items.length)).trans hsize'
  refine ⟨clean_ofList _, ⟨hn.trans_eq hcapacity.symm, ?_⟩, hcapacity.trans hsize⟩
  apply setLength_dead (hfits.trans_eq hsize'.symm)
  refine hdead.of_getElem? hsize' fun i hi _ => ⟨by omega, ?_⟩
  rw [Storage.getElem?_write _ _ _ _ (by omega), if_neg (by omega),
    Storage.getElem?_copyWithin _ _ _ _ _ (by omega) (by omega), if_neg (by omega)]

theorem pop_clean (h : g.Clean) (hr : g.pop = .ok (x, g')) :
    g'.Clean ∧ g'.capacity = g.capacity := by
  have hfits : g.length ≤ g.slots.size := h.fits
  rw [pop] at hr
  split_ifs at hr with hempty
  cases hr
  have hsize : (g.slots.setIfInBounds (g.length - 1) Cell.filler).size = g.slots.size :=
    Array.size_setIfInBounds
  refine ⟨⟨(Nat.sub_le _ _).trans (hfits.trans_eq hsize.symm), fun i hi hin => ?_⟩, hsize⟩
  rw [hsize] at hin
  change g.length - 1 ≤ i at hi
  rw [Array.getElem?_setIfInBounds]
  split_ifs with hlast
  · rfl
  · omega
  · exact h.dead i (by omega) hin

theorem shift_clean [Memory] (hr : g.shift = .ok (x, g')) :
    g'.Clean ∧ g'.capacity = g'.length := by
  rw [shift] at hr
  split_ifs at hr with hempty
  obtain ⟨slots, hslots, hr⟩ := bind_eq_ok hr
  cases hr
  obtain ⟨-, rfl⟩ := Storage.allocate_eq_ok hslots
  have hsize : (Storage.copy (Array.replicate (g.length - 1) (Cell.filler : α)) 0 g.slots 1
      (g.length - 1)).size = g.length - 1 := by
    rw [Storage.size_copy, Array.size_replicate]
  exact ⟨clean_of_full hsize, hsize⟩

theorem reverse_clean (h : g.Clean) : g.reverse.Clean ∧ g.reverse.capacity = g.capacity := by
  refine ⟨h.of_cells (Storage.size_reverse _ _ _) fun i hi => ?_, Storage.size_reverse _ _ _⟩
  rw [Storage.getElem?_reverse _ _ _ _ h.fits, if_neg (by omega)]

theorem fill_clean (h : g.Clean) (x : α) (first : Float) (last : Option Float) :
    (g.fill x first last).Clean ∧ (g.fill x first last).capacity = g.capacity := by
  have hlast := stop_le last g.length
  rw [fill]
  simp only [position_eq, stop_eq]
  split_ifs with hrange
  · refine ⟨h.of_cells (Storage.size_fill ..) fun i hi => ?_, Storage.size_fill ..⟩
    rw [Storage.getElem?_fill _ _ _ _ _ (hlast.trans h.fits), if_neg (by omega)]
  · exact ⟨h, rfl⟩

theorem copyWithin_clean (h : g.Clean) (target first : Float) (last : Option Float) :
    (g.copyWithin target first last).Clean ∧
      (g.copyWithin target first last).capacity = g.capacity := by
  have hfits : g.length ≤ g.slots.size := h.fits
  have hstop := stop_le last g.length
  have htarget := position_le target g.length
  have hfirst := position_le first g.length
  rw [copyWithin_eq]
  refine ⟨h.of_cells (Storage.size_copyWithin ..) fun i hi => ?_, Storage.size_copyWithin ..⟩
  rw [Storage.getElem?_copyWithin _ _ _ _ _ (by omega) (by omega), if_neg (by omega)]

theorem set_clean (h : g.Clean) (i : ℕ) (x : α) :
    (g.set i x).2.Clean ∧ (g.set i x).2.capacity = g.capacity := by
  rw [set]
  split_ifs with hi
  · refine ⟨h.of_cells Array.size_setIfInBounds fun j hj => ?_, Array.size_setIfInBounds⟩
    exact Array.getElem?_setIfInBounds_ne (by omega)
  · exact ⟨h, rfl⟩

theorem swap_clean (h : g.Clean) (i j : ℕ) :
    (g.swap i j).Clean ∧ (g.swap i j).capacity = g.capacity := by
  have hfits : g.length ≤ g.slots.size := h.fits
  rw [swap]
  split_ifs with hlive
  · refine ⟨h.of_cells Array.size_swapIfInBounds fun k hk => ?_, Array.size_swapIfInBounds⟩
    rw [Storage.getElem?_swapIfInBounds _ _ _ _ (by omega) (by omega), if_neg (by omega),
      if_neg (by omega)]
  · exact ⟨h, rfl⟩

omit [Cell α] in
theorem eq_concat_of_append [Memory] {other made : Growable α} (h : g.append other = .ok made) :
    made = g.concat other := by
  rw [append] at h
  split_ifs at h
  exact (Except.ok.inj h).symm

theorem slice_clean (g : Growable α) (first : Float) (last : Option Float) :
    (g.slice first last).Clean := by
  rw [slice]
  split_ifs
  · exact clean_ofList []
  · exact clean_ofList _

end Operations

/-- Whatever an operation does, dead cells hold the filler and the capacity is what the rule
says; the arrays that it makes have no dead cells. -/
theorem perform_clean [Memory] (h : g.Clean) {e : Edit (List α) α} {r : Effect α (Growable α)}
    (hr : g.perform e = .ok r) :
    (r.receiver.Clean ∧ r.receiver.capacity = e.capacity g.capacity r.receiver.length) ∧
      ∀ made, r.made = .some made → made.Clean := by
  cases e with
  | push items =>
    obtain ⟨⟨n, g'⟩, hpush, hr⟩ := bind_eq_ok hr
    cases hr
    exact ⟨push_clean h hpush, nofun⟩
  | pop =>
    obtain ⟨⟨x, g'⟩, hpop, hr⟩ := bind_eq_ok hr
    cases hr
    exact ⟨pop_clean h hpop, nofun⟩
  | shift =>
    obtain ⟨⟨x, g'⟩, hshift, hr⟩ := bind_eq_ok hr
    cases hr
    exact ⟨shift_clean hshift, nofun⟩
  | unshift items =>
    obtain ⟨⟨n, g'⟩, hunshift, hr⟩ := bind_eq_ok hr
    cases hr
    exact ⟨unshift_clean h hunshift, nofun⟩
  | splice start number items =>
    obtain ⟨⟨removed, g'⟩, hsplice, hr⟩ := bind_eq_ok hr
    cases hr
    obtain ⟨hremoved, hclean⟩ := splice_clean h hsplice
    exact ⟨hclean, by rintro _ ⟨⟩; exact hremoved⟩
  | slice first last =>
    cases hr
    exact ⟨⟨h, rfl⟩, by rintro _ ⟨⟩; exact slice_clean g first last⟩
  | concat other =>
    obtain ⟨made, hjoin, hr⟩ := bind_eq_ok hr
    obtain rfl := eq_concat_of_append hjoin
    cases hr
    exact ⟨⟨h, rfl⟩, by rintro _ ⟨⟩; exact clean_ofList _⟩
  | reverse =>
    cases hr
    exact ⟨reverse_clean h, nofun⟩
  | fill x first last =>
    cases hr
    exact ⟨fill_clean h x first last, nofun⟩
  | copyWithin target first last =>
    cases hr
    exact ⟨copyWithin_clean h target first last, nofun⟩
  | set i x =>
    cases hr
    exact ⟨set_clean h i x, nofun⟩

end Growable

end ValueEngine
