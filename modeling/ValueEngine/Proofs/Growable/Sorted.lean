import ValueEngine.Proofs.Growable.Partition

/-! Sorting is correct for every comparator that realises a total preorder: it succeeds, only
exchanges elements, and leaves none that sorts strictly before an earlier one. The two parts
of a partition are sorted one after the other; sorting a part neither leaves the part nor
carries an element across the split. The comparator may keep a state of its own, as long as it
answers in every state and leaves the array alone; elements that it takes for equal may end up
in any order. -/

namespace ValueEngine.Growable

open ValueEngine.Action

variable {σ α : Type} {le : α → α → Prop} {P : α → Prop}
variable {place : Place σ (Growable α)} {c : Closure σ α}

/-- The live elements from `l` to `r`, both included, are in order. -/
def Ordered (le : α → α → Prop) (g : Growable α) (l r : ℕ) : Prop :=
  ∀ a b, l ≤ a → a < b → b ≤ r → ∀ x y, g.get? a = some x → g.get? b = some y → le x y

theorem Every.shuffled {g h : Growable α} {l r : ℕ} {Q : α → Prop} (hgh : Exchanged l r g h)
    (hg : g.Fits) (hr : r < g.length) (hQ : Every g l (r + 1) Q) : Every h l (r + 1) Q := by
  intro k hk hk' x hx
  obtain ⟨k', hk'', hx'⟩ := hgh.source hg hr ⟨hk, by omega⟩ hx
  exact hQ k' hk''.1 (by omega) x hx'

theorem Ordered.exchanged {g h : Growable α} {a b l r : ℕ} (hord : Ordered le g a b)
    (hgh : Exchanged l r g h) (hg : g.Fits) (hr : r < g.length) (hout : b < l) :
    Ordered le h a b := by
  intro i j hi hij hj x y hx hy
  rw [hgh.outside hg hr (by omega)] at hx hy
  exact hord i j hi hij hj x y hx hy

/-- Two ranges in order, on the two sides of a pivot, are in order together. -/
theorem Ordered.append {g : Growable α} {l m r : ℕ} (pivot : α)
    (htrans : ∀ x y, x ∈ g.toList → y ∈ g.toList → le x pivot → le pivot y → le x y)
    (hleft : Ordered le g l m) (hright : Ordered le g (m + 1) r)
    (hlow : Every g l (m + 1) (le · pivot)) (hhigh : Every g (m + 1) (r + 1) (le pivot ·)) :
    Ordered le g l r := by
  intro i j hi hij hj x y hx hy
  by_cases him : i ≤ m
  · by_cases hjm : j ≤ m
    · exact hleft i j hi hij hjm x y hx hy
    · have hxp := hlow i hi (by omega) x hx
      have hpy := hhigh j (by omega) (by omega) y hy
      exact htrans x y (mem_of_get? hx) (mem_of_get? hy) hxp hpy
  · exact hright i j (by omega) hij hj x y hx hy

/-- Sorting a range exchanges elements of the range only and leaves it in order. -/
theorem sortRange_ensures (hc : Realises place c le P) {l r : ℕ} (s : σ) {g : Growable α}
    (hs : place.read s = g) (hg : g.Fits) (hP : ∀ x ∈ g.toList, P x) (hr : r < g.length) :
    Ensures (sortRange place c l r) s fun _ t =>
      Exchanged l r g (place.read t) ∧ Ordered le (place.read t) l r := by
  induction hn : r - l using Nat.strong_induction_on generalizing l r s g with
  | _ n ih =>
  rw [sortRange]
  by_cases hlr : l < r
  · obtain ⟨pivot, hpivot⟩ := get?_of_lt hg (k := l + (r - l) / 2) (by omega)
    have hPpivot := hP pivot (mem_of_get? hpivot)
    rw [dif_pos hlr]
    apply ensures_get_bind
    simp only [hs, hpivot]
    have hstart : Progress le g pivot l r l r :=
      ⟨Every.empty le_rfl, Every.empty le_rfl,
        Or.inl ⟨rfl, rfl, l + (r - l) / 2, by omega, hpivot⟩⟩
    apply (partitionFrom_ensures hc hPpivot ⟨l, by omega⟩ ⟨r, by omega⟩ s hs hg hP hr hstart).bind
    rintro _ t ⟨hgt, ⟨j, hlj, hjr⟩, rfl, hj, hlow, hhigh⟩
    change j < r at hj
    -- a partition never stops at the right end, so the split is where it stopped
    have hsplit : min j (r - 1) = j := by omega
    simp only [hsplit]
    change Every (place.read t) l (j + 1) (le · pivot) at hlow
    change Every (place.read t) (j + 1) (r + 1) (le pivot ·) at hhigh
    have htfits := hgt.fits hg
    have htlen := hgt.length
    have htP : ∀ x ∈ (place.read t).toList, P x :=
      fun x hx => hP x ((hgt.perm hg).mem_iff.mp hx)
    apply (ih (j - l) (by omega) t rfl htfits htP (by omega) rfl).bind
    rintro _ u ⟨htu, hleft⟩
    have hufits := htu.fits htfits
    have hulen := htu.length
    have huP : ∀ x ∈ (place.read u).toList, P x :=
      fun x hx => htP x ((htu.perm htfits).mem_iff.mp hx)
    apply (ih (r - (j + 1)) (by omega) u rfl hufits huP (by omega) rfl).mono
    rintro _ v ⟨huv, hright⟩
    have hvP : ∀ x ∈ (place.read v).toList, P x :=
      fun x hx => huP x ((huv.perm hufits).mem_iff.mp hx)
    constructor
    · have hleftPart : Exchanged l r (place.read t) (place.read u) :=
        htu.widen le_rfl (by omega)
      have hrightPart : Exchanged l r (place.read u) (place.read v) :=
        huv.widen (by omega) le_rfl
      exact (hgt.trans hleftPart).trans hrightPart
    · have hleft' := hleft.exchanged huv hufits (by omega) (by omega)
      have hlow' := hlow.shuffled htu htfits (by omega)
      have hlow'' := hlow'.exchanged huv hufits (by omega) (Or.inl le_rfl)
      have hhigh' := hhigh.exchanged htu htfits (by omega) (Or.inr (by omega))
      have hhigh'' := hhigh'.shuffled huv hufits (by omega)
      refine Ordered.append pivot ?_ hleft' hright hlow'' hhigh''
      intro x y hx hy
      exact hc.trans x pivot y (hvP x hx) hPpivot (hvP y hy)
  · rw [dif_neg hlr]
    apply ensures_pure
    rw [hs]
    refine ⟨Exchanged.refl g, ?_⟩
    intro a b ha hab hb
    omega

/-- An array whose live elements are in order from end to end is an ordered list. -/
theorem Ordered.pairwise {g : Growable α} (hg : g.Fits) (hord : Ordered le g 0 (g.length - 1)) :
    g.toList.Pairwise le := by
  have hlen := length_toList hg
  rw [List.pairwise_iff_getElem]
  intro i j hi hj hij
  apply hord i j (by omega) hij (by omega)
  · rw [get?_eq_getElem?_toList, List.getElem?_eq_getElem hi]
  · rw [get?_eq_getElem?_toList, List.getElem?_eq_getElem hj]

/-- **Sorting is correct.** With a comparator that realises a total preorder of the array's
elements, sorting succeeds and leaves the same elements in an array of the same length and
capacity, in which no later element sorts strictly before an earlier one. -/
theorem sort_sorts {s : σ} (hfits : (place.read s).Fits)
    (hc : Realises place c le (· ∈ (place.read s).toList)) :
    ∃ t, (sort place c).outcome s = (.ok (), t) ∧
      (place.read t).length = (place.read s).length ∧
      (place.read t).capacity = (place.read s).capacity ∧
      (place.read t).toList.Perm (place.read s).toList ∧
      (place.read t).toList.Pairwise fun x y => ¬ Before le y x := by
  have hsorted : Ensures (sort place c) s fun _ t =>
      Exchanged 0 ((place.read s).length - 1) (place.read s) (place.read t) ∧
        Ordered le (place.read t) 0 ((place.read s).length - 1) := by
    rw [sort]
    apply ensures_get_bind
    by_cases hlen : 1 < (place.read s).length
    · simp only [if_pos hlen]
      exact sortRange_ensures hc s rfl hfits (fun _ hx => hx) (by omega)
    · simp only [if_neg hlen]
      apply ensures_pure
      refine ⟨Exchanged.refl _, ?_⟩
      intro a b ha hab hb
      omega
  obtain ⟨⟨⟩, t, hout, hex, hord⟩ := hsorted
  refine ⟨t, hout, hex.length, hex.capacity, hex.perm hfits, ?_⟩
  rw [← hex.length] at hord
  exact (hord.pairwise (hex.fits hfits)).imp fun hle hbefore => hbefore.2 hle

def ascending : Closure σ Int32 where
  context := 0
  returns := .i32
  run
    | [_, .element pivot, .element x] =>
      return .i32 (if x < pivot then 1 else if pivot < x then -1 else 0)
    | _ => return .i32 0

theorem ascending_realises (place : Place σ (Growable Int32)) (P : Int32 → Prop) :
    Realises place ascending (· ≤ ·) P where
  total x y _ _ := Int32.le_total x y
  trans x y z _ _ _ := Int32.le_trans
  answers s p x _ _ := by
    have hone : Number.sign? (Number.ofInt (1 : Int32).toInt) = some .gt := by decide
    have hminus : Number.sign? (Number.ofInt (-1 : Int32).toInt) = some .lt := by decide
    have hzero : Number.sign? (Number.ofInt (0 : Int32).toInt) = some .eq := by decide
    refine ⟨_, _, s, rfl, rfl, rfl, ?_⟩
    simp only [Before, Int32.le_iff_toInt_le, Int32.lt_iff_toInt_lt]
    by_cases hxp : x.toInt < p.toInt
    · rw [if_pos hxp, hone]
      simp
      omega
    · by_cases hpx : p.toInt < x.toInt
      · rw [if_neg hxp, if_pos hpx, hminus]
        simp
        omega
      · rw [if_neg hxp, if_neg hpx, hzero]
        simp
        omega

/-- Sorting an array with a repeated element and a spare cell. -/
theorem sort_sorts_repeated :
    let g : Growable Int32 := ⟨#[3, 1, 3, -2, 0], 4⟩
    ∃ t, (sort Place.whole ascending).outcome g = (.ok (), t) ∧ t.length = 4 ∧ t.capacity = 5 ∧
      t.toList.Perm [3, 1, 3, -2] ∧ t.toList.Pairwise fun x y => ¬ Before (· ≤ ·) y x := by
  intro g
  have hfits : g.Fits := by
    show 4 ≤ 5
    decide
  have hc : Realises Place.whole ascending (· ≤ ·) (· ∈ (Place.whole.read g).toList) :=
    ascending_realises Place.whole _
  exact sort_sorts (s := g) hfits hc

end ValueEngine.Growable
