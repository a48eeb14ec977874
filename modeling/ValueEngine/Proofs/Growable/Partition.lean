import ValueEngine.Growable.Sort
import ValueEngine.Proofs.Action
import ValueEngine.Proofs.Growable.Exchange

/-! Partition of a range by a comparator that realises a total preorder. The ends of the
range are taken by the scans without asking. That never misplaces an element: in the
first round the pivot itself stops both scans, and afterwards the exchanged elements
behind the scans are known to lie on their sides. -/

namespace ValueEngine

namespace Number

/-- How a double stands to zero; NaN does not stand to it. -/
def sign? (x : Float) : Option Ordering := (rank? x).map (compare · 0)

theorem atMostZero_eq_true (x : Float) :
    atMostZero x = true ↔ sign? x = some .lt ∨ sign? x = some .eq := by
  unfold atMostZero sign?
  cases rank? x with
  | none => simp
  | some a =>
    simp only [decide_eq_true_eq, Option.map_some, Option.some.injEq, compare_lt_iff_lt,
      compare_eq_iff_eq]
    omega

theorem atLeastZero_eq_true (x : Float) :
    atLeastZero x = true ↔ sign? x = some .gt ∨ sign? x = some .eq := by
  unfold atLeastZero sign?
  cases rank? x with
  | none => simp
  | some a =>
    simp only [decide_eq_true_eq, Option.map_some, Option.some.injEq, compare_gt_iff_gt,
      compare_eq_iff_eq]
    omega

end Number

namespace Growable

open ValueEngine.Action

variable {σ α : Type} {le : α → α → Prop} {P : α → Prop}

/-- In the preorder `le`, `x` sorts strictly before `y`. -/
def Before (le : α → α → Prop) (x y : α) : Prop := le x y ∧ ¬ le y x

/-- The comparator realises a total preorder of the elements in `P`: in whatever state it is
called it answers, leaves the array in `place` alone, and its number is positive when the
element sorts before the pivot, negative when it sorts after, zero when they tie. -/
structure Realises (place : Place σ (Growable α)) (c : Closure σ α) (le : α → α → Prop)
    (P : α → Prop) : Prop where
  total : ∀ x y, P x → P y → le x y ∨ le y x
  trans : ∀ x y z, P x → P y → P z → le x y → le y z → le x z
  answers : ∀ s p x, P p → P x → ∃ res y t,
    (c.onPair p x).outcome s = (.ok res, t) ∧ place.read t = place.read s ∧ res.number = .ok y ∧
      (Number.sign? y = some .gt ↔ Before le x p) ∧
      (Number.sign? y = some .lt ↔ Before le p x) ∧
      (Number.sign? y = some .eq ↔ le x p ∧ le p x)

/-- Every live element from `a` up to but without `b` satisfies `Q`. -/
def Every (g : Growable α) (a b : ℕ) (Q : α → Prop) : Prop :=
  ∀ k, a ≤ k → k < b → ∀ x, g.get? k = some x → Q x

namespace Every

variable {g : Growable α} {Q : α → Prop} {a b d : ℕ}

theorem empty (h : b ≤ a) : Every g a b Q := by
  intro k hk hk'
  omega

theorem single {x : α} (hx : g.get? a = some x) (hQ : Q x) : Every g a (a + 1) Q := by
  intro k hk hk' y hy
  obtain rfl : k = a := by omega
  rw [hx, Option.some.injEq] at hy
  exact hy ▸ hQ

theorem append (h : Every g a b Q) (h' : Every g b d Q) : Every g a d Q := by
  intro k hk hk'
  by_cases hb : k < b
  · exact h k hk hb
  · exact h' k (by omega) hk'

theorem mono {Q' : α → Prop} (h : Every g a b Q) (hQ : ∀ x, Q x → Q' x) : Every g a b Q' :=
  fun k hk hk' x hx => hQ x (h k hk hk' x hx)

theorem narrow {a' b' : ℕ} (h : Every g a b Q) (ha : a ≤ a') (hb : b' ≤ b) : Every g a' b' Q :=
  fun k hk hk' => h k (ha.trans hk) (lt_of_lt_of_le hk' hb)

theorem exchanged {h : Growable α} {l r : ℕ} (hgh : Exchanged l r g h) (hg : g.Fits)
    (hr : r < g.length) (hout : b ≤ l ∨ r < a) (hQ : Every g a b Q) : Every h a b Q := by
  intro k hk hk'
  rw [hgh.outside hg hr (by omega)]
  exact hQ k hk hk'

end Every

theorem mem_of_get? {g : Growable α} {k : ℕ} {x : α} (hx : g.get? k = some x) : x ∈ g.toList := by
  rw [get?_eq_getElem?_toList] at hx
  exact List.mem_of_getElem? hx

variable {place : Place σ (Growable α)} {c : Closure σ α}

namespace Realises

theorem refl (hc : Realises place c le P) {x : α} (hx : P x) : le x x :=
  (hc.total x x hx hx).elim id id

theorem before_of_not_le (hc : Realises place c le P) {x y : α} (hx : P x) (hy : P y)
    (h : ¬ le x y) : Before le y x :=
  ⟨(hc.total x y hx hy).resolve_left h, h⟩

theorem outcome_judge {test : Float → Bool} {p x : α} {s t : σ} {res : Result} {y : Float}
    (hout : (c.onPair p x).outcome s = (.ok res, t)) (hnum : res.number = .ok y) :
    (judge c test p x).outcome s = (.ok (test y), t) := by
  rw [judge, outcome_bind, hout]
  change
    ((Action.ofExcept res.number >>= fun n => pure (test n)) : Action σ ArrayFault Bool).outcome t
      = _
  rw [outcome_bind, outcome_ofExcept, hnum]
  rfl

/-- The upward scan's question is whether the element does not sort before the pivot. -/
theorem judge_atMostZero (hc : Realises place c le P) {p x : α} (hp : P p) (hx : P x) (s : σ) :
    Ensures (judge c Number.atMostZero p x) s
      fun b t => place.read t = place.read s ∧ (b = true ↔ le p x) := by
  obtain ⟨res, y, t, hout, hread, hnum, -, hlt, heq⟩ := hc.answers s p x hp hx
  refine ⟨Number.atMostZero y, t, outcome_judge hout hnum, hread, ?_⟩
  rw [Number.atMostZero_eq_true, hlt, heq, Before]
  have htotal := hc.total p x hp hx
  tauto

/-- The downward scan's question is whether the element does not sort after the pivot. -/
theorem judge_atLeastZero (hc : Realises place c le P) {p x : α} (hp : P p) (hx : P x) (s : σ) :
    Ensures (judge c Number.atLeastZero p x) s
      fun b t => place.read t = place.read s ∧ (b = true ↔ le x p) := by
  obtain ⟨res, y, t, hout, hread, hnum, hgt, -, heq⟩ := hc.answers s p x hp hx
  refine ⟨Number.atLeastZero y, t, outcome_judge hout hnum, hread, ?_⟩
  rw [Number.atLeastZero_eq_true, hgt, heq, Before]
  have htotal := hc.total p x hp hx
  tauto

end Realises

/-! ### Scans -/

section Scans

variable {pivot : α} {g : Growable α} {l r : ℕ}

/-- The upward scan passes only elements that sort before the pivot, and what it stops at
does not, unless it is the right end. -/
theorem scanUp_ensures (hc : Realises place c le P) (hpivot : P pivot) (hg : g.Fits)
    (hP : ∀ x ∈ g.toList, P x) (hr : r < g.length) (p : ℕ) (h : p ≤ r) (s : σ)
    (hs : place.read s = g) :
    Ensures (scanUp place c pivot r p h) s fun found t => place.read t = g ∧ ∃ i,
      found = some i ∧ Every g p i.1 (Before le · pivot) ∧
        (i.1 < r → Every g i.1 (i.1 + 1) (le pivot ·)) := by
  induction hn : r - p generalizing p s with
  | zero =>
    rw [scanUp, dif_neg (by omega)]
    apply ensures_pure
    refine ⟨hs, _, rfl, Every.empty le_rfl, ?_⟩
    intro hi
    change p < r at hi
    omega
  | succ n ih =>
    have hp : p < r := by omega
    obtain ⟨x, hx⟩ := get?_of_lt hg (hp.trans hr)
    rw [scanUp, dif_pos hp]
    apply ensures_get_bind
    simp only [hs, hx]
    apply (hc.judge_atMostZero hpivot (hP x (mem_of_get? hx)) s).bind
    rintro b t ⟨ht, hb⟩
    by_cases hle : le pivot x
    · rw [if_pos (hb.mpr hle)]
      apply ensures_pure
      exact ⟨ht.trans hs, _, rfl, Every.empty le_rfl, fun _ => Every.single hx hle⟩
    · rw [if_neg (fun hb' => hle (hb.mp hb'))]
      apply (ih (p + 1) hp t (ht.trans hs) (by omega)).bind
      rintro _ u ⟨hu, i, rfl, hpassed, hstop⟩
      apply ensures_pure
      have hbefore := hc.before_of_not_le hpivot (hP x (mem_of_get? hx)) hle
      exact ⟨hu, _, rfl, (Every.single hx hbefore).append hpassed, hstop⟩

/-- The downward scan passes only elements that sort after the pivot, and what it stops at
does not, unless it is the left end. -/
theorem scanDown_ensures (hc : Realises place c le P) (hpivot : P pivot) (hg : g.Fits)
    (hP : ∀ x ∈ g.toList, P x) (q : ℕ) (hq : q < g.length) (h : l ≤ q) (s : σ)
    (hs : place.read s = g) :
    Ensures (scanDown place c pivot l q h) s fun found t => place.read t = g ∧ ∃ j,
      found = some j ∧ Every g (j.1 + 1) (q + 1) (Before le pivot ·) ∧
        (l < j.1 → Every g j.1 (j.1 + 1) (le · pivot)) := by
  induction hn : q - l generalizing q s with
  | zero =>
    rw [scanDown, dif_neg (by omega)]
    apply ensures_pure
    refine ⟨hs, _, rfl, Every.empty le_rfl, ?_⟩
    intro hj
    change l < q at hj
    omega
  | succ n ih =>
    have hl : l < q := by omega
    obtain ⟨x, hx⟩ := get?_of_lt hg hq
    rw [scanDown, dif_pos hl]
    apply ensures_get_bind
    simp only [hs, hx]
    apply (hc.judge_atLeastZero hpivot (hP x (mem_of_get? hx)) s).bind
    rintro b t ⟨ht, hb⟩
    by_cases hle : le x pivot
    · rw [if_pos (hb.mpr hle)]
      apply ensures_pure
      exact ⟨ht.trans hs, _, rfl, Every.empty le_rfl, fun _ => Every.single hx hle⟩
    · rw [if_neg (fun hb' => hle (hb.mp hb'))]
      apply (ih (q - 1) (by omega) (by omega) t (ht.trans hs) (by omega)).bind
      rintro _ u ⟨hu, j, rfl, hpassed, hstop⟩
      apply ensures_pure
      have hafter := hc.before_of_not_le (hP x (mem_of_get? hx)) hpivot hle
      rw [Nat.sub_add_cancel (by omega)] at hpassed
      exact ⟨hu, _, rfl, hpassed.append (Every.single hx hafter), hstop⟩

end Scans

/-- What holds between two rounds of scans: the elements that the scans have left behind
lie on their sides, and something ahead stops both scans, in the first round
the pivot and later an element that was exchanged. -/
structure Progress (le : α → α → Prop) (g : Growable α) (pivot : α) (l r p q : ℕ) : Prop where
  low : Every g l p (le · pivot)
  high : Every g (q + 1) (r + 1) (le pivot ·)
  stops : (p = l ∧ q = r ∧ ∃ m, (l ≤ m ∧ m < r) ∧ g.get? m = some pivot) ∨ (l < p ∧ q < r)

/-! ### The invariant between two rounds -/

namespace Progress

variable {g : Growable α} {pivot : α} {l r p q i j : ℕ}

/-- The first round's scans stop at the pivot at the latest. -/
theorem pivot_between (hle : le pivot pivot) {m : ℕ} (hm : g.get? m = some pivot)
    (hmr : p ≤ m ∧ m ≤ q) (hup : Every g p i (Before le · pivot))
    (hdown : Every g (j + 1) (q + 1) (Before le pivot ·)) : i ≤ m ∧ m ≤ j := by
  constructor
  · by_contra hi
    exact (hup m hmr.1 (by omega) pivot hm).2 hle
  · by_contra hj
    exact (hdown m (by omega) (by omega) pivot hm).2 hle

/-- What the upward scan stops at lies on the right, the right end included. -/
theorem stop_high (hp : Progress le g pivot l r p q) (hle : le pivot pivot) (hij : i ≤ r)
    (hup : Every g p i (Before le · pivot)) (hlq : p ≤ r)
    (hstop : i < r → Every g i (i + 1) (le pivot ·)) :
    Every g i (i + 1) (le pivot ·) := by
  by_cases hi : i < r
  · exact hstop hi
  · obtain rfl : i = r := by omega
    obtain ⟨rfl, rfl, m, hm, hpivot⟩ | ⟨-, hqr⟩ := hp.stops
    · exact absurd hle (hup m hm.1 hm.2 pivot hpivot).2
    · exact hp.high.narrow (by omega) le_rfl

theorem stop_low (hp : Progress le g pivot l r p q) (hle : le pivot pivot) (hlj : l ≤ j)
    (hdown : Every g (j + 1) (q + 1) (Before le pivot ·))
    (hstop : l < j → Every g j (j + 1) (le · pivot)) :
    Every g j (j + 1) (le · pivot) := by
  by_cases hj : l < j
  · exact hstop hj
  · have hjl : j = l := by omega
    subst hjl
    obtain ⟨-, rfl, m, hm, hpivot⟩ | ⟨hlp, -⟩ := hp.stops
    · by_cases hmj : m = j
      · subst hmj
        exact Every.single hpivot hle
      · exact absurd hle (hdown m (by omega) (by omega) pivot hpivot).2
    · exact hp.low.narrow le_rfl (by omega)

/-- After an exchange both elements lie behind the next scans, on their sides. -/
theorem of_swap (hg : g.Fits) (hr : r < g.length) (hli : l ≤ i) (hij : i < j) (hjr : j ≤ r)
    (hleft : Every g l i (le · pivot)) (hhigh : Every g i (i + 1) (le pivot ·))
    (hlow : Every g j (j + 1) (le · pivot)) (hright : Every g (j + 1) (r + 1) (le pivot ·)) :
    Progress le (g.swap i j) pivot l r (i + 1) (j - 1) := by
  have hswap : Exchanged i j g (g.swap i j) :=
    Exchanged.swap g ⟨le_rfl, hij.le⟩ ⟨hij.le, le_rfl⟩
  have hget := get?_swap hg (i := i) (j := j) (by omega) (by omega)
  have hi : Every (g.swap i j) i (i + 1) (le · pivot) := by
    intro k hk hk' x hx
    rw [hget, if_pos (by omega)] at hx
    exact hlow j le_rfl (by omega) x hx
  have hj : Every (g.swap i j) j (j + 1) (le pivot ·) := by
    intro k hk hk' x hx
    rw [hget, if_neg (by omega), if_pos (by omega)] at hx
    exact hhigh i le_rfl (by omega) x hx
  refine ⟨?_, ?_, Or.inr ⟨by omega, by omega⟩⟩
  · exact (hleft.exchanged hswap hg (by omega) (Or.inl le_rfl)).append hi
  · rw [Nat.sub_add_cancel (by omega)]
    exact hj.append (hright.exchanged hswap hg (by omega) (Or.inr (by omega)))

end Progress

/-- A partition splits the range below its right end into a left part of elements at most
the pivot and a right part of elements at least the pivot. -/
theorem partitionFrom_ensures (hc : Realises place c le P) {pivot : α} (hpivot : P pivot)
    {l r : ℕ} (p q : Between l r) (s : σ) {g : Growable α} (hs : place.read s = g) (hg : g.Fits)
    (hP : ∀ x ∈ g.toList, P x) (hr : r < g.length)
    (hprog : Progress le g pivot l r p.1 q.1) :
    Ensures (partitionFrom place c pivot l r p q) s fun found t =>
      Exchanged l r g (place.read t) ∧ ∃ j, found = some j ∧ j.1 < r ∧
        Every (place.read t) l (j.1 + 1) (le · pivot) ∧
        Every (place.read t) (j.1 + 1) (r + 1) (le pivot ·) := by
  have hle := hc.refl hpivot
  induction hn : r - p.1 using Nat.strong_induction_on generalizing p q s g with
  | _ n ih =>
  obtain ⟨p, hlp, hpr⟩ := p
  obtain ⟨q, hlq, hqr⟩ := q
  change r - p = n at hn
  change Progress le g pivot l r p q at hprog
  rw [partitionFrom]
  apply (scanUp_ensures hc hpivot hg hP hr p hpr s hs).bind
  rintro _ t ⟨ht, ⟨i, hpi, hir⟩, rfl, hup, hupStop⟩
  apply (scanDown_ensures hc hpivot hg hP q (by omega) hlq t ht).bind
  rintro _ u ⟨hu, ⟨j, hlj, hjq⟩, rfl, hdown, hdownStop⟩
  have hhigh := hprog.stop_high hle hir hup hpr hupStop
  have hlow := hprog.stop_low hle hlj hdown hdownStop
  have hleft : Every g l i (le · pivot) := hprog.low.append (hup.mono fun _ hx => hx.1)
  have hright : Every g (j + 1) (r + 1) (le pivot ·) :=
    (hdown.mono fun _ hx => hx.1).append hprog.high
  dsimp only
  by_cases hij : i < j
  · have hswap : Exchanged l r g (g.swap i j) :=
      Exchanged.swap g ⟨by omega, hir⟩ ⟨hlj, by omega⟩
    have hread : place.read (place.write ((place.read u).swap i j) u) = g.swap i j := by
      rw [place.read_write, hu]
    have hnext := Progress.of_swap hg hr (by omega) hij (by omega) hleft hhigh hlow hright
    rw [dif_pos hij]
    apply ensures_modify_bind
    apply (ih (r - (i + 1)) (by omega) ⟨i + 1, by omega⟩ ⟨j - 1, by omega⟩ _ hread
      (hswap.fits hg) (fun x hx => hP x ((hswap.perm hg).mem_iff.mp hx))
      (by rw [hswap.length]; exact hr) hnext rfl).mono
    rintro found t ⟨hex, hrest⟩
    exact ⟨hswap.trans hex, hrest⟩
  · rw [dif_neg hij]
    apply ensures_pure
    have hjr : j < r := by
      obtain ⟨rfl, rfl, m, hm, hmp⟩ | ⟨-, hqr'⟩ := hprog.stops
      · have hbetween : i ≤ m ∧ m ≤ j :=
          Progress.pivot_between hle hmp (by omega) hup hdown
        omega
      · omega
    rw [hu]
    refine ⟨Exchanged.refl g, ⟨j, hlj, by omega⟩, rfl, hjr, ?_, hright⟩
    exact (hleft.narrow le_rfl (by omega)).append hlow

end Growable

end ValueEngine
