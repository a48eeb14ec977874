import Mathlib.Tactic.Ring
import ValueEngine.Proofs.Growable.SortEffects

/-! Why a sort ends. Whatever the comparator answers, and whatever it does to the array
meanwhile, every moment of a sort finds the scans in their range and every split makes
both parts shorter. What the scans have still to look at, with a bound for the parts of
the ranges, pays for every call, so the comparator is called fewer times than there are
ordered pairs of places. -/

namespace ValueEngine.Growable

variable {σ α : Type}

/-- The range lies in the first `n` places, and both scans have come to positions in it or have
not begun. -/
def Phase.InRange (n : ℕ) : Phase α → Prop
  | up l r _ i j => l < r ∧ r < n ∧ ((l : ℤ) - 1 ≤ i ∧ i < r) ∧ (l : ℤ) < j ∧ j ≤ r + 1
  | down l r _ i j => l < r ∧ r < n ∧ ((l : ℤ) ≤ i ∧ i ≤ r) ∧ (l : ℤ) < j ∧ j ≤ r + 1
  | meet l r _ i j => l < r ∧ r < n ∧ ((l : ℤ) ≤ i ∧ i ≤ r) ∧ (l : ℤ) ≤ j ∧ j ≤ r
  | next | done _ => True

/-- How often sorting a range may call the comparator. -/
def rangeBudget (range : ℕ × ℕ) : ℕ := (range.2 - range.1) * (range.2 - range.1 + 1)

/-- How often the scans from `i` and `j` on and the parts of the range may call it. -/
def scanBudget (l r : ℕ) (i j : ℤ) : ℕ :=
  (r - 1 - i).toNat + (j - 1 - l).toNat + (r - l) * (r - l - 1)

def Phase.budget : Phase α → ℕ
  | up l r _ i j | down l r _ i j | meet l r _ i j => scanBudget l r i j
  | next | done _ => 0

namespace Sorting

/-- The moment concerns no place but the first `n`. -/
structure Inside (n : ℕ) (m : Sorting σ α) : Prop where
  phase : m.phase.InRange n
  pending : ∀ range ∈ m.pending, range.2 < n

/-- How often the comparator may still be called. -/
def budget (m : Sorting σ α) : ℕ := m.phase.budget + (m.pending.map rangeBudget).sum

/-- The next step reads or exchanges the element at a position for the range from `l` to `r`. -/
inductive Touches : Sorting σ α → (l r : ℕ) → ℤ → Prop
  | pivot {s : σ} {l r : ℕ} {rest : List (ℕ × ℕ)} (h : l < r) :
    Touches ⟨s, .next, (l, r) :: rest⟩ l r (l + (r - l) / 2 : ℕ)
  | up {s : σ} {l r : ℕ} {pivot : α} {i j : ℤ} {rest : List (ℕ × ℕ)} (h : i + 1 < r) :
    Touches ⟨s, .up l r pivot i j, rest⟩ l r (i + 1)
  | down {s : σ} {l r : ℕ} {pivot : α} {i j : ℤ} {rest : List (ℕ × ℕ)} (h : l < j - 1) :
    Touches ⟨s, .down l r pivot i j, rest⟩ l r (j - 1)
  | left {s : σ} {l r : ℕ} {pivot : α} {i j : ℤ} {rest : List (ℕ × ℕ)} (h : i < j) :
    Touches ⟨s, .meet l r pivot i j, rest⟩ l r i
  | right {s : σ} {l r : ℕ} {pivot : α} {i j : ℤ} {rest : List (ℕ × ℕ)} (h : i < j) :
    Touches ⟨s, .meet l r pivot i j, rest⟩ l r j

variable (place : Place σ (Growable α)) (c : Closure σ α)

/-- What holds of every moment of the sort of an array of `n` elements. -/
structure Orderly (n : ℕ) (m : Sorting σ α) : Prop where
  /-- Every position that is read or exchanged is in its range, and the range in the array as it
  was at the start. -/
  touched : ∀ l r p, m.Touches l r p → l ≤ p ∧ p ≤ r ∧ r < n
  /-- A position that the array no longer covers stays untouched. -/
  stale : ∀ l r p, m.Touches l r p → ((place.read m.state).length : ℤ) ≤ p →
    m.asks? place = none ∧ place.read (m.step place c).state = place.read m.state
  /-- Where the scans have met the range is split into two shorter ones. -/
  split : ∀ l r pivot i j, m.phase = .meet l r pivot i j → j ≤ i →
    ∃ k, l ≤ k ∧ k < r ∧ (m.step place c).pending = (l, k) :: (k + 1, r) :: m.pending
  /-- A step that calls the comparator does nothing else. -/
  called : ∀ pivot x, m.asks? place = some (pivot, x) →
    (m.step place c).state = ((c.onPair pivot x).outcome m.state).2
  /-- A step that does not call it changes neither the length nor the capacity of the array. -/
  kept : m.asks? place = none →
    (place.read (m.step place c).state).length = (place.read m.state).length ∧
      (place.read (m.step place c).state).capacity = (place.read m.state).capacity

end Sorting

/-! ### The budget of calls -/

section Bounds

variable {place : Place σ (Growable α)} {c : Closure σ α} {m : Sorting σ α}

namespace Sorting

theorem get?_of_length_le {g : Growable α} {p : ℤ} (hp : (g.length : ℤ) ≤ p) :
    g.get? p.toNat = none := by
  rw [get?, if_neg (by omega)]

/-- The two positions of an exchange are in use, or nothing is exchanged. -/
theorem swap_of_length_le {g : Growable α} {i j : ℕ} (h : g.length ≤ i ∨ g.length ≤ j) :
    g.swap i j = g := by
  rw [swap, if_neg (by omega)]

theorem unmoved_of_stale {l r : ℕ} {p : ℤ} (htouch : m.Touches l r p)
    (hp : ((place.read m.state).length : ℤ) ≤ p) :
    m.asks? place = none ∧ place.read (m.step place c).state = place.read m.state := by
  cases htouch with
  | pivot h =>
    refine ⟨rfl, ?_⟩
    rw [step]
    dsimp only at hp ⊢
    rw [if_pos h, ← Int.toNat_natCast (l + (r - l) / 2), get?_of_length_le hp]
  | up h =>
    rw [asks?, step]
    dsimp only at hp ⊢
    rw [if_pos h, if_pos h, consult, get?_of_length_le hp]
    exact ⟨rfl, rfl⟩
  | down h =>
    rw [asks?, step]
    dsimp only at hp ⊢
    rw [if_pos h, if_pos h, consult, get?_of_length_le hp]
    exact ⟨rfl, rfl⟩
  | left h =>
    refine ⟨rfl, ?_⟩
    rw [step]
    dsimp only at hp ⊢
    rw [if_pos h, place.read_write, swap_of_length_le (by omega)]
  | right h =>
    refine ⟨rfl, ?_⟩
    rw [step]
    dsimp only at hp ⊢
    rw [if_pos h, place.read_write, swap_of_length_le (by omega)]

/-! ### Places that a sort comes to -/

section Inside

variable {n : ℕ}

theorem inside_consult (hm : m.Inside n) {test : Float → Bool} {pivot : α} {i : ℕ}
    {stopped passed : Phase α} (hstopped : stopped.InRange n) (hpassed : passed.InRange n) :
    (m.consult place c test pivot i stopped passed).Inside n := by
  rcases consult_cases place c m test pivot i stopped passed with
    ⟨-, h⟩ | ⟨x, r, t, -, -, ⟨f, -, h⟩ | ⟨b, h⟩⟩
  · rw [h]
    exact ⟨trivial, hm.pending⟩
  · rw [h]
    exact ⟨trivial, nofun⟩
  · rw [h]
    cases b with
    | true => exact ⟨hstopped, hm.pending⟩
    | false => exact ⟨hpassed, hm.pending⟩

variable (place c) in
theorem inside_step (hm : m.Inside n) : (m.step place c).Inside n := by
  rcases m with ⟨s, phase, pending⟩
  have hpending := hm.pending
  rw [step]
  cases phase with
  | next =>
    rcases pending with _ | ⟨⟨l, r⟩, rest⟩
    · exact ⟨trivial, List.forall_mem_nil _⟩
    · have hrn : r < n := hpending (l, r) (List.mem_cons_self ..)
      have hrest : ∀ range ∈ rest, range.2 < n := fun range h =>
        hpending range (List.mem_cons_of_mem _ h)
      dsimp only
      split_ifs with hlr
      · cases (place.read s).get? (l + (r - l) / 2) with
        | none => exact ⟨trivial, hrest⟩
        | some pivot => exact ⟨⟨hlr, hrn, by omega, by omega⟩, hrest⟩
      · exact ⟨trivial, hrest⟩
  | up l r pivot i j =>
    obtain ⟨hlr, hrn, hi, hj⟩ := hm.phase
    dsimp only
    split_ifs with h
    · exact inside_consult hm ⟨hlr, hrn, by omega, hj⟩
        ⟨hlr, hrn, by omega, hj⟩
    · exact ⟨⟨hlr, hrn, by omega, hj⟩, hpending⟩
  | down l r pivot i j =>
    obtain ⟨hlr, hrn, hi, hj⟩ := hm.phase
    dsimp only
    split_ifs with h
    · exact inside_consult hm ⟨hlr, hrn, hi, by omega⟩
        ⟨hlr, hrn, hi, by omega⟩
    · exact ⟨⟨hlr, hrn, hi, by omega⟩, hpending⟩
  | meet l r pivot i j =>
    obtain ⟨hlr, hrn, hi, hj⟩ := hm.phase
    dsimp only
    split_ifs with h
    · exact ⟨⟨hlr, hrn, by omega, by omega⟩, hpending⟩
    · refine ⟨trivial, fun range hrange => ?_⟩
      rcases List.mem_cons.1 hrange with rfl | hrange
      · dsimp only [splitAt]
        omega
      rcases List.mem_cons.1 hrange with rfl | hrange
      · exact hrn
      · exact hpending range hrange
  | done result => exact ⟨trivial, hpending⟩

theorem inside_start (s : σ) : (start place s).Inside (place.read s).length := by
  refine ⟨trivial, fun range hrange => ?_⟩
  rw [start] at hrange
  dsimp only at hrange
  split_ifs at hrange with h
  · rw [List.mem_singleton.1 hrange]
    dsimp only
    omega
  · cases hrange

theorem inside_after (hm : m.Inside n) (steps : ℕ) : (m.after place c steps).Inside n := by
  induction steps generalizing m with
  | zero => exact hm
  | succ steps ih => exact ih (inside_step place c hm)

theorem touches_inside (hm : m.Inside n) {l r : ℕ} {p : ℤ} (htouch : m.Touches l r p) :
    l ≤ p ∧ p ≤ r ∧ r < n := by
  obtain ⟨hphase, hpending⟩ := hm
  cases htouch with
  | pivot h =>
    have hrn : r < n := hpending (l, r) (List.mem_cons_self ..)
    omega
  | up h | down h | left h | right h =>
    obtain ⟨hlr, hrn, hi, hj⟩ := hphase
    omega

theorem splits_inside (hm : m.Inside n) {l r : ℕ} {pivot : α} {i j : ℤ}
    (hphase : m.phase = .meet l r pivot i j) (hij : j ≤ i) :
    ∃ k, l ≤ k ∧ k < r ∧ (m.step place c).pending = (l, k) :: (k + 1, r) :: m.pending := by
  obtain ⟨hlr, -, hi, hj⟩ : Phase.InRange n (.meet l r pivot i j) := hphase ▸ hm.phase
  refine ⟨splitAt r j, ?_, ?_, ?_⟩
  · rw [splitAt]
    omega
  · rw [splitAt]
    omega
  · rw [step, hphase]
    dsimp only
    rw [if_neg (by omega)]

theorem orderly (hm : m.Inside n) : m.Orderly place c n where
  touched _ _ _ htouch := touches_inside hm htouch
  stale _ _ _ htouch hp := unmoved_of_stale htouch hp
  split _ _ _ _ _ hphase hij := splits_inside hm hphase hij
  called pivot x hasks := by
    cases effect_step place c m with
    | called pivot' x' r hasks' hcall _ =>
      cases hasks.symm.trans hasks'
      rw [hcall]
    | unmoved hnone _ _ | exchanged _ _ hnone _ _ => cases hasks.symm.trans hnone
  kept hnone := by
    cases effect_step place c m with
    | called pivot x r hasks _ _ => cases hnone.symm.trans hasks
    | unmoved _ hstate _ =>
      rw [hstate]
      exact ⟨rfl, rfl⟩
    | exchanged i j _ hstate _ =>
      rw [hstate, place.read_write]
      exact ⟨length_swap _ i j, capacity_swap _ i j⟩

/-- The parts of a range and the scans that lead to them. -/
theorem rangeBudget_split {l r k : ℕ} (hlk : l ≤ k) (hkr : k < r) :
    rangeBudget (l, k) + rangeBudget (k + 1, r) ≤ (r - l) * (r - l - 1) := by
  -- In the widths `a` and `b` of the parts the two sides differ by `2 * (a * b)`.
  obtain ⟨a, rfl⟩ := Nat.exists_eq_add_of_le hlk
  obtain ⟨b, rfl⟩ := Nat.exists_eq_add_of_le hkr
  have hwidth : l + a + 1 + b - l = a + b + 1 := by omega
  have hleft : l + a - l = a := by omega
  have hright : l + a + 1 + b - (l + a + 1) = b := by omega
  rw [rangeBudget, rangeBudget, hwidth, hleft, hright, Nat.add_sub_cancel]
  calc a * (a + 1) + b * (b + 1) ≤ a * (a + 1) + b * (b + 1) + 2 * (a * b) := Nat.le_add_right _ _
    _ = (a + b + 1) * (a + b) := by ring

theorem scanBudget_start {l r : ℕ} (hlr : l < r) :
    scanBudget l r (l - 1) (r + 1) = rangeBudget (l, r) := by
  obtain ⟨n, rfl⟩ := Nat.exists_eq_add_of_lt hlr
  have hup : ((l + n + 1 : ℕ) - 1 - ((l : ℤ) - 1)).toNat = n + 1 := by omega
  have hdown : (((l + n + 1 : ℕ) : ℤ) + 1 - 1 - l).toNat = n + 1 := by omega
  have hwidth : l + n + 1 - l = n + 1 := by omega
  rw [scanBudget, rangeBudget, hup, hdown, hwidth, Nat.add_sub_cancel]
  ring

theorem budget_consult {test : Float → Bool} {pivot : α} {i : ℕ} {stopped passed : Phase α}
    (hasks : m.asks? place = ((place.read m.state).get? i).map (pivot, ·))
    (hstopped : stopped.budget < m.phase.budget) (hpassed : passed.budget < m.phase.budget) :
    (m.consult place c test pivot i stopped passed).budget +
      (if (m.asks? place).isSome then 1 else 0) ≤ m.budget := by
  rw [hasks, budget, budget]
  rcases consult_cases place c m test pivot i stopped passed with
    ⟨hx, h⟩ | ⟨x, r, t, hx, -, ⟨f, -, h⟩ | ⟨b, h⟩⟩
  · rw [h, hx]
    exact Nat.add_le_add_right (Nat.zero_le _) _
  · rw [h, hx]
    exact (Nat.le_of_lt_succ (Nat.succ_lt_succ (Nat.zero_lt_of_lt hstopped))).trans
      (Nat.le_add_right _ _)
  · rw [h, hx]
    have hpaid : (if b = true then stopped else passed).budget < m.phase.budget := by
      cases b with
      | true => exact hstopped
      | false => exact hpassed
    simp only [Option.map_some, Option.isSome_some, if_true]
    omega

variable (place c) in
/-- A step that calls the comparator is paid for. -/
theorem budget_step (hm : m.Inside n) :
    (m.step place c).budget + (if (m.asks? place).isSome then 1 else 0) ≤ m.budget := by
  rcases m with ⟨s, phase, pending⟩
  rw [step]
  cases phase with
  | next =>
    rcases pending with _ | ⟨⟨l, r⟩, rest⟩
    · exact Nat.le_refl _
    · dsimp only
      by_cases hlr : l < r
      · rw [if_pos hlr]
        cases (place.read s).get? (l + (r - l) / 2) with
        | none => simp [budget, asks?]
        | some pivot => simp [budget, asks?, Phase.budget, scanBudget_start hlr]
      · rw [if_neg hlr]
        simp [budget, asks?]
  | up l r pivot i j =>
    obtain ⟨hlr, hrn, hi, hj⟩ := hm.phase
    dsimp only
    by_cases h : i + 1 < r
    · have hpaid : scanBudget l r (i + 1) j < scanBudget l r i j := by
        rw [scanBudget, scanBudget]
        omega
      rw [if_pos h]
      exact budget_consult (by rw [asks?_up, if_pos h]) hpaid hpaid
    · have hpaid : scanBudget l r (i + 1) j ≤ scanBudget l r i j := by
        rw [scanBudget, scanBudget]
        omega
      rw [if_neg h, asks?_up, if_neg h]
      exact Nat.add_le_add_right hpaid _
  | down l r pivot i j =>
    obtain ⟨hlr, hrn, hi, hj⟩ := hm.phase
    dsimp only
    by_cases h : l < j - 1
    · have hpaid : scanBudget l r i (j - 1) < scanBudget l r i j := by
        rw [scanBudget, scanBudget]
        omega
      rw [if_pos h]
      exact budget_consult (by rw [asks?_down, if_pos h]) hpaid hpaid
    · have hpaid : scanBudget l r i (j - 1) ≤ scanBudget l r i j := by
        rw [scanBudget, scanBudget]
        omega
      rw [if_neg h, asks?_down, if_neg h]
      exact Nat.add_le_add_right hpaid _
  | meet l r pivot i j =>
    obtain ⟨hlr, hrn, hi, hj⟩ := hm.phase
    dsimp only
    by_cases h : i < j
    · rw [if_pos h]
      exact Nat.le_refl _
    · have hparts := rangeBudget_split (l := l) (r := r) (k := splitAt r j)
        (by rw [splitAt]; omega) (by rw [splitAt]; omega)
      -- What was set aside for the parts of the range pays for them now.
      rw [if_neg h]
      simp only [budget, asks?, Phase.budget, scanBudget, List.map_cons, List.sum_cons,
        Option.isSome_none, Bool.false_eq_true, if_false]
      omega
  | done result => exact Nat.le_refl _

theorem budget_start (s : σ) :
    (start place s).budget ≤ (place.read s).length * ((place.read s).length - 1) := by
  rw [start]
  dsimp only [budget]
  split_ifs with h
  · have hone : (place.read s).length - 1 + 1 = (place.read s).length := by omega
    simp [Phase.budget, rangeBudget, hone, Nat.mul_comm]
  · exact Nat.zero_le _

/-- The calls never exceed the budget. -/
theorem calls_le_budget (hm : m.Inside n) (steps : ℕ) : m.calls place c steps ≤ m.budget := by
  induction steps generalizing m with
  | zero => exact Nat.zero_le _
  | succ steps ih =>
    have hrest := ih (inside_step place c hm)
    have hpaid := budget_step place c hm
    rw [calls]
    omega

end Inside

/-- What every call raises by one at most, and the sort itself leaves alone, counts calls. -/
theorem count_after {count : σ → ℕ} (hwrite : ∀ g u, count (place.write g u) = count u)
    (hcall : ∀ pivot x u, count ((c.onPair pivot x).outcome u).2 ≤ count u + 1) (steps : ℕ) :
    count (m.after place c steps).state ≤ count m.state + m.calls place c steps := by
  induction steps generalizing m with
  | zero => exact Nat.le_refl _
  | succ steps ih =>
    have hrest := ih (m := m.step place c)
    have hfirst : count (m.step place c).state ≤
        count m.state + (if (m.asks? place).isSome then 1 else 0) := by
      cases effect_step place c m with
      | called pivot x r hasks hout _ =>
        have hone := hcall pivot x m.state
        rw [hout] at hone
        rw [hasks]
        exact hone
      | unmoved hasks hstate _ =>
        rw [hasks, hstate]
        exact Nat.le_refl _
      | exchanged i j hasks hstate _ =>
        rw [hasks, hstate, hwrite]
        exact Nat.le_refl _
    rw [calls]
    change count ((m.step place c).after place c steps).state ≤ _
    omega

theorem after_of_done {result : Except ArrayFault Unit} (hm : m.phase = .done result) (steps : ℕ) :
    m.after place c steps = m := by
  have hstep : m.step place c = m := by rw [step, hm]
  exact Function.iterate_fixed hstep steps

end Sorting

open Sorting

/-- **Sorting always ends.** Whatever the comparator does, the steps of a sort come to its outcome
and stay there, and they call the comparator at most `n * (n - 1)` times for an array of `n`
elements, as any count that the calls keep will show. At every moment the scans are in
their range, the ranges get shorter, no cell is touched that the array does not have,
and no change of the length or the capacity is the sort's own; the storage covers the
length throughout if no call breaks that. -/
theorem sort_terminates (place : Place σ (Growable α)) (c : Closure σ α) (s : σ) :
    let n := (place.read s).length
    let moment := fun steps => (start place s).after place c steps
    (∃ last, ∀ steps, last ≤ steps → moment steps =
        ⟨((sort place c).outcome s).2, .done ((sort place c).outcome s).1, []⟩) ∧
      (∀ steps, (start place s).calls place c steps ≤ n * (n - 1)) ∧
      (∀ count : σ → ℕ, (∀ g u, count (place.write g u) = count u) →
        (∀ pivot x u, count ((c.onPair pivot x).outcome u).2 ≤ count u + 1) →
        count ((sort place c).outcome s).2 ≤ count s + n * (n - 1)) ∧
      (∀ steps, (moment steps).Orderly place c n) ∧
      ((place.read s).Fits →
        (∀ pivot x u, (place.read u).Fits →
          (place.read ((c.onPair pivot x).outcome u).2).Fits) →
        ∀ steps, (place.read (moment steps).state).Fits) := by
  intro n moment
  have hstart : (start place s).Inside n := inside_start s
  obtain ⟨last, hlast⟩ := sort_leads place c s
  have hcalls : ∀ steps, (start place s).calls place c steps ≤ n * (n - 1) := fun steps =>
    (calls_le_budget hstart steps).trans (budget_start s)
  refine ⟨?_, hcalls, ?_, ?_, ?_⟩
  · refine ⟨last, fun steps hsteps => ?_⟩
    obtain ⟨more, rfl⟩ := Nat.exists_eq_add_of_le' hsteps
    have hmore : moment (more + last) = ((start place s).after place c last).after place c more :=
      Function.iterate_add_apply _ _ _ _
    rw [hmore, hlast]
    exact after_of_done rfl more
  · intro count hwrite hcall
    have hcount := count_after hwrite hcall (m := start place s) last
    rw [hlast] at hcount
    exact hcount.trans (Nat.add_le_add_left (hcalls last) _)
  · exact fun steps => orderly (inside_after hstart steps)
  · exact fun hfits hc steps => fits_after hc hfits steps

/-- A comparator that shortens the array at each call, which can be compared with nothing. -/
def shrinking : Closure (Growable Int32) Int32 where
  context := 0
  returns := .f64
  run _ := do
    modify fun g => { g with length := g.length - 1 }
    return .f64 (0 / 0)

/-- Sorting ends although the array gets shorter meanwhile. -/
theorem sort_terminates_shrinking :
    let g : Growable Int32 := ⟨#[3, 1, 2, 0], 3⟩
    let moment := fun steps => (start Place.whole g).after Place.whole shrinking steps
    (∃ last, ∀ steps, last ≤ steps →
        (moment steps).phase = .done ((sort Place.whole shrinking).outcome g).1) ∧
      (∀ steps, (start Place.whole g).calls Place.whole shrinking steps ≤ 6) ∧
      ∀ steps, (moment steps).state.Fits := by
  intro g moment
  obtain ⟨⟨last, hlast⟩, hcalls, -, -, hfits⟩ := sort_terminates Place.whole shrinking g
  refine ⟨⟨last, fun steps hsteps => ?_⟩, hcalls, hfits ?_ ?_⟩
  · exact congrArg Sorting.phase (hlast steps hsteps)
  · show 3 ≤ 4
    decide
  · intro pivot x u hu
    exact (Nat.sub_le u.length 1).trans hu

end Bounds

end ValueEngine.Growable
