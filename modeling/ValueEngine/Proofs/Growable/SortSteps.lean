import Mathlib.Data.Int.Notation
import Mathlib.Data.Nat.Init
import Mathlib.Logic.Function.Iterate
import Mathlib.Tactic.SplitIfs
import ValueEngine.Growable.Sort
import ValueEngine.Proofs.Action

/-! Sorting step by step. A sort is taken apart into moments between which it makes one
comparison, one exchange or one split of a range at most. Scan positions are plain
integers here, which start outside of the range and are moved before they are looked at;
nothing but the steps themselves keeps them in it. The steps come to an end, and what
they come to is the outcome of the sort. -/

namespace ValueEngine.Growable

variable {σ α : Type}

/-- What a sort does next. In a range from `l` to `r` the upward scan has come to `i` and the
downward one to `j`. -/
inductive Phase (α : Type)
  /-- Begin with the first pending range. -/
  | next
  /-- Move the upward scan. -/
  | up (l r : ℕ) (pivot : α) (i j : ℤ)
  /-- Move the downward scan. -/
  | down (l r : ℕ) (pivot : α) (i j : ℤ)
  /-- Exchange what the scans have stopped at, or split the range where they have met. -/
  | meet (l r : ℕ) (pivot : α) (i j : ℤ)
  | done (result : Except ArrayFault Unit)

/-- A moment of a sort, with the ranges that are still to be sorted, the next one first. -/
structure Sorting (σ α : Type) where
  state : σ
  phase : Phase α
  pending : List (ℕ × ℕ)

namespace Sorting

/-- Where a range is split when the downward scan has stopped at `j`. -/
def splitAt (r : ℕ) (j : ℤ) : ℕ := min j.toNat (r - 1)

variable (place : Place σ (Growable α)) (c : Closure σ α)

def start (s : σ) : Sorting σ α :=
  let n := (place.read s).length
  ⟨s, .next, if 1 < n then [(0, n - 1)] else []⟩

/-- Let the comparator judge the element at a position, and go on by its answer. The range is
given up if the array has become too short, and the sort if the comparator fails. -/
def consult (m : Sorting σ α) (test : Float → Bool) (pivot : α) (i : ℕ)
    (stopped passed : Phase α) : Sorting σ α :=
  match (place.read m.state).get? i with
  | none => { m with phase := .next }
  | some x =>
    match (judge c test pivot x).outcome m.state with
    | (.ok b, t) => { m with state := t, phase := if b then stopped else passed }
    | (.error f, t) => ⟨t, .done (.error f), []⟩

def step (m : Sorting σ α) : Sorting σ α :=
  match m.phase with
  | .next =>
    match m.pending with
    | [] => { m with phase := .done (.ok ()) }
    | (l, r) :: rest =>
      if l < r then
        match (place.read m.state).get? (l + (r - l) / 2) with
        | none => { m with pending := rest }
        | some pivot => ⟨m.state, .up l r pivot (l - 1) (r + 1), rest⟩
      else { m with pending := rest }
  | .up l r pivot i j =>
    if i + 1 < r then
      m.consult place c Number.atMostZero pivot (i + 1).toNat (.down l r pivot (i + 1) j)
        (.up l r pivot (i + 1) j)
    else { m with phase := .down l r pivot (i + 1) j }
  | .down l r pivot i j =>
    if l < j - 1 then
      m.consult place c Number.atLeastZero pivot (j - 1).toNat (.meet l r pivot i (j - 1))
        (.down l r pivot i (j - 1))
    else { m with phase := .meet l r pivot i (j - 1) }
  | .meet l r pivot i j =>
    if i < j then
      { m with
        state := place.write ((place.read m.state).swap i.toNat j.toNat) m.state
        phase := .up l r pivot i j }
    else { m with phase := .next, pending := (l, splitAt r j) :: (splitAt r j + 1, r) :: m.pending }
  | .done _ => m

/-- The pivot and the element that the next step gives to the comparator, if it calls it. -/
def asks? (m : Sorting σ α) : Option (α × α) :=
  match m.phase with
  | .up _ r pivot i _ =>
    if i + 1 < r then ((place.read m.state).get? (i + 1).toNat).map (pivot, ·) else none
  | .down l _ pivot _ j =>
    if l < j - 1 then ((place.read m.state).get? (j - 1).toNat).map (pivot, ·) else none
  | _ => none

/-- How often the comparator is called in a number of steps. -/
def calls : (steps : ℕ) → Sorting σ α → ℕ
  | 0, _ => 0
  | steps + 1, m => (if (m.asks? place).isSome then 1 else 0) + calls steps (m.step place c)

def after (steps : ℕ) (m : Sorting σ α) : Sorting σ α := (step place c)^[steps] m

/-- Steps lead from one moment to the other. -/
def Leads (m m' : Sorting σ α) : Prop := ∃ steps, after place c steps m = m'

end Sorting

/-! ### The steps come to what the sort comes to -/

section Agreement

variable {place : Place σ (Growable α)} {c : Closure σ α} {m m' m'' : Sorting σ α}
variable {pivot : α} {l r p q : ℕ} {rest : List (ℕ × ℕ)}

namespace Sorting

theorem Leads.refl (m : Sorting σ α) : m.Leads place c m := ⟨0, rfl⟩

theorem Leads.trans (h : m.Leads place c m') (h' : m'.Leads place c m'') : m.Leads place c m'' := by
  obtain ⟨k, rfl⟩ := h
  obtain ⟨k', rfl⟩ := h'
  exact ⟨k' + k, Function.iterate_add_apply _ _ _ _⟩

theorem leads_step (m : Sorting σ α) : m.Leads place c (m.step place c) := ⟨1, rfl⟩

theorem Leads.head (hstep : m.step place c = m') (h : m'.Leads place c m'') :
    m.Leads place c m'' := by
  subst hstep
  exact (leads_step m).trans h

/-- The moment after a part of a sort: the part has come to something to go on with, it has
given the range up, or the comparator has failed. -/
def resume {β : Type} (rest : List (ℕ × ℕ)) (go : β → σ → Sorting σ α) :
    Except ArrayFault (Option β) × σ → Sorting σ α
  | (.ok (some x), t) => go x t
  | (.ok none, t) => ⟨t, .next, rest⟩
  | (.error f, t) => ⟨t, .done (.error f), []⟩

/-- The moment after a range has been sorted. -/
def proceed (rest : List (ℕ × ℕ)) : Except ArrayFault Unit × σ → Sorting σ α
  | (.ok _, t) => ⟨t, .next, rest⟩
  | (.error f, t) => ⟨t, .done (.error f), []⟩

theorem resume_map {β γ : Type} (f : β → γ) (go : γ → σ → Sorting σ α)
    (a : Action σ ArrayFault (Option β)) (s : σ) :
    resume rest go ((do let found ← a; return found.map f : Action σ ArrayFault _).outcome s) =
      resume rest (fun x => go (f x)) (a.outcome s) := by
  rw [Action.outcome_bind]
  rcases a.outcome s with ⟨r, t⟩
  rcases r with e | _ | x <;> rfl

end Sorting

open Sorting

theorem scanUp_leads (h : p ≤ r) (j : ℤ) (s : σ) :
    Leads place c ⟨s, .up l r pivot (p - 1) j, rest⟩
      (resume rest (fun i t => ⟨t, .down l r pivot i.1 j, rest⟩)
        ((scanUp place c pivot r p h).outcome s)) := by
  -- On what the scan has still to look at; its position in the moment is one behind.
  induction hn : r - p generalizing p s with
  | zero =>
    rw [scanUp, dif_neg (by omega)]
    refine Leads.head ?_ (Leads.refl _)
    rw [step]
    dsimp only
    rw [if_neg (by omega), Int.sub_add_cancel]
    rfl
  | succ n ih =>
    have hpr : p < r := by omega
    rw [scanUp, dif_pos hpr, Action.outcome_bind, Action.outcome_get]
    dsimp only
    refine Leads.head rfl ?_
    rw [step]
    dsimp only
    rw [if_pos (by omega), Int.sub_add_cancel, consult, Int.toNat_natCast]
    cases (place.read s).get? p with
    | none => exact Leads.refl _
    | some x =>
      dsimp only
      rw [Action.outcome_bind]
      rcases (judge c Number.atMostZero pivot x).outcome s with ⟨e | b, t⟩
      · exact Leads.refl _
      · cases b with
        | true => exact Leads.refl _
        | false =>
          have hmore := ih (p := p + 1) hpr t (by omega)
          rw [Int.natCast_succ, Int.add_sub_cancel] at hmore
          simp only [Bool.false_eq_true, if_false, resume_map]
          exact hmore

theorem scanDown_leads (h : l ≤ q) (i : ℤ) (s : σ) :
    Leads place c ⟨s, .down l r pivot i (q + 1), rest⟩
      (resume rest (fun j t => ⟨t, .meet l r pivot i j.1, rest⟩)
        ((scanDown place c pivot l q h).outcome s)) := by
  induction hn : q - l generalizing q s with
  | zero =>
    rw [scanDown, dif_neg (by omega)]
    refine Leads.head ?_ (Leads.refl _)
    rw [step]
    dsimp only
    rw [if_neg (by omega), Int.add_sub_cancel]
    rfl
  | succ n ih =>
    have hlq : l < q := by omega
    rw [scanDown, dif_pos hlq, Action.outcome_bind, Action.outcome_get]
    dsimp only
    refine Leads.head rfl ?_
    rw [step]
    dsimp only
    rw [if_pos (by omega), Int.add_sub_cancel, consult, Int.toNat_natCast]
    cases (place.read s).get? q with
    | none => exact Leads.refl _
    | some x =>
      dsimp only
      rw [Action.outcome_bind]
      rcases (judge c Number.atLeastZero pivot x).outcome s with ⟨e | b, t⟩
      · exact Leads.refl _
      · cases b with
        | true => exact Leads.refl _
        | false =>
          have hmore := ih (q := q - 1) (by omega) t (by omega)
          have hback : ((q - 1 : ℕ) : ℤ) + 1 = q := by omega
          rw [hback] at hmore
          simp only [Bool.false_eq_true, if_false, resume_map]
          exact hmore

/-- Where a partition ends the range is split into two, which are sorted next. -/
theorem partitionFrom_leads (p q : Between l r) (s : σ) :
    Leads place c ⟨s, .up l r pivot (p.1 - 1) (q.1 + 1), rest⟩
      (resume rest (fun j t => ⟨t, .next, (l, splitAt r j.1) :: (splitAt r j.1 + 1, r) :: rest⟩)
        ((partitionFrom place c pivot l r p q).outcome s)) := by
  -- On the places from the upward scan on: an exchange moves it past one of them at least.
  induction hn : r - p.1 using Nat.strong_induction_on generalizing p q s with
  | _ n ih =>
  refine (scanUp_leads p.2.2 (q.1 + 1) s).trans ?_
  rw [partitionFrom, Action.outcome_bind]
  rcases (scanUp place c pivot r p.1 p.2.2).outcome s with ⟨e | _ | ⟨i, hpi, hir⟩, t⟩
  · exact Leads.refl _
  · exact Leads.refl _
  · dsimp only [resume]
    refine (scanDown_leads q.2.1 i t).trans ?_
    rw [Action.outcome_bind]
    rcases (scanDown place c pivot l q.1 q.2.1).outcome t with ⟨e | _ | ⟨j, hlj, hjq⟩, u⟩
    · exact Leads.refl _
    · exact Leads.refl _
    · dsimp only [resume]
      refine Leads.head rfl ?_
      rw [step]
      dsimp only
      by_cases hij : i < j
      · rw [dif_pos hij, if_pos (by omega), Int.toNat_natCast, Int.toNat_natCast,
          Action.outcome_bind, Action.outcome_modify]
        have hmore := ih (r - (i + 1)) (by omega) ⟨i + 1, by omega⟩ ⟨j - 1, by omega⟩
          (place.write ((place.read u).swap i j) u) rfl
        have hi : ((i + 1 : ℕ) : ℤ) - 1 = i := by omega
        have hj : ((j - 1 : ℕ) : ℤ) + 1 = j := by omega
        dsimp only at hmore
        rw [hi, hj] at hmore
        exact hmore
      · rw [dif_neg hij, if_neg (by omega)]
        exact Leads.refl _

/-- Sorting a range comes to an end, and then the other pending ranges are next. -/
theorem sortRange_leads (l r : ℕ) (s : σ) (rest : List (ℕ × ℕ)) :
    Leads place c ⟨s, .next, (l, r) :: rest⟩
      (proceed rest ((sortRange place c l r).outcome s)) := by
  -- On the width of the range. A split leaves at least one place to each part.
  induction hn : r - l using Nat.strong_induction_on generalizing l r s rest with
  | _ n ih =>
  refine Leads.head rfl ?_
  rw [sortRange, step]
  dsimp only
  by_cases hlr : l < r
  · rw [dif_pos hlr, if_pos hlr, Action.outcome_bind, Action.outcome_get]
    dsimp only
    cases (place.read s).get? (l + (r - l) / 2) with
    | none => exact Leads.refl _
    | some pivot =>
      dsimp only
      refine (partitionFrom_leads ⟨l, by omega⟩ ⟨r, by omega⟩ s).trans ?_
      rw [Action.outcome_bind]
      rcases (partitionFrom place c pivot l r ⟨l, by omega⟩ ⟨r, by omega⟩).outcome s with
        ⟨e | _ | ⟨j, hlj, hjr⟩, t⟩
      · exact Leads.refl _
      · exact Leads.refl _
      · have hsplit : splitAt r j = min j (r - 1) := by rw [splitAt, Int.toNat_natCast]
        dsimp only [resume]
        rw [hsplit, Action.outcome_bind]
        refine (ih _ (by omega) l (min j (r - 1)) t _ rfl).trans ?_
        rcases (sortRange place c l (min j (r - 1))).outcome t with ⟨e | _, u⟩
        · exact Leads.refl _
        · exact ih _ (by omega) (min j (r - 1) + 1) r u rest rfl
  · rw [dif_neg hlr, if_neg hlr]
    exact Leads.refl _

variable (place c) in
/-- The steps end with the outcome of the sort. -/
theorem sort_leads (s : σ) :
    (start place s).Leads place c
      ⟨((sort place c).outcome s).2, .done ((sort place c).outcome s).1, []⟩ := by
  have hend : ∀ result : Except ArrayFault Unit × σ,
      Leads place c (proceed [] result) ⟨result.2, .done result.1, []⟩ := by
    rintro ⟨e | _, t⟩
    · exact Leads.refl _
    · exact Leads.head rfl (Leads.refl _)
  rw [sort, Action.outcome_bind, Action.outcome_get, start]
  dsimp only
  split_ifs with hlen
  · exact (sortRange_leads 0 _ s []).trans (hend _)
  · exact hend (.ok (), s)

end Agreement

end ValueEngine.Growable
