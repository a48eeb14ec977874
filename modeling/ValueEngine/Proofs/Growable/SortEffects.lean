import ValueEngine.Proofs.Growable.Exchange
import ValueEngine.Proofs.Growable.SortSteps

/-! What a sort does to its state. A step either calls the comparator and does nothing else, or
it exchanges two elements at most. So with a comparator that leaves the array alone only
exchanges remain, whatever it answers, and no element is lost or doubled, also where the
comparator fails in the middle of a partition. -/

namespace ValueEngine.Growable

variable {σ α : Type}

/-- The second array has storage for its length, and it is the first one but for the order of the
elements. -/
structure Rearranged (g h : Growable α) : Prop where
  fits : h.Fits
  length : h.length = g.length
  capacity : h.capacity = g.capacity
  perm : h.toList.Perm g.toList

namespace Rearranged

variable {g h : Growable α}

theorem refl (hg : g.Fits) : Rearranged g g := ⟨hg, rfl, rfl, List.Perm.refl _⟩

theorem swap (hgh : Rearranged g h) (i j : ℕ) : Rearranged g (h.swap i j) where
  fits := by
    rw [Fits, length_swap, capacity_swap]
    exact hgh.fits
  length := by rw [length_swap, hgh.length]
  capacity := by rw [capacity_swap, hgh.capacity]
  perm := (perm_swap hgh.fits i j).trans hgh.perm

end Rearranged

/-- A call of the comparator ends in a state with a failure: its own, or that its result is no
number. -/
def FailsIn (c : Closure σ α) (f : ArrayFault) (t : σ) : Prop :=
  ∃ pivot x s r, (c.onPair pivot x).outcome s = (r, t) ∧ r >>= Result.number = .error f

section Effects

namespace Sorting

variable (place : Place σ (Growable α)) (c : Closure σ α)

/-- What a step from one moment to another does to the state: it calls the comparator once and
nothing else, or it does not call it and exchanges two elements at most. It fails with the
comparator only. -/
inductive Effect (m m' : Sorting σ α) : Prop
  | called (pivot x : α) (r : Except ArrayFault Result) (hasks : m.asks? place = some (pivot, x))
      (hcall : (c.onPair pivot x).outcome m.state = (r, m'.state))
      (hfail : ∀ f, m'.phase = .done (.error f) → r >>= Result.number = .error f)
  | unmoved (hasks : m.asks? place = none) (hstate : m'.state = m.state)
      (hfail : ∀ f, m'.phase = .done (.error f) → m.phase = .done (.error f))
  | exchanged (i j : ℕ) (hasks : m.asks? place = none)
      (hstate : m'.state = place.write ((place.read m.state).swap i j) m.state)
      (hfail : ∀ f, m'.phase ≠ .done (.error f))

end Sorting

variable {place : Place σ (Growable α)} {c : Closure σ α} {m : Sorting σ α}

theorem outcome_judge (test : Float → Bool) (pivot x : α) (s : σ) :
    (judge c test pivot x).outcome s =
      ((((c.onPair pivot x).outcome s).1 >>= Result.number).map test,
        ((c.onPair pivot x).outcome s).2) := by
  rw [judge, Action.outcome_bind]
  rcases (c.onPair pivot x).outcome s with ⟨e | r, t⟩
  · rfl
  · dsimp only
    rw [Action.outcome_bind, Action.outcome_ofExcept]
    change _ = (r.number.map test, t)
    cases r.number <;> rfl

namespace Sorting

theorem asks?_up {s : σ} {l r : ℕ} {pivot : α} {i j : ℤ} {pending : List (ℕ × ℕ)} :
    asks? place ⟨s, .up l r pivot i j, pending⟩ =
      if i + 1 < r then ((place.read s).get? (i + 1).toNat).map (pivot, ·) else none := rfl

theorem asks?_down {s : σ} {l r : ℕ} {pivot : α} {i j : ℤ} {pending : List (ℕ × ℕ)} :
    asks? place ⟨s, .down l r pivot i j, pending⟩ =
      if l < j - 1 then ((place.read s).get? (j - 1).toNat).map (pivot, ·) else none := rfl

variable (place c) in
/-- A consultation finds no element, or it calls the comparator and goes by what it answers. -/
theorem consult_cases (m : Sorting σ α) (test : Float → Bool) (pivot : α) (i : ℕ)
    (stopped passed : Phase α) :
    ((place.read m.state).get? i = none ∧
        m.consult place c test pivot i stopped passed = { m with phase := .next }) ∨
      ∃ x r t, (place.read m.state).get? i = some x ∧
        (c.onPair pivot x).outcome m.state = (r, t) ∧
        ((∃ f, r >>= Result.number = .error f ∧
            m.consult place c test pivot i stopped passed = ⟨t, .done (.error f), []⟩) ∨
          ∃ b, m.consult place c test pivot i stopped passed =
            ⟨t, if b = true then stopped else passed, m.pending⟩) := by
  cases hx : (place.read m.state).get? i with
  | none => exact Or.inl ⟨rfl, by rw [consult, hx]⟩
  | some x =>
    rcases hcall : (c.onPair pivot x).outcome m.state with ⟨r, t⟩
    refine Or.inr ⟨x, r, t, rfl, hcall, ?_⟩
    rw [consult, hx]
    dsimp only
    rw [outcome_judge, hcall]
    cases hy : r >>= Result.number with
    | error f => exact Or.inl ⟨f, by rfl, rfl⟩
    | ok y => exact Or.inr ⟨test y, rfl⟩

theorem effect_consult {test : Float → Bool} {pivot : α} {i : ℕ} {stopped passed : Phase α}
    (hasks : m.asks? place = ((place.read m.state).get? i).map (pivot, ·))
    (hstopped : ∀ f, stopped ≠ .done (.error f)) (hpassed : ∀ f, passed ≠ .done (.error f)) :
    Effect place c m (m.consult place c test pivot i stopped passed) := by
  rcases consult_cases place c m test pivot i stopped passed with
    ⟨hx, hm⟩ | ⟨x, r, t, hx, hcall, ⟨f, hf, hm⟩ | ⟨b, hm⟩⟩
  · rw [hx] at hasks
    rw [hm]
    exact .unmoved hasks rfl nofun
  · rw [hx] at hasks
    rw [hm]
    refine .called pivot x r hasks hcall ?_
    rintro _ ⟨⟩
    exact hf
  · rw [hx] at hasks
    rw [hm]
    refine .called pivot x r hasks hcall fun f hphase => ?_
    cases b with
    | true => exact absurd hphase (hstopped f)
    | false => exact absurd hphase (hpassed f)

variable (place c) in
theorem effect_step (m : Sorting σ α) : Effect place c m (m.step place c) := by
  rcases m with ⟨s, phase, pending⟩
  -- Only the scans ask the comparator, and they do so only if the array still has the element.
  rw [step]
  cases phase with
  | next =>
    rcases pending with _ | ⟨⟨l, r⟩, rest⟩
    · exact .unmoved rfl rfl (by simp)
    · dsimp only
      split_ifs
      · cases (place.read s).get? (l + (r - l) / 2) with
        | none => exact .unmoved rfl rfl (by simp)
        | some pivot => exact .unmoved rfl rfl (by simp)
      · exact .unmoved rfl rfl (by simp)
  | up l r pivot i j =>
    dsimp only
    split_ifs with h
    · exact effect_consult (by rw [asks?_up, if_pos h]) (by simp) (by simp)
    · exact .unmoved (by rw [asks?_up, if_neg h]) rfl (by simp)
  | down l r pivot i j =>
    dsimp only
    split_ifs with h
    · exact effect_consult (by rw [asks?_down, if_pos h]) (by simp) (by simp)
    · exact .unmoved (by rw [asks?_down, if_neg h]) rfl (by simp)
  | meet l r pivot i j =>
    dsimp only
    split_ifs
    · exact .exchanged i.toNat j.toNat rfl rfl (by simp)
    · exact .unmoved rfl rfl (by simp)
  | done result => exact .unmoved rfl rfl fun f hphase => hphase

/-- Calls that leave the storage large enough for the length leave it so at every moment. -/
theorem fits_after
    (hc : ∀ pivot x u, (place.read u).Fits → (place.read ((c.onPair pivot x).outcome u).2).Fits)
    (hm : (place.read m.state).Fits) (steps : ℕ) :
    (place.read (m.after place c steps).state).Fits := by
  induction steps generalizing m with
  | zero => exact hm
  | succ steps ih =>
    apply ih (m := m.step place c)
    cases effect_step place c m with
    | called pivot x r _ hcall _ =>
      have hfits := hc pivot x m.state hm
      rw [hcall] at hfits
      exact hfits
    | unmoved _ hstate _ =>
      rw [hstate]
      exact hm
    | exchanged i j _ hstate _ =>
      rw [hstate, place.read_write, Fits, length_swap, capacity_swap]
      exact hm

/-- The array is `g` but for the order of the elements, and a failure is the comparator's. -/
structure Intact (place : Place σ (Growable α)) (c : Closure σ α) (g : Growable α)
    (m : Sorting σ α) : Prop where
  rearranged : Rearranged g (place.read m.state)
  fails : ∀ f, m.phase = .done (.error f) → FailsIn c f m.state

theorem intact_step {g : Growable α}
    (hc : ∀ pivot x u, place.read ((c.onPair pivot x).outcome u).2 = place.read u)
    (hm : m.Intact place c g) : (m.step place c).Intact place c g := by
  cases effect_step place c m with
  | called pivot x r _ hcall hfail =>
    have hread := hc pivot x m.state
    rw [hcall] at hread
    refine ⟨?_, fun f hphase => ⟨pivot, x, m.state, r, hcall, hfail f hphase⟩⟩
    rw [hread]
    exact hm.rearranged
  | unmoved _ hstate hfail =>
    refine ⟨?_, fun f hphase => ?_⟩
    · rw [hstate]
      exact hm.rearranged
    · rw [hstate]
      exact hm.fails f (hfail f hphase)
  | exchanged i j _ hstate hfail =>
    refine ⟨?_, fun f hphase => absurd hphase (hfail f)⟩
    rw [hstate, place.read_write]
    exact hm.rearranged.swap i j

theorem intact_after {g : Growable α}
    (hc : ∀ pivot x u, place.read ((c.onPair pivot x).outcome u).2 = place.read u)
    (hm : m.Intact place c g) (steps : ℕ) : (m.after place c steps).Intact place c g := by
  induction steps generalizing m with
  | zero => exact hm
  | succ steps ih => exact ih (intact_step hc hm)

end Sorting

open Sorting

/-- **Sorting keeps the elements.** If the comparator does not touch the array, whatever else it
does, the array ends with its length, its capacity and its elements in some order, also
where the sort fails, and then with a failure of the comparator, in the state that the
failing call has left. -/
theorem sort_permutes {s : σ} (hfits : (place.read s).Fits)
    (hc : ∀ pivot x u, place.read ((c.onPair pivot x).outcome u).2 = place.read u) :
    let t := ((sort place c).outcome s).2
    (place.read t).length = (place.read s).length ∧
      (place.read t).capacity = (place.read s).capacity ∧
      (place.read t).toList.Perm (place.read s).toList ∧
      ∀ f, ((sort place c).outcome s).1 = .error f → FailsIn c f t := by
  have hstart : (start place s).Intact place c (place.read s) :=
    ⟨Rearranged.refl hfits, nofun⟩
  obtain ⟨last, hlast⟩ := sort_leads place c s
  have hend := intact_after hc hstart last
  rw [hlast] at hend
  have harray := hend.rearranged
  refine ⟨harray.length, harray.capacity, harray.perm, fun f hf => hend.fails f ?_⟩
  dsimp only
  rw [hf]

def counted : Place (Growable Int32 × ℕ) (Growable Int32) :=
  ⟨Prod.fst, fun g s => (g, s.2), fun _ _ => rfl⟩

/-- A comparator that answers by how often it has been called, and in the end with no number. -/
def fickle : Closure (Growable Int32 × ℕ) Int32 where
  context := 0
  returns := .f64
  run _ := do
    let calls := (← get).2
    modify fun s => (s.1, s.2 + 1)
    match calls with
    | 0 => return .f64 (0 / 0)
    | 1 => return .i32 1
    | 2 => return .f64 (-1)
    | _ => return .bool true

/-- A comparator whose answers contradict each other loses nothing. -/
theorem sort_permutes_fickle :
    let g : Growable Int32 := ⟨#[3, 1, 2, 1, 0], 4⟩
    let t := ((sort counted fickle).outcome (g, 0)).2
    t.1.length = 4 ∧ t.1.capacity = 5 ∧ t.1.toList.Perm [3, 1, 2, 1] ∧
      ∀ f, ((sort counted fickle).outcome (g, 0)).1 = .error f → FailsIn fickle f t := by
  intro g
  have hfits : (counted.read (g, 0)).Fits := by
    show 4 ≤ 5
    decide
  have hc : ∀ pivot x u, counted.read ((fickle.onPair pivot x).outcome u).2 = counted.read u := by
    rintro pivot x ⟨h, calls⟩
    match calls with
    | 0 | 1 | 2 | _ + 3 => rfl
  exact sort_permutes hfits hc

end Effects

end ValueEngine.Growable
