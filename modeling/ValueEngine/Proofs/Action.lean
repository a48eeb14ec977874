import Mathlib.Logic.Relation
import ValueEngine.Action

/-! What actions come to. An action ensures a postcondition from a state when it succeeds
there and its result and final state satisfy it; it reaches its final state by certain
steps, whether it succeeds or fails, or fails after such steps only, whatever it does
when it succeeds. A sequence is taken apart at the state between its two parts. -/

namespace ValueEngine

/-- What succeeds in two parts succeeds in each. -/
theorem bind_eq_ok {ε α β : Type} {a : Except ε α} {f : α → Except ε β} {y : β}
    (h : (a >>= f) = .ok y) : ∃ x, a = .ok x ∧ f x = .ok y := by
  cases a with
  | error e => cases h
  | ok x => exact ⟨x, rfl, h⟩

namespace Action

variable {σ ε α β : Type}

theorem ext {a b : Action σ ε α} (h : ∀ s, a.outcome s = b.outcome s) : a = b := funext h

theorem outcome_map (f : α → β) (a : Action σ ε α) (s : σ) :
    outcome (f <$> a) s = ((a.outcome s).1.map f, (a.outcome s).2) := by
  rw [map_eq_pure_bind, outcome_bind]
  rcases a.outcome s with ⟨r, t⟩
  cases r <;> rfl

theorem result_of_outcome {a : Action σ ε α} {s t : σ} {x : α} (h : a.outcome s = (.ok x, t)) :
    a.result s = .ok (x, t) := by
  rw [result, h]

section Result

/-- A sequence comes to what its second part comes to after the first. -/
theorem result_bind (a : Action σ ε α) (f : α → Action σ ε β) (s : σ) :
    (a >>= f).result s = a.result s >>= fun r => (f r.1).result r.2 := by
  simp only [result, outcome_bind]
  rcases a.outcome s with ⟨r, t⟩
  cases r <;> rfl

theorem result_get_bind (f : σ → Action σ ε β) (s : σ) :
    (get >>= f).result s = (f s).result s := rfl

theorem result_ofExcept_bind (r : Except ε α) (f : α → Action σ ε β) (s : σ) :
    (ofExcept r >>= f).result s = r >>= fun x => (f x).result s := by
  cases r <;> rfl

theorem result_map (f : α → β) (a : Action σ ε α) (s : σ) :
    (f <$> a).result s = (a.result s).map fun r => (f r.1, r.2) := by
  simp only [result, outcome_map]
  rcases a.outcome s with ⟨r, t⟩
  cases r <;> rfl

end Result

section Atomic

variable {a : Action σ ε α} {f : α → Action σ ε β}

/-- An action that never changes the state. -/
def Looks (a : Action σ ε α) : Prop := ∀ s, (a.outcome s).2 = s

/-- An action that never fails. -/
def Succeeds (a : Action σ ε α) : Prop := ∀ s, ∃ x t, a.outcome s = (.ok x, t)

/-- An action that fails only as long as it has not changed the state. -/
def Atomic (a : Action σ ε α) : Prop := ∀ s f t, a.outcome s = (.error f, t) → t = s

theorem looks_pure (x : α) : Looks (pure x : Action σ ε α) := fun _ => rfl

theorem looks_throw (f : ε) : Looks (throw f : Action σ ε α) := fun _ => rfl

theorem looks_get : Looks (get : Action σ ε σ) := fun _ => rfl

theorem looks_ofExcept (r : Except ε α) : Looks (ofExcept r : Action σ ε α) :=
  fun s => by rw [outcome_ofExcept]

theorem succeeds_pure (x : α) : Succeeds (pure x : Action σ ε α) := fun s => ⟨x, s, rfl⟩

theorem succeeds_set (t : σ) : Succeeds (set t : Action σ ε PUnit) := fun _ => ⟨⟨⟩, t, rfl⟩

theorem succeeds_modify (f : σ → σ) : Succeeds (modify f : Action σ ε PUnit) :=
  fun s => ⟨⟨⟩, f s, rfl⟩

theorem Looks.atomic (ha : a.Looks) : a.Atomic := by
  intro s g t hout
  rw [← ha s, hout]

theorem Succeeds.atomic (ha : a.Succeeds) : a.Atomic := by
  intro s g t hout
  obtain ⟨x, u, hok⟩ := ha s
  cases hok.symm.trans hout

/-- After an atomic action nothing may fail any more, unless the action has not changed the
state. -/
theorem Atomic.bind (ha : a.Atomic)
    (hf : ∀ s x t, a.outcome s = (.ok x, t) → (t = s ∧ (f x).Atomic) ∨ (f x).Succeeds) :
    (a >>= f).Atomic := by
  intro s g t hout
  rw [outcome_bind] at hout
  rcases h : a.outcome s with ⟨r, u⟩
  rw [h] at hout
  cases r with
  | error _ =>
    cases hout
    exact ha s _ _ h
  | ok x =>
    obtain ⟨rfl, hatomic⟩ | hsucceeds := hf s x u h
    · exact hatomic u g t hout
    · obtain ⟨y, v, hok⟩ := hsucceeds u
      cases hok.symm.trans hout

theorem Looks.bind_atomic (ha : a.Looks) (hf : ∀ x, (f x).Atomic) : (a >>= f).Atomic :=
  ha.atomic.bind fun s x t hout => .inl ⟨by rw [← ha s, hout], hf x⟩

theorem Atomic.bind_succeeds (ha : a.Atomic) (hf : ∀ x, (f x).Succeeds) : (a >>= f).Atomic :=
  ha.bind fun _ x _ _ => .inr (hf x)

theorem Atomic.map (ha : a.Atomic) (f : α → β) : (f <$> a).Atomic := by
  rw [← bind_pure_comp]
  exact ha.bind_succeeds fun _ => succeeds_pure _

/-- The outcome of an atomic action is its result, or its failure in the state as it was. -/
theorem Atomic.outcome_eq (ha : a.Atomic) (s : σ) : a.outcome s =
    match a.result s with
    | .ok (x, t) => (.ok x, t)
    | .error g => (.error g, s) := by
  rw [result]
  rcases h : a.outcome s with ⟨r, t⟩
  cases r with
  | ok x => rfl
  | error g => rw [ha s g t h]

end Atomic

/-- From `s` the action succeeds, and its result and final state satisfy `Q`. -/
def Ensures (a : Action σ ε α) (s : σ) (Q : α → σ → Prop) : Prop :=
  ∃ x t, a.outcome s = (.ok x, t) ∧ Q x t

theorem ensures_pure {x : α} {s : σ} {Q : α → σ → Prop} (h : Q x s) :
    Ensures (pure x : Action σ ε α) s Q :=
  ⟨x, s, rfl, h⟩

theorem Ensures.bind {a : Action σ ε α} {f : α → Action σ ε β} {s : σ} {Q : α → σ → Prop}
    {R : β → σ → Prop} (ha : Ensures a s Q) (hf : ∀ x t, Q x t → Ensures (f x) t R) :
    Ensures (a >>= f) s R := by
  obtain ⟨x, t, hout, hx⟩ := ha
  obtain ⟨y, u, hout', hy⟩ := hf x t hx
  refine ⟨y, u, ?_, hy⟩
  rw [outcome_bind, hout]
  exact hout'

theorem Ensures.mono {a : Action σ ε α} {s : σ} {Q R : α → σ → Prop} (ha : Ensures a s Q)
    (h : ∀ x t, Q x t → R x t) : Ensures a s R := by
  obtain ⟨x, t, hout, hx⟩ := ha
  exact ⟨x, t, hout, h x t hx⟩

/-- Reading the state hands it on. -/
theorem ensures_get_bind {f : σ → Action σ ε β} {s : σ} {R : β → σ → Prop}
    (h : Ensures (f s) s R) : Ensures (get >>= f) s R :=
  Ensures.bind (Q := fun x t => x = s ∧ t = s) ⟨s, s, rfl, rfl, rfl⟩
    (by rintro x t ⟨rfl, rfl⟩; exact h)

theorem ensures_modify_bind {g : σ → σ} {f : PUnit → Action σ ε β} {s : σ} {R : β → σ → Prop}
    (h : Ensures (f ⟨⟩) (g s) R) : Ensures (modify g >>= f) s R :=
  Ensures.bind (Q := fun _ t => t = g s) ⟨⟨⟩, g s, rfl, rfl⟩
    (by rintro x t rfl; exact h)

/-- From `s` the action, whether it succeeds or fails, ends in a state that steps lead to. -/
def Reaches (step : σ → σ → Prop) (a : Action σ ε α) (s : σ) : Prop :=
  Relation.ReflTransGen step s (a.outcome s).2

section Reaches

variable {step : σ → σ → Prop} {a : Action σ ε α} {f : α → Action σ ε β} {s : σ}

theorem reaches_of_unchanged (h : (a.outcome s).2 = s) : Reaches step a s := by
  rw [Reaches, h]

theorem reaches_pure (x : α) : Reaches step (pure x : Action σ ε α) s :=
  reaches_of_unchanged rfl

theorem reaches_ofExcept (r : Except ε α) : Reaches step (ofExcept r : Action σ ε α) s :=
  reaches_of_unchanged (by rw [outcome_ofExcept])

/-- What follows starts with a result of the first part, in the state that it has reached. -/
theorem Reaches.bind (ha : Reaches step a s)
    (hf : ∀ x t, a.outcome s = (.ok x, t) → Reaches step (f x) t) : Reaches step (a >>= f) s := by
  rw [Reaches] at ha ⊢
  rw [outcome_bind]
  rcases hout : a.outcome s with ⟨r, t⟩
  rw [hout] at ha
  cases r with
  | error e => exact ha
  | ok x => exact ha.trans (hf x t hout)

/-- What follows starts in a state that steps lead to. -/
theorem Reaches.then (ha : Reaches step a s)
    (hf : ∀ x t, Relation.ReflTransGen step s t → Reaches step (f x) t) :
    Reaches step (a >>= f) s := by
  refine ha.bind fun x t hout => hf x t ?_
  rw [Reaches, hout] at ha
  exact ha

theorem Reaches.map (ha : Reaches step a s) (f : α → β) : Reaches step (f <$> a) s := by
  rw [← bind_pure_comp]
  exact ha.bind fun _ _ _ => reaches_pure _

theorem reaches_get_bind {f : σ → Action σ ε β} (h : Reaches step (f s) s) :
    Reaches step (get >>= f) s := h

theorem reaches_modify {f : σ → σ} (h : step s (f s)) :
    Reaches step (modify f : Action σ ε PUnit) s :=
  Relation.ReflTransGen.single h

theorem Reaches.mono {step' : σ → σ → Prop} (ha : Reaches step a s)
    (h : ∀ s t, step s t → step' s t) : Reaches step' a s :=
  Relation.ReflTransGen.mono h _ _ ha

end Reaches

/-- If the action fails from `s`, steps lead to the state in which it fails. -/
def FailsAfter (step : σ → σ → Prop) (a : Action σ ε α) (s : σ) : Prop :=
  ∀ f t, a.outcome s = (.error f, t) → Relation.ReflTransGen step s t

section FailsAfter

variable {step : σ → σ → Prop} {a : Action σ ε α} {f : α → Action σ ε β} {s : σ}

theorem Reaches.failsAfter (ha : Reaches step a s) : FailsAfter step a s := by
  intro f t hout
  rw [Reaches, hout] at ha
  exact ha

/-- A sequence fails in its second part after all steps of the first. -/
theorem Reaches.failsAfter_bind (ha : Reaches step a s)
    (hf : ∀ x t, Relation.ReflTransGen step s t → FailsAfter step (f x) t) :
    FailsAfter step (a >>= f) s := by
  intro g u hfail
  rw [Reaches] at ha
  rw [outcome_bind] at hfail
  rcases hout : a.outcome s with ⟨r, t⟩
  rw [hout] at hfail ha
  cases r with
  | error e =>
    cases hfail
    exact ha
  | ok x => exact ha.trans (hf x t ha g u hfail)

theorem FailsAfter.map (ha : FailsAfter step a s) (f : α → β) : FailsAfter step (f <$> a) s := by
  intro g u hfail
  rw [outcome_map] at hfail
  rcases hout : a.outcome s with ⟨r, t⟩
  rw [hout] at hfail
  cases r with
  | error _ =>
    cases hfail
    exact ha _ t hout
  | ok x => cases hfail

end FailsAfter

end Action

end ValueEngine
