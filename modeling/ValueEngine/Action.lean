/-! Actions on a shared state. An action may fail, and the state it has reached by then
stays. A place is a part of the state that can be read and written. -/

namespace ValueEngine

abbrev Action (σ ε α : Type) := ExceptT ε (StateM σ) α

namespace Action

variable {σ ε α : Type}

/-- Run an action to its outcome and the state reached. -/
def outcome (a : Action σ ε α) (s : σ) : Except ε α × σ := a.run.run s

def ofExcept (r : Except ε α) : Action σ ε α := liftM r

/-- The result of an action with the state reached, if it succeeds. -/
def result (a : Action σ ε α) (s : σ) : Except ε (α × σ) :=
  match a.outcome s with
  | (.ok x, t) => .ok (x, t)
  | (.error e, _) => .error e

/-- The state that an action reaches, if it succeeds. -/
def final (a : Action σ ε Unit) (s : σ) : Except ε σ := (a.result s).map (·.2)

/-- Express the failures of an action in other terms. -/
def mapError {ε' : Type} (f : ε → ε') (a : Action σ ε α) : Action σ ε' α := ExceptT.adapt f a

@[simp] theorem outcome_pure (a : α) (s : σ) : outcome (pure a : Action σ ε α) s = (.ok a, s) := rfl

@[simp] theorem outcome_throw (e : ε) (s : σ) :
    outcome (throw e : Action σ ε α) s = (.error e, s) := rfl

@[simp] theorem outcome_get (s : σ) : outcome (get : Action σ ε σ) s = (.ok s, s) := rfl

@[simp] theorem outcome_set (s t : σ) : outcome (set t : Action σ ε PUnit) s = (.ok ⟨⟩, t) := rfl

@[simp] theorem outcome_modify (f : σ → σ) (s : σ) :
    outcome (modify f : Action σ ε PUnit) s = (.ok ⟨⟩, f s) := rfl

@[simp] theorem outcome_ofExcept (r : Except ε α) (s : σ) : (ofExcept r).outcome s = (r, s) := by
  cases r <;> rfl

/-- A step that fails ends the action in the state that it has reached. -/
theorem outcome_bind {β : Type} (a : Action σ ε α) (f : α → Action σ ε β) (s : σ) :
    outcome (a >>= f) s =
      match a.outcome s with
      | (.ok x, t) => (f x).outcome t
      | (.error e, t) => (.error e, t) := by
  rcases h : a.outcome s with ⟨r, t⟩
  simp only [outcome, ExceptT.run_bind, StateT.run_bind] at h ⊢
  rw [h]
  cases r <;> rfl

end Action

structure Place (σ ρ : Type) where
  read : σ → ρ
  write : ρ → σ → σ
  read_write : ∀ r s, read (write r s) = r

namespace Place

variable {σ τ ρ : Type}

def within (outer : Place σ τ) (inner : Place τ ρ) : Place σ ρ where
  read s := inner.read (outer.read s)
  write r s := outer.write (inner.write r (outer.read s)) s
  read_write r s := by rw [outer.read_write, inner.read_write]

def whole : Place σ σ := ⟨id, fun s _ => s, fun _ _ => rfl⟩

end Place

end ValueEngine
