import Mathlib.Data.Nat.Notation
import ValueEngine.Growable.Traversal

/-! The calls that a traversal makes. A callback may change the array in any way, so a
traversal is described by the list of its calls, each with the state that it finds
and the state that it leaves. What a list of calls must satisfy is stated by index;
the traversals make exactly one such list and answer from what it has heard. -/

namespace ValueEngine.Growable

variable {σ α β γ : Type}

/-- A call of a callback during a traversal. -/
structure Visit (σ α : Type) where
  before : σ
  element : α
  result : Except ArrayFault Result
  after : σ

/-- What a call has been about and what it has given. -/
def Visit.heard (v : Visit σ α) : α × Except ArrayFault Result := (v.element, v.result)

/-- What a method makes of what it hears: the elements with the answers about them, or the
first failure. -/
def answers (judge : Result → Except ArrayFault γ) :
    List (α × Except ArrayFault Result) → Except ArrayFault (List (α × γ))
  | [] => .ok []
  | (x, r) :: heard => do
    let y ← r >>= judge
    return (x, y) :: (← answers judge heard)

/-- After a result the traversal goes on: it is of an accepted kind, and the answer does
not settle the outcome. -/
def GoesOn (judge : Result → Except ArrayFault γ) (halts : γ → Bool)
    (r : Except ArrayFault Result) : Prop :=
  ∃ y, r >>= judge = .ok y ∧ halts y = false

section

variable (place : Place σ (Growable α)) (c : Closure σ α)
variable (judge : Result → Except ArrayFault γ) (halts : γ → Bool)

/-- The calls of a traversal of at most `count` elements from index `i` on, which starts in
state `s` and ends in state `t`. -/
structure Visits (count i : ℕ) (s : σ) (visits : List (Visit σ α)) (t : σ) : Prop where
  /-- The first call finds the state at the start, each other one what the call before it
  has left, and the last one leaves the state at the end. -/
  linked : visits.map (·.before) ++ [t] = s :: visits.map (·.after)
  /-- The indices are called in order, each with the element that is live there then. -/
  called : ∀ k v, visits[k]? = Option.some v → k < count ∧
    (place.read v.before).get? (i + k) = Option.some v.element ∧
    (c.onElement v.element (i + k)).outcome v.before = (v.result, v.after)
  /-- Nothing but the last call may end the traversal. -/
  onward : ∀ k v, visits[k]? = Option.some v → k + 1 < visits.length →
    GoesOn judge halts v.result
  /-- The traversal ends for want of indices, for want of an element, or by the last call. -/
  ended : visits.length = count ∨ (place.read t).get? (i + visits.length) = none ∨
    ∃ v, visits.getLast? = Option.some v ∧ ¬ GoesOn judge halts v.result

end

/-! ### Lists of calls -/

section Calls

variable {place : Place σ (Growable α)} {c : Closure σ α}
variable {judge : Result → Except ArrayFault γ} {halts : γ → Bool}
variable {count i : ℕ} {s t : σ} {v : Visit σ α} {visits : List (Visit σ α)}

theorem visits_nil_iff :
    Visits place c judge halts count i s [] t ↔
      t = s ∧ (count = 0 ∨ (place.read s).get? i = none) := by
  constructor
  · intro h
    have hlinked := h.linked
    have hended := h.ended
    simp only [List.map_nil, List.nil_append, List.cons.injEq, and_true] at hlinked
    subst hlinked
    refine ⟨rfl, ?_⟩
    obtain hcount | hshort | ⟨v, hv, -⟩ := hended
    · exact Or.inl hcount.symm
    · exact Or.inr hshort
    · cases hv
  · rintro ⟨rfl, hended⟩
    refine ⟨rfl, ?_, ?_, ?_⟩
    · intro k v hv
      cases hv
    · intro k v hv
      cases hv
    · exact hended.imp Eq.symm Or.inl

theorem visits_cons_iff :
    Visits place c judge halts count i s (v :: visits) t ↔
      (v.before = s ∧ 0 < count ∧ (place.read s).get? i = Option.some v.element ∧
        (c.onElement v.element i).outcome s = (v.result, v.after)) ∧
      ((GoesOn judge halts v.result ∧
          Visits place c judge halts (count - 1) (i + 1) v.after visits t) ∨
        (¬ GoesOn judge halts v.result ∧ visits = [] ∧ t = v.after)) := by
  constructor
  · intro h
    obtain ⟨hlinked, hcalled, honward, hended⟩ := h
    simp only [List.map_cons, List.cons_append, List.cons.injEq] at hlinked
    obtain ⟨rfl, hlinked⟩ := hlinked
    obtain ⟨hcount, hlive, hcall⟩ := hcalled 0 v rfl
    refine ⟨⟨rfl, hcount, hlive, hcall⟩, ?_⟩
    by_cases hgo : GoesOn judge halts v.result
    · refine Or.inl ⟨hgo, hlinked, ?_, ?_, ?_⟩
      · intro k w hw
        obtain ⟨hk, hrest⟩ := hcalled (k + 1) w hw
        rw [Nat.add_right_comm, Nat.add_assoc]
        exact ⟨by omega, hrest⟩
      · intro k w hw hk
        exact honward (k + 1) w hw (Nat.succ_lt_succ hk)
      · rw [List.length_cons] at hended
        obtain hend | hend | ⟨w, hw, hstop⟩ := hended
        · exact Or.inl (by omega)
        · rw [Nat.add_right_comm, Nat.add_assoc]
          exact Or.inr (Or.inl hend)
        · cases visits with
          | nil =>
            obtain rfl : v = w := Option.some.inj hw
            exact absurd hgo hstop
          | cons w' rest => exact Or.inr (Or.inr ⟨w, hw, hstop⟩)
    · cases visits with
      | nil => exact Or.inr ⟨hgo, rfl, (List.cons.inj hlinked).1⟩
      | cons w rest =>
        have hmore := honward 0 v rfl (by simp only [List.length_cons]; omega)
        exact absurd hmore hgo
  · rintro ⟨⟨rfl, hcount, hlive, hcall⟩, ⟨hgo, hrest⟩ | ⟨hstop, rfl, rfl⟩⟩
    · refine ⟨?_, ?_, ?_, ?_⟩
      · simp only [List.map_cons, List.cons_append, hrest.linked]
      · intro k w hw
        cases k with
        | zero =>
          obtain rfl : v = w := Option.some.inj hw
          exact ⟨hcount, hlive, hcall⟩
        | succ k =>
          obtain ⟨hk, hlater⟩ := hrest.called k w hw
          rw [Nat.add_right_comm, Nat.add_assoc] at hlater
          exact ⟨by omega, hlater⟩
      · intro k w hw hk
        cases k with
        | zero =>
          obtain rfl : v = w := Option.some.inj hw
          exact hgo
        | succ k => exact hrest.onward k w hw (Nat.lt_of_succ_lt_succ hk)
      · rw [List.length_cons]
        obtain hend | hend | ⟨w, hw, hstop⟩ := hrest.ended
        · exact Or.inl (by omega)
        · rw [Nat.add_right_comm, Nat.add_assoc] at hend
          exact Or.inr (Or.inl hend)
        · refine Or.inr (Or.inr ⟨w, ?_, hstop⟩)
          rw [List.getLast?_cons, hw, Option.getD_some]
    · refine ⟨rfl, ?_, ?_, Or.inr (Or.inr ⟨v, rfl, hstop⟩)⟩
      · intro k w hw
        rw [List.getElem?_singleton] at hw
        split at hw
        · next hk =>
          obtain rfl : v = w := Option.some.inj hw
          subst hk
          exact ⟨hcount, hlive, hcall⟩
        · cases hw
      · intro k w hw hk
        rw [List.length_singleton] at hk
        omega

theorem Visits.unique {visits' : List (Visit σ α)} {t' : σ}
    (h : Visits place c judge halts count i s visits t)
    (h' : Visits place c judge halts count i s visits' t') : visits = visits' ∧ t = t' := by
  induction visits generalizing count i s visits' with
  | nil =>
    obtain ⟨rfl, hend⟩ := visits_nil_iff.mp h
    cases visits' with
    | nil => exact ⟨rfl, (visits_nil_iff.mp h').1.symm⟩
    | cons w rest =>
      obtain ⟨⟨rfl, hcount, hlive, -⟩, -⟩ := visits_cons_iff.mp h'
      obtain rfl | hnone := hend
      · exact absurd hcount (Nat.lt_irrefl 0)
      · rw [hnone] at hlive
        cases hlive
  | cons v rest ih =>
    obtain ⟨⟨hv, hcount, hlive, hcall⟩, hrest⟩ := visits_cons_iff.mp h
    cases visits' with
    | nil =>
      obtain ⟨-, rfl | hnone⟩ := visits_nil_iff.mp h'
      · exact absurd hcount (Nat.lt_irrefl 0)
      · rw [hnone] at hlive
        cases hlive
    | cons w rest' =>
      obtain ⟨⟨hw, -, hlive', hcall'⟩, hrest'⟩ := visits_cons_iff.mp h'
      have hsame : v = w := by
        obtain ⟨vb, vx, vr, va⟩ := v
        obtain ⟨wb, wx, wr, wa⟩ := w
        simp only at hv hw hlive hlive' hcall hcall'
        rw [hlive, Option.some.injEq] at hlive'
        subst hlive'
        rw [hcall, Prod.mk.injEq] at hcall'
        rw [hv, hw, hcall'.1, hcall'.2]
      subst hsame
      obtain ⟨hgo, hmore⟩ | ⟨hstop, rfl, rfl⟩ := hrest
      · obtain ⟨-, hmore'⟩ | ⟨hstop, -⟩ := hrest'
        · obtain ⟨rfl, rfl⟩ := ih hmore hmore'
          exact ⟨rfl, rfl⟩
        · exact absurd hgo hstop
      · obtain ⟨hgo, -⟩ | ⟨-, rfl, rfl⟩ := hrest'
        · exact absurd hgo hstop
        · exact ⟨rfl, rfl⟩

/-- Nothing that has been heard before the last answer ends the traversal. -/
theorem Visits.onward_answers {ps : List (α × γ)}
    (h : Visits place c judge halts count i s visits t)
    (hps : answers judge (visits.map Visit.heard) = .ok ps) :
    ∀ p ∈ ps.dropLast, halts p.2 = false := by
  induction visits generalizing count i s ps with
  | nil =>
    cases hps
    intro p hp
    cases hp
  | cons v rest ih =>
    obtain ⟨-, hrest⟩ := visits_cons_iff.mp h
    rw [List.map_cons, Visit.heard, answers] at hps
    cases hy : v.result >>= judge with
    | error f =>
      rw [hy] at hps
      cases hps
    | ok y =>
      cases hlater : answers judge (rest.map Visit.heard) with
      | error f =>
        rw [hy, hlater] at hps
        cases hps
      | ok qs =>
        rw [hy, hlater] at hps
        cases hps
        obtain ⟨⟨y', hy', hhalts⟩, hmore⟩ | ⟨-, rfl, -⟩ := hrest
        · obtain rfl : y = y' := Except.ok.inj (hy.symm.trans hy')
          have hqs := ih hmore hlater
          cases qs with
          | nil =>
            intro p hp
            cases hp
          | cons q qs =>
            intro p hp
            rw [List.dropLast_cons_cons, List.mem_cons] at hp
            obtain rfl | hp := hp
            · exact hhalts
            · exact hqs p hp
        · cases hlater
          intro p hp
          cases hp

/-- A step of a traversal calls the callback once and takes the answer in. -/
def TakesIn (c : Closure σ α) (judge : Result → Except ArrayFault γ) (halts : γ → Bool)
    (next : ℕ → α → γ → β → β) (f : ℕ → α → β → Action σ ArrayFault (β × Bool)) : Prop :=
  ∀ i x acc s, (f i x acc).outcome s =
    ((((c.onElement x i).outcome s).1 >>= judge).map fun y => (next i x y acc, !halts y),
      ((c.onElement x i).outcome s).2)

/-- Take answers in one after the other. -/
def gather (next : ℕ → α → γ → β → β) : ℕ → List (α × γ) → β → β
  | _, [], acc => acc
  | i, (x, y) :: ps, acc => gather next (i + 1) ps (next i x y acc)

/-- A traversal makes a list of calls and comes to what it gathers from the answers. -/
theorem visitFrom_visits {next : ℕ → α → γ → β → β}
    {f : ℕ → α → β → Action σ ArrayFault (β × Bool)} (hf : TakesIn c judge halts next f)
    (count i : ℕ) (acc : β) (s : σ) :
    ∃ visits t, Visits place c judge halts count i s visits t ∧
      (visitFrom place f count i acc).outcome s =
        ((answers judge (visits.map Visit.heard)).map fun ps => gather next i ps acc, t) := by
  induction count generalizing i acc s with
  | zero => exact ⟨[], s, visits_nil_iff.mpr ⟨rfl, Or.inl rfl⟩, rfl⟩
  | succ count ih =>
    rw [visitFrom, Action.outcome_bind, Action.outcome_get]
    dsimp only
    cases hlive : (place.read s).get? i with
    | none => exact ⟨[], s, visits_nil_iff.mpr ⟨rfl, Or.inr hlive⟩, rfl⟩
    | some x =>
      rcases hcall : (c.onElement x i).outcome s with ⟨r, t⟩
      have hfirst : ∀ rest u, (GoesOn judge halts r ∧
          Visits place c judge halts count (i + 1) t rest u) ∨
          (¬ GoesOn judge halts r ∧ rest = [] ∧ u = t) →
          Visits place c judge halts (count + 1) i s (⟨s, x, r, t⟩ :: rest) u :=
        fun _ _ hrest => visits_cons_iff.mpr ⟨⟨rfl, Nat.succ_pos count, hlive, hcall⟩, hrest⟩
      rw [Action.outcome_bind, hf, hcall]
      cases hy : r >>= judge with
      | error e =>
        have hstop : ¬ GoesOn judge halts r := by
          rintro ⟨y, hok, -⟩
          rw [hy] at hok
          cases hok
        refine ⟨_, t, hfirst [] t (Or.inr ⟨hstop, rfl, rfl⟩), ?_⟩
        rw [List.map_cons, Visit.heard, answers, hy]
        rfl
      | ok y =>
        cases hhalts : halts y with
        | true =>
          have hstop : ¬ GoesOn judge halts r := by
            rintro ⟨y', hok, hgo⟩
            obtain rfl : y = y' := Except.ok.inj (hy.symm.trans hok)
            rw [hhalts] at hgo
            cases hgo
          refine ⟨_, t, hfirst [] t (Or.inr ⟨hstop, rfl, rfl⟩), ?_⟩
          rw [List.map_cons, Visit.heard, answers, hy]
          simp only [Except.map, hhalts]
          rfl
        | false =>
          obtain ⟨rest, u, hrest, hout⟩ := ih (i + 1) (next i x y acc) t
          refine ⟨_, u, hfirst rest u (Or.inl ⟨⟨y, hy, hhalts⟩, hrest⟩), ?_⟩
          rw [List.map_cons, Visit.heard, answers, hy]
          simp only [Except.map, hhalts]
          change (visitFrom place f count (i + 1) (next i x y acc)).outcome t = _
          rw [hout]
          cases answers judge (rest.map Visit.heard) <;> rfl

end Calls

end ValueEngine.Growable
