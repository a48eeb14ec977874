import Mathlib.Data.ENat.Basic
import ValueEngine.Value.Basic

/-! Styles of printing, with and without a limit on the depth. A style says which values are
containers, what their parts are and how a text is put together from the texts of the parts.
Printing in a style is a relation, so that printing without a limit, which has no end on objects
that contain themselves, is there beside printing with one: it comes to an end exactly if the
nesting is bounded, and then to the text under any limit that the nesting does not reach. -/

namespace ValueEngine

/-- How values are written: which ones are containers, the text of one that is none, the text of a
container at the limit, and the text of a container from those of its parts. -/
structure Style where
  parts : Value → Option (List Value)
  flat : Value → String
  cut : Value → String
  whole : Value → (Value → String) → String
  whole_congr : ∀ {v vs f g}, parts v = some vs → (∀ u ∈ vs, f u = g u) → whole v f = whole v g

namespace Style

/-- Printing a value at a depth comes to an end with a text. Containers at the limit and beyond it
are cut. -/
inductive Prints (s : Style) (limit : ℕ∞) : (depth : ℕ) → Value → String → Prop
  | flat {depth : ℕ} {v : Value} (h : s.parts v = none) : Prints s limit depth v (s.flat v)
  | cut {depth : ℕ} {v : Value} {vs : List Value} (h : s.parts v = some vs)
    (hdepth : limit ≤ depth) : Prints s limit depth v (s.cut v)
  | whole {depth : ℕ} {v : Value} {vs : List Value} (h : s.parts v = some vs)
    (hdepth : depth < limit) (text : Value → String)
    (hparts : ∀ u ∈ vs, Prints s limit (depth + 1) u (text u)) :
    Prints s limit depth v (s.whole v text)

/-- Containers on a path that starts at a value, each a part of the one before. -/
inductive Nest (s : Style) : Value → List Value → Prop
  | last {v : Value} {vs : List Value} (h : s.parts v = some vs) : Nest s v [v]
  | through {v u : Value} {vs path : List Value} (h : s.parts v = some vs) (hu : u ∈ vs)
    (hpath : Nest s u path) : Nest s v (v :: path)

/-- No path from the value passes through more than so many containers. -/
def NestsAtMost (s : Style) (n : ℕ) (v : Value) : Prop := ∀ path, s.Nest v path → path.length ≤ n

/-- A printer that counts down how many containers it may still go into. -/
structure Realised (s : Style) (print : ℕ → Value → String) : Prop where
  flat : ∀ {room v}, s.parts v = none → print room v = s.flat v
  cut : ∀ {v vs}, s.parts v = some vs → print 0 v = s.cut v
  whole : ∀ {room v vs}, s.parts v = some vs → print (room + 1) v = s.whole v (print room)

variable {s : Style} {limit : ℕ∞} {depth room n : ℕ} {v u : Value} {vs path : List Value}
  {t : String} {print : ℕ → Value → String}

section Nesting

theorem nestsAtMost_of_parts (h : s.parts v = none) (n : ℕ) : s.NestsAtMost n v := by
  rintro path (⟨hsome⟩ | ⟨hsome, -, -⟩) <;> cases h.symm.trans hsome

theorem NestsAtMost.parts_eq_none (h : s.NestsAtMost 0 v) : s.parts v = none := by
  rw [Option.eq_none_iff_forall_ne_some]
  intro vs hvs
  exact absurd (h _ (.last hvs)) (by simp)

theorem nestsAtMost_succ_iff (hparts : s.parts v = some vs) :
    s.NestsAtMost (n + 1) v ↔ ∀ u ∈ vs, s.NestsAtMost n u := by
  constructor
  · intro h u hu path hpath
    exact Nat.le_of_succ_le_succ (h _ (.through hparts hu hpath))
  · rintro h path (⟨-⟩ | ⟨hsome, hu, hpath⟩)
    · exact Nat.le_add_left 1 n
    · cases hparts.symm.trans hsome
      exact Nat.succ_le_succ (h _ hu _ hpath)

theorem NestsAtMost.mono {m : ℕ} (h : s.NestsAtMost n v) (hm : n ≤ m) : s.NestsAtMost m v :=
  fun path hpath => (h path hpath).trans hm

/-- Values that nest boundedly, each for itself, do so together. -/
theorem exists_nestsAtMost (h : ∀ u ∈ vs, ∃ n, s.NestsAtMost n u) :
    ∃ n, ∀ u ∈ vs, s.NestsAtMost n u := by
  induction vs with
  | nil => exact ⟨0, nofun⟩
  | cons w vs ih =>
    obtain ⟨n, hn⟩ := h w List.mem_cons_self
    obtain ⟨m, hm⟩ := ih fun u hu => h u (List.mem_cons_of_mem w hu)
    refine ⟨max n m, List.forall_mem_cons.mpr ⟨hn.mono (Nat.le_max_left n m), fun u hu => ?_⟩⟩
    exact (hm u hu).mono (Nat.le_max_right n m)

end Nesting

section Limit

/-- Printing comes to one text at most. -/
theorem Prints.unique {t' : String} (h : s.Prints limit depth v t)
    (h' : s.Prints limit depth v t') : t = t' := by
  induction h generalizing t' with
  | flat hflat =>
    obtain - | ⟨hparts, -⟩ | ⟨hparts, -, -, -⟩ := h'
    · rfl
    · cases hflat.symm.trans hparts
    · cases hflat.symm.trans hparts
  | cut hparts hdepth =>
    obtain hflat | - | ⟨-, hbelow, -, -⟩ := h'
    · cases hflat.symm.trans hparts
    · rfl
    · exact absurd hbelow hdepth.not_gt
  | whole hparts hbelow text _ ih =>
    obtain hflat | ⟨-, hdepth⟩ | ⟨hparts', -, text', htext'⟩ := h'
    · cases hflat.symm.trans hparts
    · exact absurd hbelow hdepth.not_gt
    · cases hparts.symm.trans hparts'
      exact s.whole_congr hparts fun u hu => ih u hu (htext' u hu)

/-- Printing under a limit is counting down from it. A limit that the value does not reach, or none
at all, makes no difference. -/
theorem Realised.prints (hprint : s.Realised print) (hlimit : ((depth + room : ℕ) : ℕ∞) ≤ limit)
    (h : limit = (depth + room : ℕ) ∨ s.NestsAtMost room v) :
    s.Prints limit depth v (print room v) := by
  induction room generalizing depth v with
  | zero =>
    cases hparts : s.parts v with
    | none => exact hprint.flat hparts ▸ .flat hparts
    | some vs =>
      obtain rfl | hnone := h
      · exact hprint.cut hparts ▸ .cut hparts le_rfl
      · cases hnone.parts_eq_none.symm.trans hparts
  | succ room ih =>
    cases hparts : s.parts v with
    | none => exact hprint.flat hparts ▸ .flat hparts
    | some vs =>
      have hbelow : (depth : ℕ∞) < limit :=
        (Nat.cast_lt.mpr (Nat.lt_add_of_pos_right (Nat.succ_pos room))).trans_le hlimit
      rw [hprint.whole hparts]
      refine .whole hparts hbelow _ fun u hu => ?_
      rw [← Nat.add_assoc, Nat.add_right_comm] at hlimit h
      exact ih hlimit (h.imp id fun hnests => (nestsAtMost_succ_iff hparts).mp hnests u hu)

theorem Realised.prints_iff (hprint : s.Realised print) (hlimit : ((depth + room : ℕ) : ℕ∞) ≤ limit)
    (h : limit = (depth + room : ℕ) ∨ s.NestsAtMost room v) :
    s.Prints limit depth v t ↔ t = print room v :=
  ⟨fun ht => ht.unique (hprint.prints hlimit h), fun ht => ht ▸ hprint.prints hlimit h⟩

theorem Prints.exists_nestsAtMost (h : s.Prints ⊤ depth v t) : ∃ n, s.NestsAtMost n v := by
  induction h with
  | flat h => exact ⟨0, nestsAtMost_of_parts h 0⟩
  | cut h hdepth => exact absurd (ENat.natCast_lt_top _) hdepth.not_gt
  | whole hparts _ _ _ ih =>
    obtain ⟨n, hn⟩ := Style.exists_nestsAtMost ih
    exact ⟨n + 1, (nestsAtMost_succ_iff hparts).mpr hn⟩

/-- Without a limit, printing comes to an end exactly if the nesting is bounded. -/
theorem Realised.exists_prints_iff (hprint : s.Realised print) :
    (∃ t, s.Prints ⊤ depth v t) ↔ ∃ n, s.NestsAtMost n v :=
  ⟨fun ⟨_, h⟩ => h.exists_nestsAtMost, fun ⟨_, h⟩ => ⟨_, hprint.prints le_top (.inr h)⟩⟩

end Limit

end Style

end ValueEngine
