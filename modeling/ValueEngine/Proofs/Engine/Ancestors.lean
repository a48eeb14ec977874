import Mathlib.Tactic.Tauto
import ValueEngine.Proofs.Engine.Assignment
import ValueEngine.Proofs.Engine.Atomicity

/-! Prototype chains by distance. A search for a name looks at the objects of a chain in order, the
object that it starts from first, up to the one at the distance of the bound on the links: the
nearest of them that has the name answers, a chain that ends before the bound has none, and a chain
that goes on is a failure. A higher bound therefore turns failures into answers, and no answer
into another one. -/

namespace ValueEngine

namespace Engine

variable {e : Engine} {id last next : ObjectId} {name : String} {n m links links' d : ℕ}
  {p : Property} {found : Option Property} {answer : Bool}

/-- The object at a distance from another one along prototype links, if the chain goes so far. -/
def ancestor? (e : Engine) (id : ObjectId) : ℕ → Option ObjectId
  | 0 => some id
  | n + 1 => (e.ancestor? id n).bind e.prototype?

def withDepth (e : Engine) (d : ℕ) : Engine :=
  { e with config := { e.config with maxPrototypeDepth := d } }

@[simp] theorem ancestor?_zero : e.ancestor? id 0 = some id := rfl

/-- The distances from an object are those from its prototype, and one more. -/
theorem ancestor?_succ : e.ancestor? id (n + 1) = (e.prototype? id).bind (e.ancestor? · n) := by
  induction n with
  | zero => simp [ancestor?]
  | succ n ih =>
    rw [ancestor?, ih, Option.bind_assoc]
    rfl

theorem ancestor?_eq_none (h : e.ancestor? id n = none) (hm : n ≤ m) : e.ancestor? id m = none := by
  induction hm with
  | refl => exact h
  | step _ ih => rw [ancestor?, ih, Option.bind_none]

variable [Library]

/-- The own property of a name of the object at a distance. -/
def ownAt? (e : Engine) (id : ObjectId) (name : String) (n : ℕ) : Option Property :=
  (e.ancestor? id n).bind fun o => (e.object o).own? name

@[simp] theorem ownAt?_zero : e.ownAt? id name 0 = (e.object id).own? name := rfl

theorem ownAt?_succ : e.ownAt? id name (n + 1) = (e.prototype? id).bind (e.ownAt? · name n) := by
  simp only [ownAt?, ancestor?_succ, Option.bind_assoc]

/-- A way past objects without the name is told by the distances. -/
theorem passes_iff :
    e.Passes name n id last ↔ e.ancestor? id n = some last ∧ ∀ m < n, e.ownAt? id name m = none := by
  induction n generalizing id with
  | zero =>
    constructor
    · rintro ⟨⟩
      simp
    · rintro ⟨⟨⟩, -⟩
      exact .here _
  | succ n ih =>
    rw [passes_succ_iff, Nat.forall_lt_succ_left, ancestor?_succ]
    simp only [ownAt?_succ, ownAt?_zero]
    cases e.prototype? id with
    | none => simp
    | some next => simp [ih, and_left_comm]

/-! ### Searches within a bound -/

section Bound

theorem lookupWithin_eq_some_iff_ownAt? :
    e.lookupWithin name links id = .ok (some p) ↔
      ∃ n ≤ links, e.ownAt? id name n = some p ∧ ∀ m < n, e.ownAt? id name m = none := by
  simp only [lookupWithin_eq_some_iff, passes_iff]
  constructor
  · rintro ⟨n, last, hn, ⟨hlast, hnone⟩, hp⟩
    exact ⟨n, hn, by simp [ownAt?, hlast, hp], hnone⟩
  · rintro ⟨n, hn, hp, hnone⟩
    obtain ⟨last, hlast, hown⟩ := Option.bind_eq_some_iff.mp hp
    exact ⟨n, last, hn, ⟨hlast, hnone⟩, hown⟩

theorem lookupWithin_eq_error_iff_ownAt? {f : Fault} :
    e.lookupWithin name links id = .error f ↔
      f = .chainTooDeep ∧ (∀ n ≤ links, e.ownAt? id name n = none) ∧
        (e.ancestor? id (links + 1)).isSome := by
  simp only [lookupWithin_eq_error_iff, passes_iff, Nat.lt_succ_iff, Option.isSome_iff_exists]
  tauto

/-- Where an object within the bound has the name, the search meets the nearest one. -/
theorem exists_nearest (hown : ∃ n, n ≤ links ∧ (e.ownAt? id name n).isSome) :
    ∃ n ≤ links, ∃ p, e.ownAt? id name n = some p ∧ (∀ m < n, e.ownAt? id name m = none) ∧
      e.lookupWithin name links id = .ok (some p) := by
  obtain ⟨hn, hsome⟩ := Nat.find_spec hown
  obtain ⟨p, hp⟩ := Option.isSome_iff_exists.mp hsome
  have hnearest : ∀ m < Nat.find hown, e.ownAt? id name m = none := by
    intro m hm
    have hnot := Nat.find_min hown hm
    rwa [not_and, Option.not_isSome_iff_eq_none, forall_prop_of_true (hm.le.trans hn)] at hnot
  exact ⟨_, hn, p, hp, hnearest, lookupWithin_eq_some_iff_ownAt?.mpr ⟨_, hn, hp, hnearest⟩⟩

/-- Nothing is found where no object within the bound has the name and the chain ends there. -/
theorem lookupWithin_eq_none_iff_ownAt? :
    e.lookupWithin name links id = .ok none ↔
      (∀ n ≤ links, e.ownAt? id name n = none) ∧ e.ancestor? id (links + 1) = none := by
  constructor
  · intro hout
    have hnone : ∀ n ≤ links, e.ownAt? id name n = none := by
      intro n hn
      by_contra hown
      obtain ⟨_, -, _, -, -, hmet⟩ := exists_nearest ⟨n, hn, Option.isSome_iff_ne_none.mpr hown⟩
      cases hout.symm.trans hmet
    refine ⟨hnone, ?_⟩
    by_contra hgoes
    have hdeep := lookupWithin_eq_error_iff_ownAt?.mpr
      ⟨rfl, hnone, Option.isSome_iff_ne_none.mpr hgoes⟩
    cases hout.symm.trans hdeep
  · rintro ⟨hnone, hend⟩
    cases hout : e.lookupWithin name links id with
    | error f =>
      have hgoes := (lookupWithin_eq_error_iff_ownAt?.mp hout).2.2
      simp [hend] at hgoes
    | ok found =>
      cases found with
      | none => rfl
      | some p =>
        obtain ⟨n, hn, hp, -⟩ := lookupWithin_eq_some_iff_ownAt?.mp hout
        cases (hnone n hn).symm.trans hp

/-- What a search has come to does not depend on how much farther it might have gone. -/
theorem lookupWithin_mono (hlinks : links ≤ links') (h : e.lookupWithin name links id = .ok found) :
    e.lookupWithin name links' id = .ok found := by
  cases found with
  | some p =>
    obtain ⟨n, hn, hp⟩ := lookupWithin_eq_some_iff_ownAt?.mp h
    exact lookupWithin_eq_some_iff_ownAt?.mpr ⟨n, hn.trans hlinks, hp⟩
  | none =>
    obtain ⟨hnone, hend⟩ := lookupWithin_eq_none_iff_ownAt?.mp h
    have hpast : ∀ n, links < n → e.ancestor? id n = none := fun n hn => ancestor?_eq_none hend hn
    refine lookupWithin_eq_none_iff_ownAt?.mpr ⟨fun n _ => ?_, hpast _ (Nat.lt_succ_of_le hlinks)⟩
    rcases Nat.lt_or_ge links n with hn | hn
    · rw [ownAt?, hpast n hn, Option.bind_none]
    · exact hnone n hn

theorem lookup_withDepth (hd : e.config.maxPrototypeDepth ≤ d) (h : e.lookup id name = .ok found) :
    (e.withDepth d).lookup id name = .ok found := by
  have hobjects : (e.withDepth d).objects = e.objects := rfl
  exact (lookupWithin_congr hobjects name).trans (lookupWithin_mono hd h)

theorem has_withDepth (hd : e.config.maxPrototypeDepth ≤ d)
    (h : e.has (.object id) name = .ok answer) :
    (e.withDepth d).has (.object id) name = .ok answer := by
  rw [has_object] at h ⊢
  cases hout : e.lookup id name with
  | error f =>
    rw [hout] at h
    cases h
  | ok found => rwa [lookup_withDepth hd hout, ← hout]

end Bound

end Engine

variable {H : Type} {host : Host H} {w t : World H} {receiver : Box} {id : ObjectId} {name : String}
  {d : ℕ} {answer : Option Box}

def World.withDepth (w : World H) (d : ℕ) : World H := { w with engine := w.engine.withDepth d }

namespace Operation

variable [Library]

/-- Read what a property holds, for a receiver. -/
def readSlot (host : Host H) (receiver : Box) : Slot → Operation H (Option Box)
  | .data v => some <$> box v
  | .accessor (some getter) _ => some <$> callValue host getter receiver []
  | .accessor none _ => pure (some Box.undefined)

theorem outcome_getProperty (hr : receiver.value = .object id) :
    (getProperty host receiver name).outcome w =
      match w.engine.lookup id name with
      | .error f => (.error f, w)
      | .ok none => (.ok none, w)
      | .ok (some p) => (readSlot host receiver p.slot).outcome w := by
  rw [getProperty, Action.outcome_bind, outcome_ask, hr]
  cases hout : w.engine.lookup id name with
  | error f =>
    rw [Engine.read_object, hout]
    rfl
  | ok found =>
    cases found with
    | none =>
      rw [Engine.read_absent hout]
      rfl
    | some p =>
      rw [Engine.read_met hout]
      obtain ⟨key, v | ⟨_ | getter, setter⟩, flags⟩ := p
      · simp only [readSlot, map_eq_pure_bind]
        rfl
      · rfl
      · simp only [readSlot, map_eq_pure_bind]
        rfl

/-- A higher bound leaves the answer of a reading as it is that runs no getter. -/
theorem outcome_getProperty_withDepth (hr : receiver.value = .object id)
    (hplain : ¬ w.engine.MeetsGetter receiver.value name)
    (hd : w.engine.config.maxPrototypeDepth ≤ d)
    (h : (getProperty host receiver name).outcome w = (.ok answer, t)) :
    (getProperty host receiver name).outcome (w.withDepth d) = (.ok answer, t.withDepth d) := by
  rw [outcome_getProperty hr] at h ⊢
  cases hout : w.engine.lookup id name with
  | error f =>
    rw [hout] at h
    cases h
  | ok found =>
    have hsame : (w.withDepth d).engine.lookup id name = .ok found :=
      Engine.lookup_withDepth hd hout
    rw [hsame]
    rw [hout] at h
    obtain _ | ⟨key, v | ⟨_ | getter, setter⟩, flags⟩ := found
    · cases h
      rfl
    · cases h
      rfl
    · cases h
      rfl
    · exact absurd ⟨id, key, getter, setter, flags, hr, hout⟩ hplain

end Operation

/-- **Names are resolved nearest first, within the bound exactly.** Where an object of a chain at a
distance up to the bound has a name, the name is there and reading it reads the property of the
nearest one, whatever those behind it hold. Where none of them has it, the name is absent if the
chain ends there, and both are failures if it goes on. A higher bound changes no answer of
either, if no getter runs. -/
theorem chain_resolution [Library] (host : Host H) (w : World H) (hr : receiver.value = .object id)
    (name : String) :
    let e := w.engine
    let bound := e.config.maxPrototypeDepth
    let reading := Operation.getProperty host receiver name
    ((∃ n, n ≤ bound ∧ (e.ownAt? id name n).isSome) →
        e.has receiver.value name = .ok true ∧
          ∃ n ≤ bound, ∃ p, e.ownAt? id name n = some p ∧ (∀ m < n, e.ownAt? id name m = none) ∧
            reading.outcome w = (Operation.readSlot host receiver p.slot).outcome w) ∧
      ((∀ n ≤ bound, e.ownAt? id name n = none) →
        (e.ancestor? id (bound + 1) = none →
            e.has receiver.value name = .ok false ∧ reading.outcome w = (.ok none, w)) ∧
          ((e.ancestor? id (bound + 1)).isSome →
            e.has receiver.value name = .error .chainTooDeep ∧
              reading.outcome w = (.error .chainTooDeep, w))) ∧
      ∀ d, bound ≤ d →
        (∀ answer, e.has receiver.value name = .ok answer →
            (e.withDepth d).has receiver.value name = .ok answer) ∧
          (¬ e.MeetsGetter receiver.value name → ∀ answer t, reading.outcome w = (.ok answer, t) →
            reading.outcome (w.withDepth d) = (.ok answer, t.withDepth d)) := by
  intro e bound reading
  have hreading : reading.outcome w = _ := Operation.outcome_getProperty hr
  have hhas : e.has receiver.value name = _ := hr ▸ Engine.has_object
  refine ⟨fun hown => ?_, fun hnone => ⟨fun hend => ?_, fun hgoes => ?_⟩, fun d hd => ⟨?_, ?_⟩⟩
  · obtain ⟨n, hn, p, hp, hnearest, hmet⟩ := Engine.exists_nearest hown
    have hfound : e.lookup id name = .ok (some p) := hmet
    rw [hfound] at hhas hreading
    exact ⟨hhas, n, hn, p, hp, hnearest, hreading⟩
  · have hfound : e.lookup id name = .ok none :=
      Engine.lookupWithin_eq_none_iff_ownAt?.mpr ⟨hnone, hend⟩
    rw [hfound] at hhas hreading
    exact ⟨hhas, hreading⟩
  · have hdeep : e.lookup id name = .error .chainTooDeep :=
      Engine.lookupWithin_eq_error_iff_ownAt?.mpr ⟨rfl, hnone, hgoes⟩
    rw [hdeep] at hhas hreading
    exact ⟨hhas, hreading⟩
  · intro answer h
    rw [hr] at h ⊢
    exact Engine.has_withDepth hd h
  · intro hplain answer t h
    exact Operation.outcome_getProperty_withDepth hr hplain hd h

/-- An array with one element, an object that inherits from it and one that inherits from that one,
where walks follow one link. -/
def Engine.elementHeirs : Engine :=
  let array := (Engine.new { Config.standard with maxPrototypeDepth := 1 }).create
    (.ofClass (.array #[.null]))
  let heir := array.2.create { Object.ofClass .plain with prototype := some 0 }
  (heir.2.create { Object.ofClass .plain with prototype := some 1 }).2

/-- The first heir shows the element, also under a higher bound; for the second one the element
is too far away until the bound is raised. -/
theorem chain_resolution_element :
    let w : World Unit := ⟨Engine.elementHeirs, Store.empty, ()⟩
    let first : Box := ⟨3, .object 1⟩
    let second : Box := ⟨4, .object 2⟩
    ((Operation.getProperty Host.idle first "0").outcome w).1 = .ok (some ⟨5, .null⟩) ∧
      (w.engine.withDepth 2).has first.value "0" = .ok true ∧
      (Operation.getProperty Host.idle second "0").outcome w = (.error .chainTooDeep, w) ∧
      (w.engine.withDepth 2).has second.value "0" = .ok true := by
  intro w first second
  have hfirst : first.value = .object 1 := rfl
  have hsecond : second.value = .object 2 := rfl
  obtain ⟨hfound, -, hraise⟩ := chain_resolution Host.idle w hfirst "0"
  obtain ⟨-, hmissed, -⟩ := chain_resolution Host.idle w hsecond "0"
  obtain ⟨hreached, -, -⟩ := chain_resolution Host.idle (w.withDepth 2) hsecond "0"
  obtain ⟨hhas, n, hn, p, hp, -, hread⟩ := hfound ⟨1, by decide, by decide +kernel⟩
  refine ⟨?_, (hraise 2 (by decide)).1 true hhas, ((hmissed ?_).2 (by decide +kernel)).2,
    (hreached ⟨2, by decide, by decide +kernel⟩).1⟩
  · have hnone : w.engine.ownAt? 1 "0" 0 = none := by decide +kernel
    have hsome : w.engine.ownAt? 1 "0" 1 = some ⟨"0", .data .null, Flags.all⟩ := by decide +kernel
    have hn' : n = 0 ∨ n = 1 := Nat.le_one_iff_eq_zero_or_eq_one.mp hn
    obtain rfl | rfl := hn'
    · cases hnone.symm.trans hp
    · obtain rfl := Option.some.inj (hsome.symm.trans hp)
      rw [hread]
      rfl
  · intro n hn
    have hn' : n = 0 ∨ n = 1 := Nat.le_one_iff_eq_zero_or_eq_one.mp hn
    obtain rfl | rfl := hn' <;> decide +kernel

end ValueEngine
