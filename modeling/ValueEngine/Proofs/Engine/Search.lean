import Mathlib.Data.Nat.Notation
import Mathlib.Tactic.SplitIfs
import ValueEngine.Engine.Lookup

/-! Searching a prototype chain for a name. The nearest property of a name is defined over
the whole chain, however long; a search with a bound on the links finds it if it is
within the bound, and fails if the chain goes on past the bound without it. -/

namespace ValueEngine

namespace Object

variable [Library] {o : Object} {name : String}

/-- Apart from the length and the elements of arrays, own properties are those of the table. -/
theorem own?_eq_named? (hvirtual : o.isVirtual name = false) : o.own? name = o.named? name := by
  rw [own?]
  cases helements : o.elements? with
  | none => rfl
  | some elements =>
    rw [isVirtual, helements, Option.isSome_some, Bool.true_and, isElementName,
      Bool.or_eq_false_iff] at hvirtual
    obtain ⟨hlength, hindex⟩ := hvirtual
    rw [Option.isSome_eq_false_iff, Option.isNone_iff_eq_none] at hindex
    dsimp only
    rw [if_neg (of_decide_eq_false hlength), hindex]
    rfl

end Object

namespace Engine

variable [Library] {e : Engine} {name : String} {id last last' : ObjectId} {links n m : ℕ}
  {p q : Property}

/-- The way from one object to another along prototype links, past objects that do not have
a property of the name themselves. -/
inductive Passes (e : Engine) (name : String) : ℕ → ObjectId → ObjectId → Prop
  | here (id : ObjectId) : Passes e name 0 id id
  | on {n : ℕ} {id next last : ObjectId} (hnone : (e.object id).own? name = none)
    (hnext : e.prototype? id = some next) (h : Passes e name n next last) :
    Passes e name (n + 1) id last

/-- The property of a name that comes first on the chain of an object. -/
def Nearest (e : Engine) (name : String) (id : ObjectId) (p : Property) : Prop :=
  ∃ n last, e.Passes name n id last ∧ (e.object last).own? name = some p

/-- The chain of an object goes on past the bound on its links, and up to there no object
has a property of the name. -/
def TooDeep (e : Engine) (name : String) (id : ObjectId) : Prop :=
  ∃ last, e.Passes name (e.config.maxPrototypeDepth + 1) id last

namespace Passes

theorem unique (h : e.Passes name n id last) (hp : (e.object last).own? name = some p)
    (h' : e.Passes name m id last') (hq : (e.object last').own? name = some q) : p = q := by
  induction h generalizing m with
  | here id =>
    cases h' with
    | here => exact Option.some.inj (hp.symm.trans hq)
    | on hnone =>
      rw [hnone] at hp
      cases hp
  | on hnone hnext _ ih =>
    cases h' with
    | here =>
      rw [hnone] at hq
      cases hq
    | on _ hnext' h' =>
      rw [hnext, Option.some.injEq] at hnext'
      subst hnext'
      exact ih hp h'

/-- Every shorter part of a way is one. -/
theorem take (h : e.Passes name n id last) (hm : m ≤ n) : ∃ mid, e.Passes name m id mid := by
  induction h generalizing m with
  | here id =>
    rw [Nat.le_zero.mp hm]
    exact ⟨id, here id⟩
  | @on n id _ _ hnone hnext _ ih =>
    cases m with
    | zero => exact ⟨id, here id⟩
    | succ m =>
      obtain ⟨mid, hmid⟩ := ih (Nat.le_of_succ_le_succ hm)
      exact ⟨mid, on hnone hnext hmid⟩

end Passes

theorem Nearest.unique (h : e.Nearest name id p) (h' : e.Nearest name id q) : p = q := by
  obtain ⟨n, last, hpasses, hp⟩ := h
  obtain ⟨m, last', hpasses', hq⟩ := h'
  exact hpasses.unique hp hpasses' hq

theorem passes_succ_iff : e.Passes name (n + 1) id last ↔
    (e.object id).own? name = none ∧ ∃ next, e.prototype? id = some next ∧
      e.Passes name n next last := by
  constructor
  · rintro (_ | ⟨hnone, hnext, h⟩)
    exact ⟨hnone, _, hnext, h⟩
  · rintro ⟨hnone, next, hnext, h⟩
    exact .on hnone hnext h

section Equations

theorem lookupWithin_of_own? (hp : (e.object id).own? name = some p) :
    e.lookupWithin name links id = .ok (some p) := by
  rw [lookupWithin.eq_def]
  dsimp only
  rw [hp]

theorem lookupWithin_end (hnone : (e.object id).own? name = none) (hend : e.prototype? id = none) :
    e.lookupWithin name links id = .ok none := by
  rw [lookupWithin.eq_def]
  dsimp only
  rw [hnone, hend]

theorem lookupWithin_zero {next : ObjectId} (hnone : (e.object id).own? name = none)
    (hnext : e.prototype? id = some next) : e.lookupWithin name 0 id = .error .chainTooDeep := by
  rw [lookupWithin.eq_def]
  dsimp only
  rw [hnone, hnext]

theorem lookupWithin_succ {next : ObjectId} (hnone : (e.object id).own? name = none)
    (hnext : e.prototype? id = some next) :
    e.lookupWithin name (links + 1) id = e.lookupWithin name links next := by
  rw [lookupWithin.eq_def]
  dsimp only
  rw [hnone, hnext]

theorem lookup_of_own? (hp : (e.object id).own? name = some p) : e.lookup id name = .ok (some p) :=
  lookupWithin_of_own? hp

/-- A search reads nothing of an engine but the objects that it comes to. -/
theorem lookupWithin_congr_of {e' : Engine} {P : ObjectId → Prop} (hid : P id)
    (hon : ∀ id next, P id → e.prototype? id = some next → P next)
    (hsame : ∀ id, P id → e'.object id = e.object id) (name : String) :
    e'.lookupWithin name links id = e.lookupWithin name links id := by
  have hown : ∀ id, P id → (e'.object id).own? name = (e.object id).own? name := fun id h => by
    rw [hsame id h]
  have hprototype : ∀ id, P id → e'.prototype? id = e.prototype? id := fun id h => by
    rw [prototype?, hsame id h, prototype?]
  induction links, id using lookupWithin.induct e name with
  | case1 links id p hp =>
    rw [lookupWithin_of_own? hp, lookupWithin_of_own? ((hown id hid).trans hp)]
  | case2 links id hnone hend =>
    rw [lookupWithin_end hnone hend,
      lookupWithin_end ((hown id hid).trans hnone) ((hprototype id hid).trans hend)]
  | case3 id hnone next hnext =>
    rw [lookupWithin_zero hnone hnext,
      lookupWithin_zero ((hown id hid).trans hnone) ((hprototype id hid).trans hnext)]
  | case4 id hnone links next hnext ih =>
    rw [lookupWithin_succ hnone hnext,
      lookupWithin_succ ((hown id hid).trans hnone) ((hprototype id hid).trans hnext),
      ih (hon id next hid hnext)]

theorem lookupWithin_congr {e' : Engine} (h : e'.objects = e.objects) (name : String) :
    e'.lookupWithin name links id = e.lookupWithin name links id :=
  lookupWithin_congr_of (P := fun _ => True) trivial (fun _ _ _ _ => trivial)
    (fun id _ => by rw [object, h, object]) name

end Equations

theorem lookupWithin_eq_some_iff :
    e.lookupWithin name links id = .ok (some p) ↔
      ∃ n last, n ≤ links ∧ e.Passes name n id last ∧ (e.object last).own? name = some p := by
  induction links, id using lookupWithin.induct e name with
  | case1 links id q hown =>
    rw [lookupWithin_of_own? hown]
    constructor
    · rintro ⟨⟩
      exact ⟨0, id, Nat.zero_le _, .here id, hown⟩
    · rintro ⟨n, last, -, hpasses, hp⟩
      rw [hpasses.unique hp (.here id) hown]
  | case2 links id hown hend =>
    rw [lookupWithin_end hown hend]
    refine ⟨nofun, ?_⟩
    rintro ⟨_ | n, last, -, hpasses, hp⟩
    · cases hpasses
      cases hown.symm.trans hp
    · obtain ⟨-, next, hnext, -⟩ := passes_succ_iff.mp hpasses
      cases hend.symm.trans hnext
  | case3 id hown next hnext =>
    rw [lookupWithin_zero hown hnext]
    refine ⟨nofun, ?_⟩
    rintro ⟨n, last, hn, hpasses, hp⟩
    cases Nat.le_zero.mp hn
    cases hpasses
    cases hown.symm.trans hp
  | case4 id hown links next hnext ih =>
    rw [lookupWithin_succ hown hnext, ih]
    constructor
    · rintro ⟨n, last, hn, hpasses, hp⟩
      exact ⟨n + 1, last, Nat.succ_le_succ hn, .on hown hnext hpasses, hp⟩
    · rintro ⟨_ | n, last, hn, hpasses, hp⟩
      · cases hpasses
        cases hown.symm.trans hp
      · obtain ⟨-, next', hnext', hpasses⟩ := passes_succ_iff.mp hpasses
        cases hnext.symm.trans hnext'
        exact ⟨n, last, Nat.le_of_succ_le_succ hn, hpasses, hp⟩

/-- A search fails only where the chain goes on past the bound. -/
theorem lookupWithin_eq_error_iff {f : Fault} :
    e.lookupWithin name links id = .error f ↔
      f = .chainTooDeep ∧ ∃ last, e.Passes name (links + 1) id last := by
  simp only [passes_succ_iff]
  induction links, id using lookupWithin.induct e name with
  | case1 links id q hown =>
    rw [lookupWithin_of_own? hown]
    refine ⟨nofun, ?_⟩
    rintro ⟨-, last, hnone, -⟩
    cases hown.symm.trans hnone
  | case2 links id hown hend =>
    rw [lookupWithin_end hown hend]
    refine ⟨nofun, ?_⟩
    rintro ⟨-, last, -, next, hnext, -⟩
    cases hend.symm.trans hnext
  | case3 id hown next hnext =>
    rw [lookupWithin_zero hown hnext]
    constructor
    · rintro ⟨⟩
      exact ⟨rfl, next, hown, next, hnext, .here next⟩
    · rintro ⟨rfl, -⟩
      rfl
  | case4 id hown links next hnext ih =>
    rw [lookupWithin_succ hown hnext, ih]
    constructor
    · rintro ⟨hf, last, hpasses⟩
      exact ⟨hf, last, hown, next, hnext, passes_succ_iff.mpr hpasses⟩
    · rintro ⟨hf, last, -, next', hnext', hpasses⟩
      cases hnext.symm.trans hnext'
      exact ⟨hf, last, passes_succ_iff.mp hpasses⟩

/-- A search over a chain that is not too deep finds the nearest property, or none. -/
theorem lookup_of_not_tooDeep (h : ¬ e.TooDeep name id) :
    (∃ p, e.Nearest name id p ∧ e.lookup id name = .ok (some p)) ∨
      (∀ p, ¬ e.Nearest name id p) ∧ e.lookup id name = .ok none := by
  cases hout : e.lookup id name with
  | error f => exact absurd (lookupWithin_eq_error_iff.mp hout).2 h
  | ok found =>
    cases found with
    | some p =>
      obtain ⟨n, last, -, hpasses, hp⟩ := lookupWithin_eq_some_iff.mp hout
      exact Or.inl ⟨p, ⟨n, last, hpasses, hp⟩, rfl⟩
    | none =>
      refine Or.inr ⟨fun p hnearest => ?_, rfl⟩
      obtain ⟨n, last, hpasses, hp⟩ := hnearest
      by_cases hn : n ≤ e.config.maxPrototypeDepth
      · have hfound := lookupWithin_eq_some_iff.mpr ⟨n, last, hn, hpasses, hp⟩
        cases hout.symm.trans hfound
      · exact h (hpasses.take (Nat.not_le.mp hn))

theorem lookup_of_tooDeep (h : e.TooDeep name id) : e.lookup id name = .error .chainTooDeep :=
  lookupWithin_eq_error_iff.mpr ⟨rfl, h⟩

theorem has_object : e.has (.object id) name = (e.lookup id name).map (·.isSome) := by
  rw [has, Value.toObject]
  change (e.lookup id name >>= _) = _
  cases e.lookup id name <;> rfl

end Engine

end ValueEngine
