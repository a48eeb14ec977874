import ValueEngine.Proofs.Engine.Ancestors

/-! Whether an object is on the prototype chain of another. The walk compares an object before it
counts the link to it, so that it comes one link farther than a search for a name: an object at the
distance past the bound is still recognised, though what it defines is out of reach. Everywhere else
the walk and the search agree on how far a chain is followed. -/

namespace ValueEngine

namespace Engine

variable {e : Engine} {target id : ObjectId} {links : ℕ} {start : Option ObjectId}

theorem leadsTo_none : e.leadsTo target links none = .ok false := by
  rw [leadsTo.eq_def]

theorem leadsTo_self : e.leadsTo target links (some target) = .ok true := by
  rw [leadsTo.eq_def]
  simp

theorem leadsTo_zero (hne : id ≠ target) : e.leadsTo target 0 (some id) = .error .chainTooDeep := by
  rw [leadsTo.eq_def]
  simp [hne]

theorem leadsTo_succ (hne : id ≠ target) :
    e.leadsTo target (links + 1) (some id) = e.leadsTo target links (e.prototype? id) := by
  rw [leadsTo.eq_def]
  simp [hne]

/-- A walk from an object answers by what it meets at the distances up to the bound. -/
theorem leadsTo_eq :
    e.leadsTo target links (some id) =
      if ∃ n ≤ links, e.ancestor? id n = some target then .ok true
      else if (e.ancestor? id links).isSome then .error .chainTooDeep
      else .ok false := by
  induction links generalizing id with
  | zero =>
    by_cases hid : id = target
    · simp [hid, leadsTo_self]
    · simp [hid, leadsTo_zero]
  | succ links ih =>
    by_cases hid : id = target
    · subst hid
      rw [leadsTo_self, if_pos ⟨0, Nat.zero_le _, rfl⟩]
    · have hmeets : (∃ n ≤ links + 1, e.ancestor? id n = some target) ↔
          ∃ n ≤ links, e.ancestor? id (n + 1) = some target := by
        simp only [← Nat.lt_succ_iff, Nat.exists_lt_succ_left, ancestor?_zero, Option.some.injEq,
          hid, false_or]
      rw [leadsTo_succ hid]
      simp only [hmeets, ancestor?_succ]
      cases e.prototype? id with
      | none => simp [leadsTo_none]
      | some next => simp [ih]

/-- An object is on the chain of another one, behind it and at a distance up to a bound. -/
def Inherits (e : Engine) (id target : ObjectId) (bound : ℕ) : Prop :=
  ∃ n ≤ bound, 1 ≤ n ∧ e.ancestor? id n = some target

instance (bound : ℕ) : Decidable (e.Inherits id target bound) :=
  inferInstanceAs (Decidable (∃ n, n ≤ bound ∧ 1 ≤ n ∧ e.ancestor? id n = some target))

theorem inherits_succ_iff :
    e.Inherits id target (links + 1) ↔ ∃ n ≤ links, e.ancestor? id (n + 1) = some target := by
  constructor
  · rintro ⟨_ | n, hn, hpos, htarget⟩
    · cases hpos
    · exact ⟨n, Nat.le_of_succ_le_succ hn, htarget⟩
  · rintro ⟨n, hn, htarget⟩
    exact ⟨n + 1, Nat.succ_le_succ hn, Nat.succ_pos n, htarget⟩

/-- A chain that ends within the bound holds nothing at the distance past it. -/
theorem inherits_succ_of_end (hend : e.ancestor? id (links + 1) = none) :
    e.Inherits id target (links + 1) ↔ e.Inherits id target links := by
  constructor
  · rintro ⟨n, hn, hpos, htarget⟩
    refine ⟨n, Nat.le_of_lt_succ (lt_of_le_of_ne hn ?_), hpos, htarget⟩
    rintro rfl
    cases hend.symm.trans htarget
  · rintro ⟨n, hn, hpos, htarget⟩
    exact ⟨n, Nat.le_succ_of_le hn, hpos, htarget⟩

/-- The walk from the prototype of an object compares one object more than the bound has links. -/
theorem leadsTo_prototype? :
    e.leadsTo target links (e.prototype? id) =
      if e.Inherits id target (links + 1) then .ok true
      else if (e.ancestor? id (links + 1)).isSome then .error .chainTooDeep
      else .ok false := by
  simp only [inherits_succ_iff, ancestor?_succ]
  cases e.prototype? id with
  | none => simp [leadsTo_none]
  | some next => simp [leadsTo_eq]

theorem leadsTo_eq_true_iff : e.leadsTo target links (e.prototype? id) = .ok true ↔
    e.Inherits id target (links + 1) := by
  rw [leadsTo_prototype?]
  split_ifs <;> simp [*]

theorem leadsTo_eq_false_iff : e.leadsTo target links (e.prototype? id) = .ok false ↔
    e.ancestor? id (links + 1) = none ∧ ¬ e.Inherits id target links := by
  rw [leadsTo_prototype?]
  split_ifs with hin hgoes
  · refine ⟨nofun, fun ⟨hend, hnot⟩ => absurd ((inherits_succ_of_end hend).mp hin) hnot⟩
  · refine ⟨nofun, fun ⟨hend, _⟩ => ?_⟩
    simp [hend] at hgoes
  · have hend := Option.not_isSome_iff_eq_none.mp hgoes
    exact ⟨fun _ => ⟨hend, hin ∘ (inherits_succ_of_end hend).mpr⟩, fun _ => rfl⟩

theorem leadsTo_eq_error_iff {f : Fault} : e.leadsTo target links (e.prototype? id) = .error f ↔
    f = .chainTooDeep ∧ (e.ancestor? id (links + 1)).isSome ∧
      ¬ e.Inherits id target (links + 1) := by
  rw [leadsTo_prototype?]
  split_ifs with hin hgoes
  · simp [hin]
  · exact ⟨fun h => ⟨(Except.error.inj h).symm, hgoes, hin⟩, fun h => by rw [h.1]⟩
  · simp [hgoes]

section Names

variable [Library] {name : String}

theorem has_of_inherits (h : e.Inherits id target e.config.maxPrototypeDepth)
    (hown : ((e.object target).own? name).isSome) : e.has (.object id) name = .ok true := by
  obtain ⟨n, hn, -, htarget⟩ := h
  have hsome : (e.ownAt? id name n).isSome := by simpa [ownAt?, htarget] using hown
  obtain ⟨_, -, p, -, -, hmet⟩ := exists_nearest ⟨n, hn, hsome⟩
  have hfound : e.lookup id name = .ok (some p) := hmet
  rw [has_object, hfound]
  rfl

theorem has_of_end (hend : e.ancestor? id (e.config.maxPrototypeDepth + 1) = none) (name : String) :
    ∃ answer, e.has (.object id) name = .ok answer := by
  rw [has_object]
  cases hout : e.lookup id name with
  | error f =>
    have hgoes := (lookupWithin_eq_error_iff_ownAt?.mp hout).2.2
    simp [hend] at hgoes
  | ok found => exact ⟨found.isSome, rfl⟩

/-- What only objects past the bound have is out of reach. -/
theorem has_past_bound (hgoes : (e.ancestor? id (e.config.maxPrototypeDepth + 1)).isSome)
    (hnone : ∀ n ≤ e.config.maxPrototypeDepth, e.ownAt? id name n = none) :
    e.has (.object id) name = .error .chainTooDeep := by
  have hdeep : e.lookup id name = .error .chainTooDeep :=
    lookupWithin_eq_error_iff_ownAt?.mpr ⟨rfl, hnone, hgoes⟩
  rw [has_object, hdeep]
  rfl

end Names

end Engine

variable {H : Type} {host : Host H} {w : World H} {v type : Box} {id target : ObjectId}

namespace Operation

variable [Library]

theorem outcome_instanceOf (hv : v.value = .object id) (htype : type.value = .object target)
    (hplain : w.engine.isFunction type.value = false) :
    (instanceOf host v type).outcome w =
      (w.engine.leadsTo target w.engine.config.maxPrototypeDepth (w.engine.prototype? id), w) := by
  have htarget : (instanceTarget host type).outcome w = (.ok (some target), w) := by
    rw [htype] at hplain
    rw [instanceTarget, htype]
    dsimp only
    rw [Action.outcome_bind, Action.outcome_get]
    simp [hplain]
  rw [instanceOf, Action.outcome_bind, htarget, hv]
  exact outcome_ask _ w

end Operation

/-- **The law of instances.** Of an object and another one that is no function, the answer is yes
exactly if the other one is on the chain of the first at a distance up to one past the bound, no
if the chain ends within the bound without it, and a failure otherwise; nothing changes. Within
the bound, every name that the other one has is then found on the first, and whenever the answer
is no, the search for any name comes to an end. At the distance past the bound the answer is
yes, but names that no nearer object has are not found there, and not missed either. -/
theorem instance_law [Library] (host : Host H) (w : World H) (hv : v.value = .object id)
    (htype : type.value = .object target) (hplain : w.engine.isFunction type.value = false) :
    let e := w.engine
    let bound := e.config.maxPrototypeDepth
    let result := (Operation.instanceOf host v type).outcome w
    result.2 = w ∧
      (result.1 = .ok true ↔ e.Inherits id target (bound + 1)) ∧
      (result.1 = .ok false ↔ e.ancestor? id (bound + 1) = none ∧ ¬ e.Inherits id target bound) ∧
      (∀ f, result.1 = .error f ↔ f = .chainTooDeep ∧ (e.ancestor? id (bound + 1)).isSome ∧
        ¬ e.Inherits id target (bound + 1)) ∧
      (e.Inherits id target bound → ∀ name, ((e.object target).own? name).isSome →
        e.has v.value name = .ok true) ∧
      (result.1 = .ok false → ∀ name, ∃ answer, e.has v.value name = .ok answer) ∧
      (e.ancestor? id (bound + 1) = some target → ∀ name,
        (∀ n ≤ bound, e.ownAt? id name n = none) → e.has v.value name = .error .chainTooDeep) := by
  intro e bound result
  have hresult : result = _ := Operation.outcome_instanceOf hv htype hplain
  rw [hresult, hv]
  refine ⟨rfl, Engine.leadsTo_eq_true_iff, Engine.leadsTo_eq_false_iff,
    fun f => Engine.leadsTo_eq_error_iff, fun h _ => Engine.has_of_inherits h, fun h name => ?_,
    fun h _ => Engine.has_past_bound (Option.isSome_of_eq_some h)⟩
  exact Engine.has_of_end (Engine.leadsTo_eq_false_iff.mp h).1 name

/-- Of the heirs of an array, where walks follow one link, the first is an instance of the array
and shows its element; the array is no instance of the heir, and the chain of the second heir is
too long to tell whether it is one of its own. -/
theorem instance_law_heirs :
    let w : World Unit := ⟨Engine.elementHeirs, Store.empty, ()⟩
    let answer (id target : ObjectId) :=
      ((Operation.instanceOf Host.idle ⟨3, .object id⟩ ⟨4, .object target⟩).outcome w).1
    answer 1 0 = .ok true ∧ w.engine.has (.object 1) "0" = .ok true ∧ answer 0 1 = .ok false ∧
      answer 2 2 = .error .chainTooDeep := by
  intro w answer
  have hlaw (id target : ObjectId) (hplain : w.engine.isFunction (.object target) = false) :=
    @instance_law Unit ⟨3, .object id⟩ ⟨4, .object target⟩ id target .standard Host.idle w
      rfl rfl hplain
  obtain ⟨-, hyes, -, -, hname, -, -⟩ := hlaw 1 0 rfl
  obtain ⟨-, -, hno, -⟩ := hlaw 0 1 rfl
  obtain ⟨-, -, -, hfails, -⟩ := hlaw 2 2 rfl
  exact ⟨hyes.mpr (by decide +kernel), hname (by decide +kernel) "0" (by decide +kernel),
    hno.mpr (by decide +kernel), (hfails _).mpr ⟨rfl, by decide +kernel, by decide +kernel⟩⟩

/-- An object with a property and one that inherits from it, where walks follow no link. -/
def World.shallow : World Unit :=
  Request.runAll Host.idle
    [.newObject, .setProperty ⟨2, .object 0⟩ "x" ⟨3, .bool true⟩, .newObjectWithPrototype ⟨2, .object 0⟩]
    ⟨Engine.new { Config.standard with maxPrototypeDepth := 0 }, Store.empty, ()⟩

/-- The heir is an instance of an object that is past the bound, and whose property it fails to
show. -/
theorem instance_past_bound :
    let heir : Box := ⟨4, .object 1⟩
    let parent : Box := ⟨2, .object 0⟩
    World.shallow.engine.Reachable ∧ World.shallow.engine.config.maxPrototypeDepth = 0 ∧
      World.shallow.engine.isFunction parent.value = false ∧
      (Operation.instanceOf Host.idle heir parent).outcome World.shallow = (.ok true, World.shallow) ∧
      ¬ World.shallow.engine.Inherits 1 0 0 ∧
      ((World.shallow.engine.object 0).own? "x").isSome ∧
      World.shallow.engine.has heir.value "x" = .error .chainTooDeep := by
  intro heir parent
  have hsteps := Request.runAll_steps (H := Unit) Host.idle_conforms
    [.newObject, .setProperty parent "x" ⟨3, .bool true⟩, .newObjectWithPrototype parent]
    ⟨Engine.new { Config.standard with maxPrototypeDepth := 0 }, Store.empty, ()⟩
  have hplain : World.shallow.engine.isFunction parent.value = false := by decide +kernel
  have hanswer : World.shallow.engine.leadsTo 0 World.shallow.engine.config.maxPrototypeDepth
      (World.shallow.engine.prototype? 1) = .ok true := by
    decide +kernel
  refine ⟨⟨_, hsteps⟩, by decide +kernel, hplain, ?_, by decide +kernel, by decide +kernel,
    by decide +kernel⟩
  rw [Operation.outcome_instanceOf rfl rfl hplain, hanswer]

end ValueEngine
