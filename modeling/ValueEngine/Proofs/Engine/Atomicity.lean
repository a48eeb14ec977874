import Mathlib.Control.Monad.Basic
import ValueEngine.Proofs.Engine.Requests
import ValueEngine.Proofs.Engine.Search

/-! Failed requests change nothing. A request that fails leaves what it has written by then,
but whatever can refuse it is looked at before its first write: the kinds of its arguments,
the descriptor, the property that it meets, the limits, the chain behind a new prototype,
and whether memory grants the storage that an array is padded with. So a request that runs
no function and fails leaves the world as it was, down to the links inside the tables. Reading
a descriptor puts the values of its parts into boxes, which nobody holds when the request
fails; only that their identities are used up remains. -/

namespace ValueEngine

open ValueEngine.Action (Reaches FailsAfter)

variable {H α : Type}

namespace World

def withBoxes (w : World H) (n : ℕ) : World H := { w with engine := { w.engine with boxes := n } }

/-- The second world is the first one but for the count of boxes. -/
def Matches (w t : World H) : Prop := ∃ n, t = w.withBoxes n

theorem matches_of_steps {w t : World H} (h : Relation.ReflTransGen Matches w t) : w.Matches t := by
  induction h with
  | refl => exact ⟨w.engine.boxes, rfl⟩
  | tail _ hstep ih =>
    obtain ⟨n, rfl⟩ := ih
    obtain ⟨m, rfl⟩ := hstep
    exact ⟨m, rfl⟩

end World

namespace Engine

variable [Library] {e : Engine} {receiver v f : Value} {name : String}

/-- Reading a name of a value comes to an accessor with a getter. -/
def MeetsGetter (e : Engine) (v : Value) (name : String) : Prop :=
  ∃ id key getter setter flags, v = .object id ∧
    e.lookup id name = .ok (some ⟨key, .accessor (some getter) setter, flags⟩)

/-- Assigning to a name of a value comes to an accessor with a setter; for the length and the
elements of an array none is looked for. -/
def MeetsSetter (e : Engine) (v : Value) (name : String) : Prop :=
  ∃ id key getter setter flags, v = .object id ∧ (e.object id).isVirtual name = false ∧
    e.lookup id name = .ok (some ⟨key, .accessor getter (some setter), flags⟩)

theorem meetsGetter_of_read (h : e.read v name = .ok (.getter f)) : e.MeetsGetter v name := by
  obtain ⟨id, hid, h⟩ := bind_eq_ok h
  obtain ⟨found, hfound, h⟩ := bind_eq_ok h
  cases v with
  | object _ =>
    cases hid
    obtain _ | ⟨key, current | ⟨_ | getter, setter⟩, flags⟩ := found
    · cases h
    · cases h
    · cases h
    · exact ⟨id, key, getter, setter, flags, rfl, hfound⟩
  | _ => cases hid

theorem meetsSetter_of_assign [Memory] (h : e.assign receiver name v = .ok (.setter f)) :
    e.MeetsSetter receiver name := by
  rw [assign_eq] at h
  obtain ⟨id, hid, h⟩ := bind_eq_ok h
  cases hvirtual : e.assignVirtual? id name v with
  | some r =>
    simp only [hvirtual] at h
    obtain ⟨e', -, h⟩ := bind_eq_ok h
    cases h
  | none =>
    simp only [hvirtual] at h
    obtain ⟨found, hfound, h⟩ := bind_eq_ok h
    obtain _ | ⟨key, current | ⟨getter, _ | setter⟩, flags⟩ := found
    · cases h
    · by_cases hw : flags.writable = true
      · simp only [hw, if_true] at h
        cases h
      · simp only [hw] at h
        cases h
    · cases h
    · cases receiver with
      | object _ =>
        cases hid
        exact ⟨id, key, getter, setter, flags, rfl, assignVirtual?_eq_none_iff.mp hvirtual, hfound⟩
      | _ => cases hid

end Engine

/-- The names under which a descriptor object states its parts. -/
def Descriptor.partNames : List String :=
  ["value", "writable", "get", "set", "enumerable", "configurable"]

/-! ### Parts of requests -/

namespace Operation

variable {host : Host H} {w t : World H} {receiver v desc type : Box} {name : String}

section Parts

theorem reaches_ask (f : Engine → Except Fault α) : Reaches World.Matches (ask f) w :=
  Action.reaches_of_unchanged (by rw [outcome_ask])

theorem reaches_box (u : Value) : Reaches World.Matches (box u) w :=
  .single ⟨w.engine.boxes + 1, rfl⟩

theorem failsAfter_make (f : Engine → α × Engine) : FailsAfter World.Matches (make f) w := by
  intro f t hout
  cases hout

/-- An update that writes last has not written anything when it fails. -/
theorem failsAfter_update {u : Engine.Update α} (hu : u.Atomic) :
    FailsAfter World.Matches (update u) w := by
  intro g t hout
  rw [outcome_update] at hout
  rcases h : u.outcome w.engine with ⟨r, e⟩
  rw [h] at hout
  cases hout
  rw [hu w.engine g e h]

end Parts

theorem failsAfter_call {f this : Box} {args : List Box} (h : w.engine.isFunction f.value = false) :
    FailsAfter World.Matches (call host f this args) w := by
  intro g t hout
  rw [call, callValue, Action.outcome_bind, Action.outcome_get] at hout
  rw [Engine.isFunction, Option.isSome_eq_false_iff, Option.isNone_iff_eq_none] at h
  simp only [h] at hout
  cases hout
  exact .refl

variable [Library]

/-- Making boxes does not change what a search meets. -/
theorem meetsGetter_congr {u : Value} (hsteps : Relation.ReflTransGen World.Matches w t) :
    t.engine.MeetsGetter u name ↔ w.engine.MeetsGetter u name := by
  obtain ⟨n, rfl⟩ := World.matches_of_steps hsteps
  have hobjects : (w.withBoxes n).engine.objects = w.engine.objects := rfl
  have hlookup : ∀ id, (w.withBoxes n).engine.lookup id name = w.engine.lookup id name :=
    fun _ => Engine.lookupWithin_congr hobjects name
  simp only [Engine.MeetsGetter, hlookup]

/-- Reading a property without a getter makes a box at most. -/
theorem reaches_getProperty (h : ¬ w.engine.MeetsGetter receiver.value name) :
    Reaches World.Matches (getProperty host receiver name) w := by
  apply (reaches_ask _).bind
  intro reading t hout
  rw [outcome_ask, Prod.mk.injEq] at hout
  obtain ⟨hread, rfl⟩ := hout
  cases reading with
  | absent => exact Action.reaches_pure _
  | value u => exact (reaches_box u).bind fun _ _ _ => Action.reaches_pure _
  | getter f => exact absurd (Engine.meetsGetter_of_read hread) h
  | unreadable => exact Action.reaches_pure _

theorem failsAfter_setProperty [Memory] (h : ¬ w.engine.MeetsSetter receiver.value name) :
    FailsAfter World.Matches (setProperty host receiver name v) w := by
  intro g t hout
  rw [setProperty, Action.outcome_bind, outcome_update] at hout
  rcases hupdate : (Engine.Update.assign receiver.value name v.value).outcome w.engine with ⟨r, e⟩
  rw [hupdate] at hout
  obtain f | _ | f := r
  · cases hout
    rw [Engine.Update.atomic_assign _ _ _ _ _ _ hupdate]
  · cases hout
  · have hassign : w.engine.assign receiver.value name v.value = .ok (.setter f) := by
      rw [Engine.assign, Action.result_of_outcome hupdate]
      rfl
    exact absurd (Engine.meetsSetter_of_assign hassign) h

/-- Reading a descriptor without getters makes boxes at most. -/
theorem reaches_readDescriptor
    (h : ∀ part ∈ Descriptor.partNames, ¬ w.engine.MeetsGetter desc.value part) :
    Reaches World.Matches (readDescriptor host desc) w := by
  have hpart : ∀ part ∈ Descriptor.partNames, ∀ t, Relation.ReflTransGen World.Matches w t →
      Reaches World.Matches (descriptorPart host desc part) t := by
    intro part hmem t hsteps
    have hnone := mt (meetsGetter_congr hsteps).mp (h part hmem)
    exact (reaches_getProperty hnone).bind fun _ _ _ => Action.reaches_pure _
  apply (hpart "value" (by decide) w .refl).then
  intro value w₁ h₁
  apply (hpart "writable" (by decide) w₁ h₁).then
  intro writable w₂ h₂
  replace h₂ := h₁.trans h₂
  apply (hpart "get" (by decide) w₂ h₂).then
  intro getter w₃ h₃
  replace h₃ := h₂.trans h₃
  apply (hpart "set" (by decide) w₃ h₃).then
  intro setter w₄ h₄
  replace h₄ := h₃.trans h₄
  apply (hpart "enumerable" (by decide) w₄ h₄).then
  intro enumerable w₅ h₅
  replace h₅ := h₄.trans h₅
  apply (hpart "configurable" (by decide) w₅ h₅).then
  intro configurable w₆ _
  exact Action.reaches_pure _

/-- A definition is refused for its receiver, its descriptor or the property it meets, all of
which are looked at before the property is touched. -/
theorem failsAfter_defineProperty [Memory]
    (h : ∀ part ∈ Descriptor.partNames, ¬ w.engine.MeetsGetter desc.value part) :
    FailsAfter World.Matches (defineProperty host receiver name desc) w := by
  refine (Action.reaches_ofExcept _).failsAfter_bind fun id t ht => ?_
  have hread : ∀ u, Relation.ReflTransGen World.Matches w u →
      FailsAfter World.Matches (do
        let d ← readDescriptor host desc
        update (.define id name d)) u := by
    intro u hu
    have hnone : ∀ part ∈ Descriptor.partNames, ¬ u.engine.MeetsGetter desc.value part :=
      fun part hmem => mt (meetsGetter_congr hu).mp (h part hmem)
    exact (reaches_readDescriptor hnone).failsAfter_bind fun d _ _ =>
      failsAfter_update (Engine.Update.atomic_define id name d)
  by_cases hobject : desc.value.object?.isNone
  · simp only [hobject, if_true]
    exact (Action.reaches_of_unchanged rfl).failsAfter_bind fun _ u hu => hread u (ht.trans hu)
  · simp only [hobject]
    exact hread t ht

theorem reaches_instanceTarget (h : ¬ w.engine.MeetsGetter type.value "prototype") :
    Reaches World.Matches (instanceTarget host type) w := by
  rw [instanceTarget]
  cases type.value with
  | object id =>
    apply Action.reaches_get_bind
    by_cases hfun : w.engine.isFunction (.object id)
    · simp only [hfun, if_true]
      apply (reaches_getProperty h).then
      intro found t _
      cases found with
      | none => exact Action.reaches_pure _
      | some p =>
        dsimp only
        cases p.value with
        | object target => exact Action.reaches_pure _
        | _ => exact Action.reaches_of_unchanged rfl
    · simp only [hfun]
      exact Action.reaches_pure _
  | _ => exact Action.reaches_of_unchanged rfl

theorem reaches_instanceOf (h : ¬ w.engine.MeetsGetter type.value "prototype") :
    Reaches World.Matches (instanceOf host v type) w := by
  apply (reaches_instanceTarget h).then
  intro target t _
  cases target with
  | none => exact Action.reaches_pure _
  | some target =>
    cases v.value with
    | object id => exact reaches_ask _
    | _ => exact Action.reaches_pure _

end Operation

/-! ### Requests -/

namespace Request

open Operation

variable [Library] {host : Host H} {w t : World H} {r : Request}

/-- Carrying the request out in an engine runs no function. -/
def RunsNoFunction (e : Engine) : Request → Prop
  | getProperty receiver name => ¬ e.MeetsGetter receiver.value name
  | setProperty receiver name _ => ¬ e.MeetsSetter receiver.value name
  | defineProperty _ _ descriptor =>
    ∀ part ∈ Descriptor.partNames, ¬ e.MeetsGetter descriptor.value part
  | call f _ _ => e.isFunction f.value = false
  | instanceOf _ type => ¬ e.MeetsGetter type.value "prototype"
  | _ => True

theorem run_failsAfter [Memory] (hr : r.RunsNoFunction w.engine) :
    FailsAfter World.Matches (r.run host) w := by
  unfold run
  cases r with
  | getProperty => exact ((reaches_getProperty hr).map _).failsAfter
  | setProperty => exact failsAfter_setProperty hr
  | defineProperty => exact failsAfter_defineProperty hr
  | call => exact (failsAfter_call hr).map _
  | instanceOf => exact ((reaches_instanceOf hr).map _).failsAfter
  | deleteProperty => exact (failsAfter_update (Engine.Update.atomic_delete _ _)).map _
  | setElement => exact failsAfter_update (Engine.Update.atomic_setElement _ _ _)
  | setPrototype => exact failsAfter_update (Engine.Update.atomic_setPrototype _ _)
  | throwException | registerDispatcher => exact failsAfter_make _
  | newObject | newArray | newFunction | newSymbol | newText | newValue | takeException =>
    exact (failsAfter_make _).map _
  | newArrayOfLength => exact (failsAfter_update (Engine.Update.atomic_createArray _)).map _
  | newObjectWithPrototype =>
    exact (failsAfter_update (Engine.Update.atomic_createWithPrototype _)).map _
  | newReference =>
    exact (failsAfter_update (Engine.Update.atomic_createReference _ _ _)).map _
  | parse => exact (failsAfter_update (Engine.Update.atomic_parse _)).map _

end Request

/-- **Failed requests are atomic.** In every world, and whatever memory refuses, a request that
meets no getter and no setter and fails leaves everything as it was: all objects with their
tables, elements and prototype links, the pending exception, the arrays and the state of the
host. Only the boxes that have been made for the values of a descriptor are counted. -/
theorem failed_request_changes_nothing [Library] [Memory] {host : Host H} {w t : World H}
    {r : Request}
    {f : Fault} (hr : r.RunsNoFunction w.engine) (hfail : (r.run host).outcome w = (.error f, t)) :
    t = w.withBoxes t.engine.boxes := by
  obtain ⟨n, rfl⟩ := World.matches_of_steps (Request.run_failsAfter hr f t hfail)
  rfl

/-- An object with a property that cannot be changed, and a descriptor that states another value
for it. -/
def Engine.refusing : Engine :=
  let made := ((Engine.new .standard).create (.ofClass .plain)).2.modify 0
    (·.define "x" (.data (.bool true)) Flags.none)
  (made.create ((Object.ofClass .plain).set "value" (.bool false))).2

def Engine.bare : Engine := ((Engine.new .standard).create (.ofClass (.array #[]))).2

/-- The redefinition is refused after the value of the descriptor has been put into a box, and
an element is refused for which there is no storage. -/
theorem failed_request_changes_nothing_refused :
    let w : World Unit := ⟨Engine.refusing, Store.empty, ()⟩
    let r : Request := .defineProperty ⟨2, .object 0⟩ "x" ⟨3, .object 1⟩
    let u : World Unit := ⟨Engine.bare, Store.empty, ()⟩
    let q : Request := .setElement ⟨2, .object 0⟩ 4 ⟨3, .bool true⟩
    let exhausted : Memory := ⟨fun _ _ => false⟩
    (∃ t, (r.run Host.idle).outcome w = (.error (.cannotRedefine "x"), t) ∧
      t = w.withBoxes t.engine.boxes ∧ t.engine.boxes = w.engine.boxes + 1) ∧
    ∃ t, (@Request.run .standard Unit exhausted Host.idle q).outcome u =
        (.error (.cannotAllocate 5), t) ∧
      t = u.withBoxes t.engine.boxes := by
  intro w r u q exhausted
  have hvalue : Engine.refusing.lookup 1 "value" =
      .ok (some ⟨"value", .data (.bool false), Flags.all⟩) := by
    decide +kernel
  have hothers : ∀ part ∈ Descriptor.partNames.tail, Engine.refusing.lookup 1 part = .ok none := by
    simp only [Descriptor.partNames, List.tail_cons, List.forall_mem_cons]
    refine ⟨?_, ?_, ?_, ?_, ?_, nofun⟩ <;> decide +kernel
  have hr : r.RunsNoFunction w.engine := by
    rintro part hpart ⟨id, key, getter, setter, flags, hid, hmeets⟩
    cases hid
    obtain rfl | hpart := List.mem_cons.mp hpart
    · cases hvalue.symm.trans hmeets
    · cases (hothers part hpart).symm.trans hmeets
  have hfail : ((r.run Host.idle).outcome w).1 = .error (.cannotRedefine "x") := by decide +kernel
  have hboxes : ((r.run Host.idle).outcome w).2.engine.boxes = w.engine.boxes + 1 := by
    decide +kernel
  have hrefused : ((@Request.run .standard Unit exhausted Host.idle q).outcome u).1 =
      .error (.cannotAllocate 5) := by
    decide +kernel
  exact ⟨⟨_, Prod.ext hfail rfl, failed_request_changes_nothing hr (Prod.ext hfail rfl), hboxes⟩,
    _, Prod.ext hrefused rfl,
    @failed_request_changes_nothing Unit .standard exhausted _ _ _ q _ trivial
      (Prod.ext hrefused rfl)⟩

end ValueEngine
