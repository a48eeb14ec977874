import ValueEngine.Proofs.Engine.Requests
import ValueEngine.Proofs.Engine.Search
import ValueEngine.Proofs.Engine.Soundness

/-! Properties that are not configurable stay. Whatever a program does to an engine, such a
property keeps its place, its kind and its enumerable flag; an accessor keeps its functions,
and a data property can only lose its writable flag. One effect of a step is looked at after
the other, and a run of requests is a run of steps. The functions that the requests run may be
any that act on the engine by its own operations. -/

namespace ValueEngine

namespace Property

/-- What must remain of a property that is not configurable. -/
structure Lasting (p p' : Property) : Prop where
  fixed : p'.flags.configurable = false
  enumerable : p'.flags.enumerable = p.flags.enumerable
  accessor : ∀ getter setter, p.slot = .accessor getter setter →
    p'.slot = .accessor getter setter ∧ p'.flags.writable = false
  data : ∀ v, p.slot = .data v →
    (∃ v', p'.slot = .data v') ∧ (p'.flags.writable = true → p.flags.writable = true)

namespace Lasting

theorem refl {p : Property} (htidy : p.Tidy) (hfixed : p.flags.configurable = false) :
    p.Lasting p where
  fixed := hfixed
  enumerable := rfl
  accessor getter setter h := ⟨h, (htidy getter setter h).1⟩
  data v h := ⟨⟨v, h⟩, id⟩

theorem trans {p q r : Property} (hpq : p.Lasting q) (hqr : q.Lasting r) : p.Lasting r where
  fixed := hqr.fixed
  enumerable := hqr.enumerable.trans hpq.enumerable
  accessor getter setter h := hqr.accessor getter setter (hpq.accessor getter setter h).1
  data v h := by
    obtain ⟨⟨v', h'⟩, hw⟩ := hpq.data v h
    obtain ⟨hdata, hw'⟩ := hqr.data v' h'
    exact ⟨hdata, fun hr => hw (hw' hr)⟩

end Lasting

end Property

/-! ### Merging into a fixed property -/

section Merging

variable {e : Engine} {d : Descriptor} {stated current : Option Value}

theorem eq_of_same_object {id : ObjectId} {g : Value} (h : (Value.object id).same g = true) :
    g = .object id := by
  cases g with
  | object id' =>
    have hid : id = id' := beq_iff_eq.mp h
    rw [hid]
  | _ => cases h

theorem half_eq_self {f : Option Value} (h : f ≠ some .undefined) : Descriptor.half f = f := by
  cases f with
  | none => rfl
  | some f =>
    cases f with
    | undefined => exact absurd rfl h
    | _ => rfl

/-- Merging a half that agrees with the current one changes nothing. -/
theorem mergedHalf_eq (hcurrent : current ≠ some .undefined)
    (hstated : ∀ f, stated = some f → f.isUndefined = true ∨ ∃ id, f = .object id)
    (hopen : Descriptor.openOr (fun f => Descriptor.sameHalf (some f) current) stated = true) :
    Descriptor.mergedHalf stated current = current := by
  cases stated with
  | none => rfl
  | some f =>
    have hsame : Descriptor.sameHalf (some f) current = true := hopen
    rw [Descriptor.sameHalf, half_eq_self hcurrent] at hsame
    obtain hundefined | ⟨id, rfl⟩ := hstated f rfl
    · cases f with
      | undefined =>
        cases current with
        | none => rfl
        | some g => cases hsame
      | _ => cases hundefined
    · cases current with
      | none => cases hsame
      | some g => rw [eq_of_same_object hsame]; rfl

theorem mergedSlot_accessor {getter setter : Option Value} (hdata : d.isData = false)
    (hgetter : Descriptor.mergedHalf d.getter getter = getter)
    (hsetter : Descriptor.mergedHalf d.setter setter = setter) :
    d.mergedSlot (.accessor getter setter) false = (.accessor getter setter, false) := by
  rw [Descriptor.mergedSlot.eq_def]
  by_cases ha : d.isAccessor = true
  · rw [if_pos ha]
    simp only [hgetter, hsetter]
  · rw [if_neg ha, hdata]
    rfl

theorem mergedSlot_data (ha : d.isAccessor = false) (v : Value) (writable : Bool) :
    d.mergedSlot (.data v) writable = (.data (d.value.getD v), d.writable.getD writable) := by
  rw [Descriptor.mergedSlot.eq_def, ha]
  by_cases hdata : d.isData = true
  · rw [if_neg Bool.false_ne_true, if_pos hdata]
  · rw [if_neg Bool.false_ne_true, if_neg hdata]
    rw [Descriptor.isData, Bool.or_eq_true, not_or] at hdata
    rw [Option.not_isSome_iff_eq_none.mp hdata.1, Option.not_isSome_iff_eq_none.mp hdata.2]
    rfl

/-- Merging what a fixed property admits keeps what must remain of it. -/
theorem lasting_merge {p : Property} (htidy : p.Tidy) (hfixed : p.flags.configurable = false)
    (hd : e.checkDescriptor d = .ok ()) (hadmitted : d.admittedBy p.slot p.flags = true)
    (key : String) :
    p.Lasting ⟨key, (d.merge p.slot p.flags).1, (d.merge p.slot p.flags).2⟩ := by
  obtain ⟨hkinds, hhalves⟩ := checkDescriptor_eq_ok hd
  rw [Descriptor.admittedBy.eq_def, Bool.and_eq_true, Bool.and_eq_true] at hadmitted
  obtain ⟨⟨hconfigurable, henumerable⟩, hslot⟩ := hadmitted
  refine ⟨?_, ?_, ?_, ?_⟩
  · show d.configurable.getD p.flags.configurable = false
    cases hc : d.configurable with
    | none => exact hfixed
    | some c =>
      rw [hc] at hconfigurable
      cases c with
      | false => rfl
      | true => cases hconfigurable
  · show d.enumerable.getD p.flags.enumerable = p.flags.enumerable
    cases hc : d.enumerable with
    | none => rfl
    | some c =>
      rw [hc] at henumerable
      exact beq_iff_eq.mp henumerable
  · intro getter setter hp
    obtain ⟨hw, hgetter, hsetter⟩ := htidy getter setter hp
    rw [hp] at hslot
    simp only [Bool.and_eq_true, Bool.not_eq_true'] at hslot
    obtain ⟨⟨hdata, hget⟩, hset⟩ := hslot
    have hg := mergedHalf_eq hgetter (hhalves d.getter (by simp)) hget
    have hs := mergedHalf_eq hsetter (hhalves d.setter (by simp)) hset
    have hmerged : d.mergedSlot p.slot p.flags.writable = (.accessor getter setter, false) := by
      rw [hp, hw]
      exact mergedSlot_accessor hdata hg hs
    rw [Descriptor.merge, hmerged]
    exact ⟨rfl, rfl⟩
  · intro v hp
    rw [hp] at hslot
    simp only [Bool.and_eq_true, Bool.not_eq_true', Bool.or_eq_true] at hslot
    obtain ⟨ha, hvalue⟩ := hslot
    rw [Descriptor.merge, hp, mergedSlot_data ha v p.flags.writable]
    refine ⟨⟨_, rfl⟩, ?_⟩
    show d.writable.getD p.flags.writable = true → p.flags.writable = true
    obtain hw | ⟨hnot, -⟩ := hvalue
    · exact fun _ => hw
    · intro hw
      cases hc : d.writable with
      | none => rwa [hc] at hw
      | some c =>
        rw [hc] at hw hnot
        obtain rfl : c = true := hw
        cases hnot

end Merging

/-! ### Fixed properties of an object -/

namespace Object

variable [Library] {o o' : Object} {name : String} {slot : Slot} {flags : Flags}

/-- The properties of `o` that are not configurable last in `o'`. -/
def Keeps (o o' : Object) : Prop :=
  ∀ name p, o.named? name = some p → p.flags.configurable = false →
    ∃ p', o'.named? name = some p' ∧ p.Lasting p'

theorem Keeps.refl (htidy : ∀ name p, o.named? name = some p → p.Tidy) : o.Keeps o :=
  fun name p hp hfixed => ⟨p, hp, Property.Lasting.refl (htidy name p hp) hfixed⟩

theorem Keeps.trans {o'' : Object} (h : o.Keeps o') (h' : o'.Keeps o'') : o.Keeps o'' := by
  intro name p hp hfixed
  obtain ⟨q, hq, hpq⟩ := h name p hp hfixed
  obtain ⟨r, hr, hqr⟩ := h' name q hq hpq.fixed
  exact ⟨r, hr, hpq.trans hqr⟩

/-- A change of one name, under which its fixed property lasts. -/
theorem Keeps.of_named (name : String) (ho : o.Sound)
    (hother : ∀ n, n ≠ name → o'.named? n = o.named? n)
    (hname : ∀ p, o.named? name = some p → p.flags.configurable = false →
      ∃ p', o'.named? name = some p' ∧ p.Lasting p') : o.Keeps o' := by
  intro n p hp hfixed
  by_cases hn : n = name
  · subst hn
    exact hname p hp hfixed
  · exact ⟨p, (hother n hn).trans hp, Property.Lasting.refl (ho.tidy n p hp) hfixed⟩

namespace Sound

/-- Storing a value keeps fixed properties if the one it replaces is writable data. -/
theorem keeps_set (ho : o.Sound) (name : String) (v : Value)
    (h : ∀ p, o.named? name = some p → (∃ v', p.slot = .data v') ∧ p.flags.writable = true) :
    o.Keeps (o.set name v) := by
  apply Keeps.of_named name ho
  · intro n hn
    rw [ho.named?_set, if_neg hn]
  · intro p hp hfixed
    obtain ⟨⟨v', hv'⟩, hw⟩ := h p hp
    rw [ho.named?_set, if_pos rfl, hp]
    refine ⟨_, rfl, hfixed, rfl, ?_, ?_⟩
    · intro getter setter haccessor
      rw [hv'] at haccessor
      cases haccessor
    · intro _ _
      exact ⟨⟨v, rfl⟩, fun _ => hw⟩

theorem keeps_define (ho : o.Sound) (name : String)
    (h : ∀ p, o.named? name = some p → p.flags.configurable = false →
      p.Lasting ⟨name, slot, flags⟩) : o.Keeps (o.define name slot flags) := by
  apply Keeps.of_named name ho
  · intro n hn
    rw [ho.named?_define, if_neg hn]
  · intro p hp hfixed
    exact ⟨_, by rw [ho.named?_define, if_pos rfl], h p hp hfixed⟩

theorem keeps_erase (ho : o.Sound) {p : Property} (hp : o.named? name = some p)
    (hconfigurable : p.flags.configurable = true) : o.Keeps (o.erase name) := by
  apply Keeps.of_named name ho
  · intro n hn
    rw [ho.named?_erase, if_neg hn]
  · intro q hq hfixed
    rw [hp, Option.some.injEq] at hq
    rw [hq, hfixed] at hconfigurable
    cases hconfigurable

end Sound

end Object

/-! ### Fixed properties along a run -/

namespace Engine

variable [Library] {e e' : Engine} {id : ObjectId} {f : Object → Object}

theorem Sound.keeps_modify (he : e.Sound)
    (hf : (e.object id).Sound → (e.object id).Keeps (f (e.object id))) (other : ObjectId) :
    (e.object other).Keeps ((e.modify id f).object other) := by
  by_cases hid : id = other
  · subst hid
    by_cases hsize : id < e.objects.size
    · rw [object_modify_self e f hsize]
      exact hf (he id hsize)
    · intro name p hp
      exact absurd (lt_size_of_named? hp) hsize
  · rw [object_modify_of_ne e f hid]
    exact Object.Keeps.refl (he.tidy other)

/-- A name of the table is an own name, be it as a virtual one. -/
theorem own?_of_named? {o : Object} {name : String} {p : Property}
    (hp : o.named? name = some p) : ∃ q, o.own? name = some q := by
  rw [Object.own?]
  split
  · exact ⟨p, hp⟩
  · split_ifs
    · exact ⟨_, rfl⟩
    · split
      · exact ⟨_, rfl⟩
      · exact ⟨p, hp⟩

theorem delete_fixed {name : String} {p : Property} (hp : (e.object id).named? name = some p)
    (hfixed : p.flags.configurable = false) : e.delete (.object id) name = .ok (false, e) := by
  obtain ⟨q, hq⟩ := own?_of_named? hp
  have hhas : e.has (.object id) name = .ok true := by
    rw [has, Value.toObject]
    change (do return (← e.lookup id name).isSome) = _
    rw [lookup_of_own? hq]
    rfl
  rw [delete_eq]
  dsimp only
  rw [hhas]
  change (if ¬ true = true ∨ (e.object id).isVirtual name = true then _ else _) = _
  split_ifs
  · rfl
  · rw [hp]
    dsimp only
    rw [hfixed]
    rfl

theorem Sound.keeps_made (he : e.Sound) {os : List Object}
    (h : e'.objects = e.objects ++ os.toArray) (id : ObjectId) :
    (e.object id).Keeps (e'.object id) := by
  by_cases hold : id < e.objects.size
  · have hsame : e'.object id = e.object id := by
      rw [object, h, Array.getElem?_append_left hold, object]
    rw [hsame]
    exact Object.Keeps.refl (he.tidy id)
  · intro name p hp
    exact absurd (lt_size_of_named? hp) hold

theorem Change.keeps (he : e.Sound) (h : Change e e') (id : ObjectId) :
    (e.object id).Keeps (e'.object id) := by
  cases h with
  | none h =>
    have hsame : e'.object id = e.object id := by rw [object, h, object]
    rw [hsame]
    exact Object.Keeps.refl (he.tidy id)
  | made os h hos => exact he.keeps_made h id
  | elements id' elements _ =>
    exact he.keeps_modify (fun ho => Object.Keeps.refl ho.tidy) id
  | stored id' name v hvirtual hmet =>
    refine he.keeps_modify (fun ho => ho.keeps_set name v ?_) id
    intro p hp
    have hown := lookup_of_own? ((Object.own?_eq_named? hvirtual).trans hp)
    obtain hnone | ⟨key, current, flags, hsome, hw⟩ := hmet
    · rw [hown] at hnone
      cases hnone
    · rw [hown] at hsome
      cases hsome
      exact ⟨⟨current, rfl⟩, hw⟩
  | defined id' name d _ _ hnone =>
    refine he.keeps_modify (fun ho => ho.keeps_define name ?_) id
    intro p hp
    rw [hnone] at hp
    cases hp
  | merged id' name d p hd _ hp hadmitted =>
    refine he.keeps_modify (fun ho => ho.keeps_define name ?_) id
    intro q hq hfixed
    obtain rfl : p = q := Option.some.inj (hp.symm.trans hq)
    have hagreed := hadmitted.resolve_left (Bool.eq_false_iff.mp hfixed)
    exact lasting_merge (he.tidy id' name p hp) hfixed hd hagreed name
  | erased id' name p hp hconfigurable =>
    exact he.keeps_modify (fun ho => ho.keeps_erase hp hconfigurable) id

/-- Every effect of a step keeps the properties that are not configurable. -/
theorem Effect.keeps (he : e.Sound) (h : Effect e e') (id : ObjectId) :
    (e.object id).Keeps (e'.object id) := by
  cases h with
  | change h => exact h.keeps he id
  | derived proto h =>
    rw [Array.push_eq_append] at h
    exact he.keeps_made h id
  | relinked id' proto _ =>
    exact he.keeps_modify (fun ho => Object.Keeps.refl ho.tidy) id

theorem Steps.keeps (h : Steps e e') (he : e.Sound) (id : ObjectId) :
    (e.object id).Keeps (e'.object id) := by
  induction h with
  | refl => exact Object.Keeps.refl (he.tidy id)
  | tail hrest hstep ih =>
    have hsound := Steps.sound hrest he
    exact ih.trans (hstep.effect.keeps hsound id)

end Engine

variable {H : Type} {host : Host H}

/-- **Properties that are not configurable are permanent.** In every reachable engine, and
whatever requests are then carried out with functions that act on the engine by its
operations only, such a property of an object's table stays and keeps what must
remain of it, and deleting it is answered no. -/
theorem fixed_property_lasts [Library] [Memory] (hhost : host.Conforms) {w : World H}
    (hw : w.engine.Reachable) {id : ObjectId} {name : String} {p : Property}
    (hp : (w.engine.object id).named? name = some p) (hfixed : p.flags.configurable = false)
    (rs : List Request) :
    let e := (Request.runAll host rs w).engine
    (∃ p', (e.object id).named? name = some p' ∧ p.Lasting p') ∧
      e.delete (.object id) name = .ok (false, e) := by
  intro e
  have hsteps : Engine.Steps w.engine e := Request.runAll_steps hhost rs w
  obtain ⟨p', hp', hlasting⟩ := hsteps.keeps hw.sound id name p hp hfixed
  exact ⟨⟨p', hp', hlasting⟩, Engine.delete_fixed hp' hlasting.fixed⟩

/-- A host whose functions store a property of their receiver. -/
def Host.storing : Host H where
  native _ this _ := do
    Operation.setProperty Host.idle this "stored" this
    return this
  dispatch _ _ this _ := pure this

theorem Host.storing_conforms : (Host.storing : Host H).Conforms where
  native _ this _ :=
    (Operation.conforms_setProperty Host.idle_conforms this "stored" this).bind fun _ =>
      Operation.conforms_pure this
  dispatch _ _ this _ := Operation.conforms_pure this

/-- A function and an object. -/
def Engine.unsealed : Engine :=
  (((Engine.new Config.standard).createNative "store").2.create (.ofClass .plain)).2

/-- The object with an accessor that runs the function and is not configurable. -/
def Engine.sealed : Engine :=
  Engine.unsealed.modify 1 (·.define "x" (.accessor (some (.object 0)) none) Flags.none)

theorem Engine.sealed_reachable : Engine.sealed.Reachable := by
  have hmade : Engine.Steps (Engine.new Config.standard) Engine.unsealed :=
    (Engine.Step.createNative "store").steps.trans Engine.Step.newObject.steps
  have hdefined : Engine.unsealed.defineOwn 1 "x"
      { (default : Descriptor) with getter := some (.object 0) } = .ok Engine.sealed := rfl
  exact ⟨Config.standard, hmade.trans (Engine.Step.define hdefined).steps⟩

/-- The accessor outlives its own getter, a deletion and an assignment. -/
theorem fixed_property_lasts_accessor :
    let p : Property := ⟨"x", .accessor (some (.object 0)) none, Flags.none⟩
    let b : Box := ⟨3, .object 1⟩
    let e := (Request.runAll Host.storing
      [.getProperty b "x", .deleteProperty b "x", .setProperty b "x" b]
      ⟨Engine.sealed, Store.empty, ()⟩).engine
    (∃ p', (e.object 1).named? "x" = some p' ∧ p.Lasting p') ∧
      e.delete (.object 1) "x" = .ok (false, e) := by
  intro p b e
  have hp : (Engine.sealed.object 1).named? "x" = some p := by
    have hdefined := (Object.sound_ofClass .plain none).named?_define "x"
      (.accessor (some (.object 0)) none) Flags.none "x"
    rw [if_pos rfl] at hdefined
    exact hdefined
  exact fixed_property_lasts (w := ⟨Engine.sealed, Store.empty, ()⟩) Host.storing_conforms
    Engine.sealed_reachable hp rfl _

end ValueEngine
