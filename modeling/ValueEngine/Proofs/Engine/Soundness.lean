import ValueEngine.Proofs.Engine.Effects
import ValueEngine.Proofs.Property.Lookup

/-! Sound objects. In a reachable engine every table is lawful, so that looking a name up
after a mutation gives what the mutation says; every accessor is tidy: it is never
writable, and undefined never stands for a function that it lacks; and no table holds
a name that its object answers from its elements. All of it follows from what the
effects of a step can do to an object. -/

namespace ValueEngine

namespace Property

/-- An accessor is not writable, and a half that it lacks is not there at all. -/
def Tidy (p : Property) : Prop :=
  ∀ getter setter, p.slot = .accessor getter setter →
    p.flags.writable = false ∧ getter ≠ some .undefined ∧ setter ≠ some .undefined

theorem tidy_data (key : String) (v : Value) (flags : Flags) : Tidy ⟨key, .data v, flags⟩ := by
  intro getter setter h
  cases h

end Property

/-! ### Tidy properties -/

section Merging

variable {e : Engine} {d : Descriptor} {current : Option Value}

theorem object_of_isFunction {f : Value} (h : e.isFunction f = true) : ∃ id, f = .object id := by
  cases f with
  | object id => exact ⟨id, rfl⟩
  | _ => cases h

/-- A checked descriptor is not of both kinds, and its functions are undefined or objects. -/
theorem checkDescriptor_eq_ok (hd : e.checkDescriptor d = .ok ()) :
    ¬ (d.isAccessor = true ∧ d.isData = true) ∧
      ∀ half ∈ [d.getter, d.setter], ∀ f, half = some f →
        f.isUndefined = true ∨ ∃ id, f = .object id := by
  rw [Engine.checkDescriptor] at hd
  by_cases hmixed : (d.isAccessor && d.isData) = true
  · rw [if_pos hmixed] at hd
    cases hd
  · rw [if_neg hmixed] at hd
    refine ⟨fun h => hmixed (Bool.and_eq_true_iff.mpr h), ?_⟩
    by_cases hall : [d.getter, d.setter].all (·.all fun f => f.isUndefined || e.isFunction f) = true
    · intro half hhalf f hf
      have hstated := List.all_eq_true.mp hall half hhalf
      rw [hf, Option.all_some, Bool.or_eq_true] at hstated
      exact hstated.imp_right object_of_isFunction
    · rw [if_neg hall] at hd
      cases hd

theorem half_ne_undefined (f : Option Value) : Descriptor.half f ≠ some .undefined := by
  cases f with
  | none => exact Option.some_ne_none _ ∘ Eq.symm
  | some f => cases f <;> simp [Descriptor.half, Value.isUndefined]

theorem mergedHalf_ne_undefined (hcurrent : current ≠ some .undefined) (stated : Option Value) :
    Descriptor.mergedHalf stated current ≠ some .undefined := by
  cases stated with
  | none => exact hcurrent
  | some f => exact half_ne_undefined (some f)

theorem tidy_new (hd : e.checkDescriptor d = .ok ()) (key : String) :
    Property.Tidy ⟨key, d.newSlot, d.newFlags⟩ := by
  obtain ⟨hkinds, -⟩ := checkDescriptor_eq_ok hd
  by_cases ha : d.isAccessor = true
  · have hdata : d.writable.isSome = false := by
      cases hw : d.writable.isSome with
      | false => rfl
      | true => exact absurd ⟨ha, by rw [Descriptor.isData, hw, Bool.or_true]⟩ hkinds
    have hwritable : d.newFlags.writable = false := by
      rw [Descriptor.newFlags, Option.not_isSome_iff_eq_none.mp (Bool.eq_false_iff.mp hdata)]
      rfl
    rw [Descriptor.newSlot, if_pos ha]
    rintro getter setter h
    cases h
    exact ⟨hwritable, half_ne_undefined _, half_ne_undefined _⟩
  · rw [Descriptor.newSlot, if_neg ha]
    exact Property.tidy_data key _ _

theorem tidy_merge {p : Property} (htidy : p.Tidy) (d : Descriptor) (key : String) :
    Property.Tidy ⟨key, (d.merge p.slot p.flags).1, (d.merge p.slot p.flags).2⟩ := by
  have hmerged : ∀ getter setter,
      (d.mergedSlot p.slot p.flags.writable).1 = .accessor getter setter →
      (d.mergedSlot p.slot p.flags.writable).2 = false ∧ getter ≠ some .undefined ∧
        setter ≠ some .undefined := by
    intro getter setter h
    rw [Descriptor.mergedSlot.eq_def] at h ⊢
    by_cases ha : d.isAccessor = true
    · rw [if_pos ha] at h ⊢
      cases hslot : p.slot with
      | data v =>
        rw [hslot] at h
        cases h
        exact ⟨rfl, half_ne_undefined _, half_ne_undefined _⟩
      | accessor g s =>
        obtain ⟨-, hg, hs⟩ := htidy g s hslot
        rw [hslot] at h
        cases h
        exact ⟨rfl, mergedHalf_ne_undefined hg _, mergedHalf_ne_undefined hs _⟩
    · rw [if_neg ha] at h ⊢
      by_cases hdata : d.isData = true
      · rw [if_pos hdata] at h
        cases hslot : p.slot <;> rw [hslot] at h <;> cases h
      · rw [if_neg hdata] at h ⊢
        exact htidy getter setter h
  exact hmerged

end Merging

namespace Object

variable [Library] {o : Object} {slot : Slot} {flags : Flags}

/-- What holds of every object of a reachable engine. -/
structure Sound (o : Object) : Prop where
  lawful : o.properties.Lawful Library.hash
  tidy : ∀ name p, o.named? name = some p → p.Tidy
  apart : ∀ name p, o.named? name = some p → o.isVirtual name = false

namespace Sound

theorem named?_of_isVirtual {name : String} (ho : o.Sound) (h : o.isVirtual name = true) :
    o.named? name = none := by
  cases hp : o.named? name with
  | none => rfl
  | some p => cases h.symm.trans (ho.apart name p hp)

theorem named?_set (ho : o.Sound) (name : String) (v : Value) (n : String) :
    (o.set name v).named? n =
      if n = name then some ⟨n, .data v, ((o.named? name).map (·.flags)).getD Flags.all⟩
      else o.named? n :=
  ho.lawful.get?_set name v n

theorem named?_define (ho : o.Sound) (name : String) (slot : Slot) (flags : Flags) (n : String) :
    (o.define name slot flags).named? n = if n = name then some ⟨n, slot, flags⟩ else o.named? n :=
  ho.lawful.get?_define name slot flags n

theorem named?_erase (ho : o.Sound) (name n : String) :
    (o.erase name).named? n = if n = name then none else o.named? n :=
  ho.lawful.get?_erase name n

theorem set (ho : o.Sound) {name : String} (h : o.isVirtual name = false) (v : Value) :
    (o.set name v).Sound where
  lawful := ho.lawful.perform (.set name v)
  tidy n p hp := by
    rw [ho.named?_set] at hp
    split_ifs at hp with hn
    · cases hp
      exact Property.tidy_data n v _
    · exact ho.tidy n p hp
  apart n p hp := by
    rw [ho.named?_set] at hp
    split_ifs at hp with hn
    · rw [hn]
      exact h
    · exact ho.apart n p hp

theorem define (ho : o.Sound) {name : String} (hvirtual : o.isVirtual name = false)
    (h : Property.Tidy ⟨name, slot, flags⟩) : (o.define name slot flags).Sound where
  lawful := ho.lawful.perform (.define name slot flags)
  tidy n p hp := by
    rw [ho.named?_define] at hp
    split_ifs at hp with hn
    · cases hp
      exact h
    · exact ho.tidy n p hp
  apart n p hp := by
    rw [ho.named?_define] at hp
    split_ifs at hp with hn
    · rw [hn]
      exact hvirtual
    · exact ho.apart n p hp

theorem erase (ho : o.Sound) (name : String) : (o.erase name).Sound where
  lawful := ho.lawful.perform (.erase name)
  tidy n p hp := by
    rw [ho.named?_erase] at hp
    split_ifs at hp with hn
    exact ho.tidy n p hp
  apart n p hp := by
    rw [ho.named?_erase] at hp
    split_ifs at hp with hn
    exact ho.apart n p hp

/-- The elements of an array are no concern of its table. -/
theorem withElements (ho : o.Sound) (h : o.elements?.isSome) (elements : Array Value) :
    (o.withElements elements).Sound where
  lawful := ho.lawful
  tidy := ho.tidy
  apart n p hp := by
    have hvirtual : o.isVirtual n = false := ho.apart n p hp
    rw [isVirtual, h] at hvirtual
    exact hvirtual

theorem withPrototype (ho : o.Sound) (proto : Option ObjectId) :
    Sound { o with prototype := proto } :=
  ⟨ho.lawful, ho.tidy, ho.apart⟩

end Sound

theorem sound_ofClass (c : ObjectClass) (proto : Option ObjectId) :
    Sound { ofClass c with prototype := proto } where
  lawful := Property.Table.Lawful.withCapacity Library.hash 0
  tidy name p hp := by cases hp
  apart name p hp := by cases hp

omit [Library] in
theorem isVirtual_eq_false_of_elements? (h : o.elements? = none) (name : String) :
    o.isVirtual name = false := by
  rw [isVirtual, h]
  rfl

theorem Fresh.sound (h : o.Fresh) : o.Sound := by
  induction h with
  | ofClass c => exact sound_ofClass c none
  | set _ hplain name v ih => exact ih.set (isVirtual_eq_false_of_elements? hplain name) v
  | define _ hplain name v flags ih =>
    exact ih.define (isVirtual_eq_false_of_elements? hplain name)
      (Property.tidy_data name v flags)

end Object

/-! ### Sound engines -/

namespace Engine

variable [Library] {e e' : Engine} {id : ObjectId} {f : Object → Object}

/-- All objects of an engine are sound. -/
def Sound (e : Engine) : Prop := ∀ id, id < e.objects.size → (e.object id).Sound

/-- An object that is not there has no properties. -/
theorem lt_size_of_named? {name : String} {p : Property}
    (hp : (e.object id).named? name = some p) : id < e.objects.size := by
  by_contra hid
  rw [object, Array.getElem?_eq_none (Nat.not_lt.mp hid)] at hp
  cases hp

theorem Sound.tidy (he : e.Sound) (id : ObjectId) (name : String) (p : Property)
    (hp : (e.object id).named? name = some p) : p.Tidy :=
  (he id (lt_size_of_named? hp)).tidy name p hp

theorem Sound.modify (he : e.Sound) (hf : (e.object id).Sound → (f (e.object id)).Sound) :
    (e.modify id f).Sound := by
  intro other hother
  have hsize : other < e.objects.size := by simpa [Engine.modify] using hother
  by_cases hid : id = other
  · subst hid
    rw [object_modify_self e f hsize]
    exact hf (he id hsize)
  · rw [object_modify_of_ne e f hid]
    exact he other hsize

theorem Sound.made (he : e.Sound) {os : List Object} (h : e'.objects = e.objects ++ os.toArray)
    (hos : ∀ o ∈ os, o.Sound) : e'.Sound := by
  intro id hid
  by_cases hold : id < e.objects.size
  · rw [object, h, Array.getElem?_append_left hold]
    exact he id hold
  · rw [object, h, Array.getElem?_append_right (Nat.not_lt.mp hold)]
    rw [h, Array.size_append] at hid
    have hnew : id - e.objects.size < os.toArray.size := by omega
    rw [Array.getElem?_eq_getElem hnew]
    exact hos _ (by simp)

theorem Change.sound (he : e.Sound) (h : Change e e') : e'.Sound := by
  cases h with
  | none h =>
    intro id hid
    rw [object, h]
    rw [h] at hid
    exact he id hid
  | made os h hos => exact he.made h fun o ho => (hos o ho).sound
  | elements id elements harray => exact he.modify fun ho => ho.withElements harray elements
  | stored id name v hvirtual _ => exact he.modify fun ho => ho.set hvirtual v
  | defined id name d hd hvirtual _ =>
    exact he.modify fun ho => ho.define hvirtual (tidy_new hd name)
  | merged id name d p _ hvirtual h _ =>
    exact he.modify fun ho => ho.define hvirtual (tidy_merge (ho.tidy name p h) d name)
  | erased id name p _ _ => exact he.modify fun ho => ho.erase name

theorem Effect.sound (he : e.Sound) (h : Effect e e') : e'.Sound := by
  cases h with
  | change h => exact h.sound he
  | derived proto h =>
    rw [Array.push_eq_append] at h
    refine he.made h ?_
    intro o ho
    rw [List.mem_singleton.mp ho]
    exact Object.sound_ofClass .plain proto
  | relinked id proto _ => exact he.modify fun ho => ho.withPrototype proto

theorem Steps.sound (h : Steps e e') (he : e.Sound) : e'.Sound := by
  induction h with
  | refl => exact he
  | tail _ hstep ih => exact hstep.effect.sound ih

theorem Reachable.sound (he : e.Reachable) : e.Sound := by
  obtain ⟨config, h⟩ := he
  exact Steps.sound h fun id hid => absurd hid (Nat.not_lt_zero id)

end Engine

end ValueEngine
