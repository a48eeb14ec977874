import ValueEngine.Proofs.Engine.ArrayAssignment

/-! Defining the elements of an array by descriptors. Of a descriptor that is not one of an accessor
only the value is used, which is stored as if it were assigned; the flags that it states are
dropped, and without a value nothing happens, whether or not there is such an element. A
definition that succeeds keeps its promise therefore only if all flags that are stated are the
ones that every element has, and there is a value to store or an element already. -/

namespace ValueEngine

open Number (arrayIndex?)

namespace Descriptor

/-- The flags are those that the descriptor states, as far as it states any. -/
structure AgreesWith (d : Descriptor) (flags : Flags) : Prop where
  writable : ∀ b, d.writable = some b → flags.writable = b
  enumerable : ∀ b, d.enumerable = some b → flags.enumerable = b
  configurable : ∀ b, d.configurable = some b → flags.configurable = b

/-- The property that a definition by the descriptor promises, where there has been an element of
this value or none. -/
structure Promises (d : Descriptor) (former : Option Value) (p : Property) : Prop where
  slot : p.slot = .data (d.value.getD (former.getD .undefined))
  flags : d.AgreesWith p.flags

/-- An element is what a descriptor promises if it has the value, and the flags are those of every
element. -/
theorem promises_element {d : Descriptor} {former : Option Value} {name : String} {v : Value} :
    (∃ p, some (⟨name, .data v, Flags.all⟩ : Property) = some p ∧ d.Promises former p) ↔
      v = d.value.getD (former.getD .undefined) ∧ d.AgreesWith Flags.all := by
  constructor
  · rintro ⟨p, hp, hslot, hflags⟩
    cases hp
    exact ⟨Slot.data.inj hslot, hflags⟩
  · rintro ⟨rfl, hflags⟩
    exact ⟨_, rfl, rfl, hflags⟩

theorem isAccessor_eq_false {d : Descriptor} (h : d.isAccessor = false) :
    d.getter = none ∧ d.setter = none := by
  simpa [isAccessor] using h

end Descriptor

namespace Engine

variable {e e' : Engine} {id : ObjectId} {a b : Array Value} {i : ℕ} {name : String}
variable {d : Descriptor} {v : Value}

theorem Rewritten.elements? (h : e.Rewritten id b e') : (e'.object id).elements? = some b := by
  rw [h.array]
  rfl

variable [Library]

theorem defineOwn_accessor (hvirtual : (e.object id).isVirtual name = true)
    (hd : d.isAccessor = true) : ∃ f, e.defineOwn id name d = .error f := by
  rw [defineOwn_eq]
  cases e.checkDescriptor d with
  | error f => exact ⟨f, rfl⟩
  | ok _ => exact ⟨.accessorOnElement, by simp [hvirtual, defineVirtual, hd, bind, Except.bind]⟩

/-- A descriptor that is not one of an accessor comes to assigning the value, if it states one. -/
theorem defineOwn_element (ha : (e.object id).elements? = some a)
    (hname : arrayIndex? name = some i) (hd : d.isAccessor = false) : e.defineOwn id name d =
      match d.value with
      | some v => e.assignIndex id a i v
      | none => .ok e := by
  obtain ⟨hgetter, hsetter⟩ := Descriptor.isAccessor_eq_false hd
  have hcheck : e.checkDescriptor d = .ok () := by
    simp [checkDescriptor, hd, hgetter, hsetter]
  rw [defineOwn_eq, hcheck, isVirtual_of_arrayIndex? ha hname, if_pos rfl]
  change e.defineVirtual id name d = _
  rw [defineVirtual, hd, if_neg Bool.false_ne_true]
  cases d.value with
  | none => rfl
  | some v =>
    dsimp only
    rw [assignVirtual?_index ha hname, Option.getD_some]

/-- A descriptor without a value promises nothing but the flags of the element that has been
there. -/
theorem promises_own? (ho : (e.object id).Sound) (ha : (e.object id).elements? = some a)
    (hname : arrayIndex? name = some i) (hv : d.value = none) :
    (∃ p, (e.object id).own? name = some p ∧ d.Promises a[i]? p) ↔
      d.AgreesWith Flags.all ∧ i < a.size := by
  cases hx : a[i]? with
  | some x =>
    have hi : i < a.size := (Array.getElem?_eq_some_iff.mp hx).1
    rw [own?_index ha hname hx, Descriptor.promises_element, hv]
    simp [hi]
  | none =>
    have hi : ¬i < a.size := Nat.not_lt.mpr (Array.getElem?_eq_none_iff.mp hx)
    rw [own?_index_none ho ha hname hx]
    simp [hi]

end Engine

variable {H : Type} {host : Host H} {w t : World H} {receiver desc : Box} {id : ObjectId}
variable {a : Array Value} {i : ℕ} {name : String} {d : Descriptor}

open Operation (readDescriptor)
open Request (run)

namespace Request

variable [Library]

theorem outcome_defineElement {v : Box} (hr : receiver.value = .object id)
    (hdesc : desc.value.object?.isSome)
    (hread : (readDescriptor host desc).outcome w = (.ok d, t))
    (ha : (t.engine.object id).elements? = some a) (hname : arrayIndex? name = some i)
    (hd : d.isAccessor = false) (hv : d.value = some v.value) :
    (run host (.defineProperty receiver name desc)).outcome w =
      (run host (.setElement receiver i v)).outcome t := by
  have hassign : t.engine.defineOwn id name d = t.engine.assignIndex id a i v.value := by
    rw [Engine.defineOwn_element ha hname hd, hv]
  rw [run, outcome_defineProperty hr hdesc hread, hassign]
  exact (outcome_setElement hr ha).symm

/-- How the definition of an element comes out: refused, without an effect since no value is stated,
or with the value stored. -/
theorem defineElement_cases (host : Host H) (hr : receiver.value = .object id)
    (hdesc : desc.value.object?.isSome)
    (hread : (readDescriptor host desc).outcome w = (.ok d, t))
    (ha : (t.engine.object id).elements? = some a) (hname : arrayIndex? name = some i) :
    let limit := t.engine.config.lengthLimit
    let result := (run host (.defineProperty receiver name desc)).outcome w
    (¬(d.isAccessor = false ∧ (d.value.isSome → i < limit)) ∧ ∃ f, result = (.error f, t)) ∨
      (d.isAccessor = false ∧ d.value = none ∧ result = (.ok (), t)) ∨
      (d.isAccessor = false ∧ i < limit ∧
        ∃ v, d.value = some v ∧ t.Rewrote id (Elements.stored a i v) result) := by
  intro limit result
  have hresult : result = _ := outcome_defineProperty hr hdesc hread
  by_cases hd : d.isAccessor = true
  · obtain ⟨f, hf⟩ := Engine.defineOwn_accessor (Engine.isVirtual_of_arrayIndex? ha hname) hd
    rw [hf] at hresult
    exact .inl ⟨fun h => Bool.false_ne_true (h.1.symm.trans hd), f, hresult⟩
  rw [Bool.not_eq_true] at hd
  cases hv : d.value with
  | none =>
    rw [Engine.defineOwn_element ha hname hd, hv] at hresult
    exact .inr (.inl ⟨hd, rfl, hresult⟩)
  | some v =>
    have hstore : result = (run host (.setElement receiver i ⟨0, v⟩)).outcome t :=
      outcome_defineElement hr hdesc hread ha hname hd hv
    rw [hstore]
    by_cases hi : i < limit
    · exact .inr (.inr ⟨hd, hi, v, rfl, rewrote_setElement hr ha hi⟩)
    · obtain ⟨f, -, hf⟩ :
          t.Refused .exception ((run host (.setElement receiver i ⟨0, v⟩)).outcome t) :=
        refused_setElement hr ha (Nat.not_lt.mp hi)
      exact .inl ⟨fun h => hi (h.2 rfl), f, hf⟩

end Request

/-- **Elements are defined by the value alone.** In every reachable engine, the definition of an
element of an array by a descriptor that can be read fails exactly if the descriptor is one of an
accessor, or states a value for an index that is not below the length limit; then nothing
changes. If it succeeds, then the value that is stated is stored, and nothing at all changes
where none is stated. So what the descriptor promises then holds exactly if the flags that it
states are those of every element, and it states a value or the element has been there. -/
theorem element_definition_law [Library] (hhost : host.Conforms) (hw : w.engine.Reachable)
    (hr : receiver.value = .object id) (hdesc : desc.value.object?.isSome)
    (hread : (readDescriptor host desc).outcome w = (.ok d, t))
    (ha : (t.engine.object id).elements? = some a) (hname : arrayIndex? name = some i) :
    let limit := t.engine.config.lengthLimit
    let result := (run host (.defineProperty receiver name desc)).outcome w
    let property := (result.2.engine.object id).own? name
    (result.1 = .ok () ↔ d.isAccessor = false ∧ (d.value.isSome → i < limit)) ∧
      (result.1 ≠ .ok () → result.2 = t) ∧
      (result.1 = .ok () → d.value = none → result.2 = t) ∧
      (result.1 = .ok () → ∀ v, d.value = some v →
        t.Rewrote id (Elements.stored a i v) result ∧
          property = some ⟨name, .data v, Flags.all⟩) ∧
      (result.1 = .ok () → ((∃ p, property = some p ∧ d.Promises a[i]? p) ↔
        d.AgreesWith Flags.all ∧ (d.value.isSome ∨ i < a.size))) := by
  intro limit result property
  have hsound : (t.engine.object id).Sound := by
    have hsteps := Operation.steps_readDescriptor hhost desc w
    rw [hread] at hsteps
    exact (hw.steps hsteps).sound id (Engine.lt_size_of_elements? ha)
  obtain ⟨hunfit, f, hf⟩ | ⟨hd, hv, hsame⟩ | ⟨hd, hi, v, hv, e, hstored, hrewritten⟩ :=
    Request.defineElement_cases host hr hdesc hread ha hname
  · have hfailed : result.1 ≠ .ok () := by
      rw [show result = _ from hf]
      nofun
    exact ⟨iff_of_false hfailed hunfit, fun _ => congrArg Prod.snd hf, fun h => absurd h hfailed,
      fun h => absurd h hfailed, fun h => absurd h hfailed⟩
  · have hdone : result.1 = .ok () := congrArg Prod.fst hsame
    have hworld : result.2 = t := congrArg Prod.snd hsame
    have hproperty : property = (t.engine.object id).own? name := by
      simp only [property, hworld]
    refine ⟨iff_of_true hdone ⟨hd, fun h => ?_⟩, fun h => absurd hdone h, fun _ _ => hworld,
      fun _ v h => ?_, fun _ => ?_⟩
    · rw [hv] at h
      cases h
    · rw [hv] at h
      cases h
    · rw [hproperty, Engine.promises_own? hsound ha hname hv, hv]
      simp
  · have hdone : result.1 = .ok () := congrArg Prod.fst hstored
    have hproperty : property = some ⟨name, .data v, Flags.all⟩ := by
      simp only [property, show result = _ from hstored]
      exact Engine.own?_index hrewritten.elements? hname (Elements.getElem?_stored_self a i v)
    refine ⟨iff_of_true hdone ⟨hd, fun _ => hi⟩, fun h => absurd hdone h, fun _ h => ?_,
      fun _ u hu => ?_, fun _ => ?_⟩
    · rw [hv] at h
      cases h
    · cases hv.symm.trans hu
      exact ⟨⟨e, hstored, hrewritten⟩, hproperty⟩
    · rw [hproperty, Descriptor.promises_element, hv]
      simp

/-- An array of one element, a descriptor object that states true and that the property is
read-only, and an empty one. -/
def World.described : World Unit :=
  Request.runAll Host.idle [.parse "[null]", .newObject, .newObject,
    .setProperty ⟨3, .object 1⟩ "value" ⟨5, .bool true⟩,
    .setProperty ⟨3, .object 1⟩ "writable" ⟨6, .bool false⟩]
    ⟨Engine.new .standard, Store.empty, ()⟩

theorem World.described_reachable : described.engine.Reachable :=
  Request.runAll_reachable .standard _

/-- The value is stored, and the promise of a read-only property is not kept. -/
theorem element_definition_law_described :
    let w := World.described
    let d : Descriptor := ⟨some (.bool true), some false, none, none, none, none⟩
    let result := (run Host.idle (.defineProperty ⟨2, .object 0⟩ "0" ⟨3, .object 1⟩)).outcome w
    let property := (result.2.engine.object 0).own? "0"
    ((readDescriptor Host.idle ⟨3, .object 1⟩).outcome w).1 = .ok d ∧ result.1 = .ok () ∧
      property = some ⟨"0", .data (.bool true), Flags.all⟩ ∧
      ¬∃ p, property = some p ∧ d.Promises (some .null) p := by
  intro w d result property
  let t := ((readDescriptor Host.idle ⟨3, .object 1⟩).outcome w).2
  have hd : ((readDescriptor Host.idle ⟨3, .object 1⟩).outcome w).1 = .ok d := by decide +kernel
  have ha : (t.engine.object 0).elements? = some #[.null] := by decide +kernel
  have hreceiver : Box.value ⟨2, .object 0⟩ = .object 0 := rfl
  have hname : arrayIndex? "0" = some 0 := by decide
  have hlimit : 0 < t.engine.config.lengthLimit := by decide +kernel
  obtain ⟨hiff, -, -, hstored, hpromise⟩ := element_definition_law (t := t)
    Host.idle_conforms World.described_reachable hreceiver rfl (Prod.ext hd rfl) ha hname
  have hdone := hiff.mpr ⟨rfl, fun _ => hlimit⟩
  refine ⟨hd, hdone, (hstored hdone _ rfl).2, fun h => ?_⟩
  -- Every element is writable.
  have hagrees := ((hpromise hdone).mp h).1
  cases hagrees.writable false rfl

/-- An element that is defined as read-only is assigned another value, and an element behind the
array is not there although it has been defined. -/
theorem element_descriptor_dropped :
    let w := World.described
    let array : Box := ⟨2, .object 0⟩
    let defined := (run Host.idle (.defineProperty array "0" ⟨3, .object 1⟩)).outcome w
    let assigned := (run Host.idle (.setProperty array "0" ⟨7, .bool false⟩)).outcome defined.2
    let behind := (run Host.idle (.defineProperty array "5" ⟨4, .object 2⟩)).outcome w
    w.engine.Reachable ∧
      ((readDescriptor Host.idle ⟨3, .object 1⟩).outcome w).1 =
        .ok ⟨some (.bool true), some false, none, none, none, none⟩ ∧
      defined.1 = .ok () ∧
      (defined.2.engine.object 0).own? "0" = some ⟨"0", .data (.bool true), Flags.all⟩ ∧
      assigned.1 = .ok () ∧
      (assigned.2.engine.object 0).own? "0" = some ⟨"0", .data (.bool false), Flags.all⟩ ∧
      ((readDescriptor Host.idle ⟨4, .object 2⟩).outcome w).1 =
        .ok ⟨none, none, none, none, none, none⟩ ∧
      behind.1 = .ok () ∧ (behind.2.engine.object 0).own? "5" = none := by
  intro w array defined assigned behind
  exact ⟨World.described_reachable, by decide +kernel, by decide +kernel, by decide +kernel,
    by decide +kernel, by decide +kernel, by decide +kernel, by decide +kernel, by decide +kernel⟩

end ValueEngine
