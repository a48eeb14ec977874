import ValueEngine.Proofs.Engine.Comparison
import ValueEngine.Proofs.Engine.Search

/-! Recognising references. The kind and the handle of a value are the numbers that its chain
shows under the two hidden names, so what inherits from a reference passes for what the
reference stands for, unless something nearer has one of the names. Whether a value can be called
does not depend on them: it is settled when the object is made. -/

namespace ValueEngine

theorem Object.callable?_of_array {o : Object} (h : o.elements?.isSome) : o.callable? = none := by
  cases hpayload : o.payload with
  | function f => simp [elements?, hpayload] at h
  | _ => simp [callable?, hpayload]

theorem ExternalKind.tag_injective : Function.Injective ExternalKind.tag := by
  intro kind kind' h
  cases kind <;> cases kind' <;> first | rfl | cases h

namespace Engine

variable [Library] {e e' : Engine} {id last : ObjectId} {name : String} {n : ℕ} {v : Value}
variable {x y : Float}
  {kind : ExternalKind} {handle environment : UInt64}

section Chains

/-- The nearest property of a name on the chain of a value, within the bound on the links,
holds a number. -/
def Shows (e : Engine) (v : Value) (name : String) (x : Float) : Prop :=
  ∃ id n last p, v = .object id ∧ n ≤ e.config.maxPrototypeDepth ∧ e.Passes name n id last ∧
    (e.object last).own? name = some p ∧ p.slot = .data (.number x)

/-- The chain of a value comes to an object, within the bound on the links, past objects
that have neither of the hidden properties. -/
def Uncovers (e : Engine) (v : Value) (target : ObjectId) : Prop :=
  ∃ id n, v = .object id ∧ n ≤ e.config.maxPrototypeDepth ∧ e.Passes kindName n id target ∧
    e.Passes handleName n id target

theorem Shows.object (h : e.Shows v name x) : ∃ id, v = .object id := by
  obtain ⟨id, -, -, -, hid, -⟩ := h
  exact ⟨id, hid⟩

theorem shows_object_iff : e.Shows (.object id) name x ↔ e.hiddenNumber? id name = some x := by
  rw [hiddenNumber?]
  constructor
  · rintro ⟨_, n, last, p, ⟨⟩, hn, hpasses, hp, hslot⟩
    have hfound : e.lookup id name = .ok (some p) :=
      lookupWithin_eq_some_iff.mpr ⟨n, last, hn, hpasses, hp⟩
    simp [hfound, hslot, Slot.value?, Value.number?]
  · intro h
    cases hfound : e.lookup id name with
    | error f => simp [hfound] at h
    | ok found =>
      cases found with
      | none => simp [hfound] at h
      | some p =>
        obtain ⟨n, last, hn, hpasses, hp⟩ := lookupWithin_eq_some_iff.mp hfound
        refine ⟨id, n, last, p, rfl, hn, hpasses, hp, ?_⟩
        simp only [hfound] at h
        cases hslot : p.slot with
        | accessor getter setter => simp [hslot, Slot.value?] at h
        | data v => cases v <;> simp_all [Slot.value?, Value.number?]

/-- What an object has of its own is met by every chain that comes to it. -/
theorem hiddenNumber?_of_passes (hn : n ≤ e.config.maxPrototypeDepth)
    (h : e.Passes name n id last) {p : Property} (hp : (e.object last).own? name = some p) :
    e.hiddenNumber? id name = e.hiddenNumber? last name := by
  have hfound : e.lookup id name = .ok (some p) :=
    lookupWithin_eq_some_iff.mpr ⟨n, last, hn, h, hp⟩
  rw [hiddenNumber?, hiddenNumber?, hfound, lookup_of_own? hp]

end Chains

section Kinds

theorem externalKind?_eq_some_iff : e.externalKind? id = some kind ↔
    ∃ x, e.Shows (.object id) kindName x ∧
      ExternalKind.ofCode? (Number.toUInt8 x).toNat = some kind := by
  simp only [externalKind?, Option.bind_eq_bind, Option.bind_eq_some_iff, shows_object_iff]

/-- A value is reported as external if the number that its chain shows is the code of a kind. -/
theorem typeOf_eq_kind_iff : e.typeOf v = kind.tag ↔
    ∃ x, e.Shows v kindName x ∧ ExternalKind.ofCode? (Number.toUInt8 x).toNat = some kind := by
  constructor
  · intro h
    cases v with
    | object id =>
      cases hkind : e.externalKind? id with
      | none =>
        have htag : e.typeOf (.object id) = .object := by
          simp [typeOf, Value.object?, hkind, Value.tag]
        rw [htag] at h
        cases kind <;> cases h
      | some other =>
        rw [typeOf_of_externalKind? hkind] at h
        exact externalKind?_eq_some_iff.mp (ExternalKind.tag_injective h ▸ hkind)
    | _ => cases kind <;> cases h
  · rintro ⟨x, hx, hcode⟩
    obtain ⟨id, rfl⟩ := hx.object
    exact typeOf_of_externalKind? (externalKind?_eq_some_iff.mpr ⟨x, hx, hcode⟩)

theorem toExternal_of_typeOf (h : e.typeOf v = kind.tag) (hy : e.Shows v handleName y) :
    e.toExternal v = .ok (kind, Number.toUInt64 y) := by
  obtain ⟨id, rfl⟩ := hy.object
  have hkind := externalKind?_eq_some_iff.mpr (typeOf_eq_kind_iff.mp h)
  simp only [toExternal, hkind, shows_object_iff.mp hy]

/-- What comes to a reference is taken for it. -/
theorem Refers.of_uncovers (he : e.Sound) (href : e.Refers last kind handle environment)
    (h : e.Uncovers v last) :
    e.typeOf v = kind.tag ∧ e.toExternal v = .ok (kind, heldHandle handle) := by
  obtain ⟨id, n, rfl, hn, htagged, hheld⟩ := h
  obtain ⟨p, hp, -⟩ := href.kindHeld.own? (he last href.there)
  obtain ⟨q, hq, -⟩ := href.handleHeld.own? (he last href.there)
  have hkind : e.externalKind? id = some kind := by
    rw [externalKind?, hiddenNumber?_of_passes hn htagged hp]
    exact href.externalKind?_eq he
  have hsame : e.toExternal (.object id) = e.toExternal (.object last) := by
    simp only [toExternal, hkind, href.externalKind?_eq he, hiddenNumber?_of_passes hn hheld hq]
  exact ⟨typeOf_of_externalKind? hkind, hsame.trans (href.toExternal_eq he)⟩

end Kinds

section Calls

theorem Effect.callable?_eq (h : Effect e e') (hid : id < e.objects.size) :
    (e'.object id).callable? = (e.object id).callable? := by
  obtain heq | ⟨harray, harray'⟩ := h.payload_cases hid
  · rw [Object.callable?, heq, Object.callable?]
  · rw [Object.callable?_of_array harray, Object.callable?_of_array harray']

theorem Steps.isFunction_eq (h : Steps e e') (hid : id < e.objects.size) :
    e'.isFunction (.object id) = e.isFunction (.object id) := by
  have hcallable : (e'.object id).callable? = (e.object id).callable? := by
    induction h with
    | refl => rfl
    | tail hrest hstep ih =>
      exact (hstep.effect.callable?_eq (hid.trans_le (Steps.size_le hrest))).trans ih
  simp only [isFunction, callable?, Value.object?, Option.bind_some, hcallable]

end Calls

end Engine

open Engine (Steps)

variable {e e' t : Engine}

/-- A reference, and whatever comes to it, is recognised at every later step. -/
theorem reference_is_recognised [Library] (he : e.Reachable) {tag : TypeTag}
    {handle environment : UInt64}
    {b : Box} (hmade : e.createReference tag handle environment = .ok (b, e'))
    (hsteps : Steps e' t) :
    ∃ id kind, b.value = .object id ∧ kind.tag = tag ∧
      (∀ {v : Value}, t.Uncovers v id →
        t.typeOf v = tag ∧ t.toExternal v = .ok (kind, Engine.heldHandle handle)) ∧
      (tag = .externalFunction → t.isFunction b.value = true) := by
  obtain ⟨kind, htag, hpair⟩ := Engine.createReference_eq_ok hmade
  have href := Engine.refers_createExternal e kind handle environment
  have hb : b.value = .object e.objects.size := congrArg (·.1.value) hpair.symm
  rw [hpair] at href
  have hsound : e'.Sound := (he.steps (Engine.Step.createReference hmade).steps).sound
  have href' := hsteps.refers hsound href
  refine ⟨e.objects.size, kind, hb, htag, ?_, ?_⟩
  · intro v hv
    obtain ⟨htype, hexternal⟩ := href'.of_uncovers (hsteps.sound hsound) hv
    exact ⟨htype.trans htag, hexternal⟩
  · intro hfunction
    have hkind : kind = .function := ExternalKind.tag_injective (htag.trans hfunction)
    subst hkind
    rw [hb, Engine.isFunction, href'.callable?_eq, Option.isSome_some]

/-- **Values reported as external are usable.** In every reachable engine, a value that is reported
as external and whose chain shows a handle is given as a reference of the reported kind to it, and
both hidden numbers are there. A reference and whatever comes to it are reported as and given as
what the reference has been made for, at every later step, and a reference to a function can be
called. No property of an object changes whether it can be called. -/
theorem reported_external_is_usable [Library] (he : e.Reachable) :
    (∀ {v : Value} {kind : ExternalKind} {y : Float}, e.typeOf v = kind.tag →
        e.Shows v Engine.handleName y →
        e.toExternal v = .ok (kind, Number.toUInt64 y) ∧ ∃ x, e.Shows v Engine.kindName x ∧
          ExternalKind.ofCode? (Number.toUInt8 x).toNat = some kind) ∧
      (∀ {tag : TypeTag} {handle environment : UInt64} {b : Box} {e' : Engine},
        e.createReference tag handle environment = .ok (b, e') → ∀ {t : Engine}, Steps e' t →
        ∃ id kind, b.value = .object id ∧ kind.tag = tag ∧
          (∀ {v : Value}, t.Uncovers v id →
            t.typeOf v = tag ∧ t.toExternal v = .ok (kind, Engine.heldHandle handle)) ∧
          (tag = .externalFunction → t.isFunction b.value = true)) ∧
      (∀ {id : ObjectId} {t : Engine}, id < e.objects.size → Steps e t →
        t.isFunction (.object id) = e.isFunction (.object id)) := by
  refine ⟨fun hreported hshown => ?_, fun hmade _ hsteps => ?_, fun hid hsteps => ?_⟩
  · exact ⟨Engine.toExternal_of_typeOf hreported hshown, Engine.typeOf_eq_kind_iff.mp hreported⟩
  · exact reference_is_recognised he hmade hsteps
  · exact hsteps.isFunction_eq hid

/-- An object that inherits from the reference to a function is given as that function. -/
theorem reported_external_is_usable_inherited :
    let made := (Engine.new .standard).createExternal .function 7 9
    let child := made.2.create { Object.ofClass .plain with prototype := some 0 }
    child.2.typeOf child.1.value = .externalFunction ∧
      child.2.toExternal child.1.value = .ok (.function, 7) ∧
      child.2.isFunction made.1.value = true ∧
      child.2.isFunction (.object 0) = made.2.isFunction (.object 0) := by
  intro made child
  have hmade : (Engine.new .standard).createReference .externalFunction 7 9 = .ok made := rfl
  have hchild : made.2.createWithPrototype made.1.value = .ok child := rfl
  have hnew : (Engine.new .standard).Reachable := ⟨.standard, .refl⟩
  have hreachable : made.2.Reachable := hnew.steps (Engine.Step.createReference hmade).steps
  have hsteps : Steps made.2 child.2 := (Engine.Step.createWithPrototype hchild).steps
  obtain ⟨id, kind, hid, hkind, hknown, hcall⟩ :=
    (reported_external_is_usable hnew).2.1 hmade hsteps
  have hcomes : child.2.Uncovers child.1.value id := by
    cases hid
    refine ⟨1, 1, rfl, by decide, .on ?_ rfl (.here 0), .on ?_ rfl (.here 0)⟩ <;> decide +kernel
  have htype : child.2.typeOf child.1.value = ExternalKind.function.tag := (hknown hcomes).1
  have hshown : child.2.Shows child.1.value Engine.handleName (Number.ofNat 7) :=
    Engine.shows_object_iff.mpr (by decide +kernel)
  have hgiven := ((reported_external_is_usable (hreachable.steps hsteps)).1 htype hshown).1
  have hhandle : Number.toUInt64 (Number.ofNat 7) = 7 := by decide
  rw [hhandle] at hgiven
  exact ⟨htype, hgiven, hcall rfl,
    (reported_external_is_usable hreachable).2.2 (by decide) hsteps⟩

/-- What inherits from the reference to a function cannot be called. -/
theorem inherited_function_not_callable :
    let made := (Engine.new .standard).createExternal .function 7 9
    let child := made.2.create { Object.ofClass .plain with prototype := some 0 }
    child.2.Reachable ∧ child.2.typeOf child.1.value = .externalFunction ∧
      child.2.toExternal child.1.value = .ok (.function, 7) ∧
      child.2.isFunction child.1.value = false := by
  intro made child
  have hmade : (Engine.new .standard).createReference .externalFunction 7 9 = .ok made := rfl
  have hchild : made.2.createWithPrototype made.1.value = .ok child := rfl
  have hsteps : Steps (.new .standard) child.2 :=
    (Engine.Step.createReference hmade).steps.tail (.createWithPrototype hchild)
  exact ⟨⟨.standard, hsteps⟩, by decide +kernel, by decide +kernel, rfl⟩

end ValueEngine
