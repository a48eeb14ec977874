import ValueEngine.Proofs.Engine.Atomicity
import ValueEngine.Proofs.Engine.Permanence

/-! The law of definition. What a descriptor makes of a property is said part by part: a part
that is stated is taken, one that is left open stays as it is, or has its default if there
is no such property or it changes its kind. A definition succeeds exactly if the
descriptor is of one kind, states functions only, and wants nothing that a property
which is not configurable refuses; nothing but the property changes then, and a
definition that fails changes nothing. -/

namespace ValueEngine

/-- What a property holds besides its key and the flags that all properties have. -/
inductive Content
  | data (value : Value) (writable : Bool)
  | accessor (getter setter : Option Value)

/-- The property of a content; an accessor is not writable. -/
def Content.property (name : String) (enumerable configurable : Bool) : Content → Property
  | data v writable => ⟨name, .data v, ⟨writable, enumerable, configurable⟩⟩
  | accessor getter setter => ⟨name, .accessor getter setter, ⟨false, enumerable, configurable⟩⟩

def Property.content (p : Property) : Content :=
  match p.slot with
  | .data v => .data v p.flags.writable
  | .accessor getter setter => .accessor getter setter

deriving instance DecidableEq for Descriptor

/-! ### What a descriptor makes of a property -/

namespace Descriptor

/-- The accessor function that a stated value gives; undefined gives none. -/
def given (f : Value) : Option Value := if f = .undefined then none else some f

/-- What the stated parts are put into: what is there if the kind is kept, else the defaults. -/
def base (d : Descriptor) : Option Content → Content
  | some (.data v writable) =>
    if d.isAccessor then .accessor none none else .data v writable
  | some (.accessor getter setter) =>
    if d.isData then .data .undefined false else .accessor getter setter
  | none => if d.isAccessor then .accessor none none else .data .undefined false

def state (d : Descriptor) : Content → Content
  | .data v writable => .data (d.value.getD v) (d.writable.getD writable)
  | .accessor getter setter =>
    .accessor ((d.getter.map given).getD getter) ((d.setter.map given).getD setter)

/-- The property that a descriptor makes of the current one. -/
def applied (d : Descriptor) (name : String) (current : Option Property) : Property :=
  (d.state (d.base (current.map (·.content)))).property name
    (d.enumerable.getD (current.elim false (·.flags.enumerable)))
    (d.configurable.getD (current.elim false (·.flags.configurable)))

/-- The descriptor wants nothing that a property which is not configurable refuses. -/
structure Compatible (d : Descriptor) (p : Property) : Prop where
  configurable : d.configurable ≠ some true
  enumerable : ∀ b, d.enumerable = some b → b = p.flags.enumerable
  data : ∀ v, p.slot = .data v → d.isAccessor = false ∧
    (p.flags.writable = false →
      d.writable ≠ some true ∧ ∀ x, d.value = some x → x.sameOrBothNaN v = true)
  accessor : ∀ getter setter, p.slot = .accessor getter setter → d.isData = false ∧
    (∀ f, d.getter = some f → given f = getter) ∧ (∀ f, d.setter = some f → given f = setter)

/-- The descriptor can be applied to the current property. -/
structure Admissible (e : Engine) (current : Option Property) (d : Descriptor) : Prop where
  unmixed : ¬ (d.isAccessor = true ∧ d.isData = true)
  functions : ∀ f, d.getter = some f ∨ d.setter = some f → f = .undefined ∨ e.isFunction f = true
  compatible : ∀ p, current = some p → p.flags.configurable = true ∨ d.Compatible p

variable {e : Engine} {d : Descriptor} {p : Property} {stated current : Option Value} {f : Value}

theorem half_some (f : Value) : half (some f) = given f := by
  cases f <;> rfl

theorem half_eq (stated : Option Value) : half stated = (stated.map given).getD none := by
  cases stated with
  | none => rfl
  | some f => exact half_some f

theorem mergedHalf_eq_getD (stated current : Option Value) :
    mergedHalf stated current = (stated.map given).getD current := by
  cases stated with
  | none => rfl
  | some f => exact half_some f

theorem isUndefined_iff : f.isUndefined = true ↔ f = .undefined := by
  cases f <;> simp [Value.isUndefined]

/-- A function is the same as the current half, or undefined where there is none. -/
theorem sameHalf_iff (hf : f = .undefined ∨ ∃ id, f = .object id)
    (hcurrent : current ≠ some .undefined) :
    sameHalf (some f) current = true ↔ given f = current := by
  rw [sameHalf, half_eq_self hcurrent]
  obtain rfl | ⟨id, rfl⟩ := hf
  · cases current with
    | none => exact ⟨fun _ => rfl, fun _ => rfl⟩
    | some g => constructor <;> rintro ⟨⟩
  · cases current with
    | none => constructor <;> rintro ⟨⟩
    | some g =>
      change (Value.object id).same g = true ↔ some (.object id) = some g
      refine ⟨fun h => by rw [eq_of_same_object h], fun h => ?_⟩
      cases h
      exact beq_self_eq_true id

theorem checkDescriptor_eq_ok_iff : e.checkDescriptor d = .ok () ↔
    ¬ (d.isAccessor = true ∧ d.isData = true) ∧
      ∀ f, d.getter = some f ∨ d.setter = some f → f = .undefined ∨ e.isFunction f = true := by
  rw [Engine.checkDescriptor, ← Bool.and_eq_true]
  by_cases hmixed : (d.isAccessor && d.isData) = true
  · rw [if_pos hmixed]
    exact ⟨(by cases ·), fun h => absurd hmixed h.1⟩
  · have hall : [d.getter, d.setter].all (·.all fun f => f.isUndefined || e.isFunction f) = true ↔
        ∀ f, d.getter = some f ∨ d.setter = some f → f = .undefined ∨ e.isFunction f = true := by
      simp only [List.all_cons, List.all_nil, Bool.and_true, Bool.and_eq_true, Option.all_eq_true,
        Bool.or_eq_true, isUndefined_iff]
      exact ⟨fun h f hf => hf.elim (h.1 f) (h.2 f),
        fun h => ⟨fun f hf => h f (Or.inl hf), fun f hf => h f (Or.inr hf)⟩⟩
    rw [if_neg hmixed]
    split_ifs with h
    · exact ⟨fun _ => ⟨hmixed, hall.mp h⟩, fun _ => rfl⟩
    · exact ⟨(by cases ·), fun hd => absurd (hall.mpr hd.2) h⟩

theorem object_of_functions
    (hf : ∀ f, d.getter = some f ∨ d.setter = some f → f = .undefined ∨ e.isFunction f = true)
    (h : d.getter = some f ∨ d.setter = some f) : f = .undefined ∨ ∃ id, f = .object id :=
  (hf f h).imp_right object_of_isFunction

/-- What a tidy property that is not configurable admits is what is compatible with it. -/
theorem admittedBy_iff (hp : p.Tidy)
    (hf : ∀ f, d.getter = some f ∨ d.setter = some f → f = .undefined ∨ e.isFunction f = true) :
    d.admittedBy p.slot p.flags = true ↔ d.Compatible p := by
  have hflags : (d.configurable != some true) = true ∧
        d.enumerable.all (· == p.flags.enumerable) = true ↔
      d.configurable ≠ some true ∧ ∀ b, d.enumerable = some b → b = p.flags.enumerable := by
    simp only [bne_iff_ne, Option.all_eq_true, beq_iff_eq]
  rw [admittedBy.eq_def, Bool.and_eq_true, Bool.and_eq_true, hflags]
  cases hslot : p.slot with
  | data v =>
    have hdata : (!d.isAccessor && (p.flags.writable || (d.writable != some true &&
          openOr (·.sameOrBothNaN v) d.value))) = true ↔
        d.isAccessor = false ∧ (p.flags.writable = false →
          d.writable ≠ some true ∧ ∀ x, d.value = some x → x.sameOrBothNaN v = true) := by
      rw [openOr, Bool.and_eq_true, Bool.not_eq_true', Bool.or_eq_true, Bool.and_eq_true,
        bne_iff_ne, Option.all_eq_true, ← Bool.not_eq_true p.flags.writable, ← or_iff_not_imp_left]
    dsimp only
    rw [hdata]
    constructor
    · rintro ⟨⟨hc, he⟩, h⟩
      refine ⟨hc, he, fun v' hv => ?_, fun getter setter hnot => ?_⟩
      · cases hslot.symm.trans hv
        exact h
      · cases hslot.symm.trans hnot
    · rintro ⟨hc, he, h, -⟩
      exact ⟨⟨hc, he⟩, h v hslot⟩
  | accessor getter setter =>
    -- A tidy half is no undefined value, so that undefined is the same as no half.
    obtain ⟨-, hgetter, hsetter⟩ := hp getter setter hslot
    have hhalves : (!d.isData && openOr (fun f => sameHalf (some f) getter) d.getter &&
          openOr (fun f => sameHalf (some f) setter) d.setter) = true ↔
        d.isData = false ∧ (∀ f, d.getter = some f → given f = getter) ∧
          ∀ f, d.setter = some f → given f = setter := by
      rw [openOr, openOr, Bool.and_eq_true, Bool.and_eq_true, Bool.not_eq_true', and_assoc,
        Option.all_eq_true, Option.all_eq_true]
      refine and_congr_right fun _ => and_congr ?_ ?_
      · exact forall₂_congr fun f h => sameHalf_iff (object_of_functions hf (Or.inl h)) hgetter
      · exact forall₂_congr fun f h => sameHalf_iff (object_of_functions hf (Or.inr h)) hsetter
    dsimp only
    rw [hhalves]
    constructor
    · rintro ⟨⟨hc, he⟩, h⟩
      refine ⟨hc, he, fun v hnot => ?_, fun getter' setter' hg => ?_⟩
      · cases hslot.symm.trans hnot
      · cases hslot.symm.trans hg
        exact h
    · rintro ⟨hc, he, -, h⟩
      exact ⟨⟨hc, he⟩, h getter setter hslot⟩

theorem writable_eq_none (hd : ¬ (d.isAccessor = true ∧ d.isData = true))
    (ha : d.isAccessor = true) : d.writable = none := by
  cases hw : d.writable with
  | none => rfl
  | some b => exact absurd ⟨ha, by rw [isData, hw, Option.isSome_some, Bool.or_true]⟩ hd

theorem applied_none (hd : ¬ (d.isAccessor = true ∧ d.isData = true)) (name : String) :
    d.applied name none = ⟨name, d.newSlot, d.newFlags⟩ := by
  rw [applied, Option.map_none, base, newSlot, newFlags]
  by_cases ha : d.isAccessor = true
  · rw [if_pos ha, if_pos ha, writable_eq_none hd ha, half_eq, half_eq]
    rfl
  · rw [if_neg ha, if_neg ha]
    rfl

theorem isData_eq_false (hd : ¬ (d.isAccessor = true ∧ d.isData = true))
    (ha : d.isAccessor = true) : d.isData = false :=
  Bool.eq_false_iff.mpr fun h => hd ⟨ha, h⟩

/-- What is stated of neither kind changes no content. -/
theorem state_of_generic (ha : d.isAccessor = false) (hdata : d.isData = false) (c : Content) :
    d.state c = c := by
  rw [isAccessor, Bool.or_eq_false_iff, Option.isSome_eq_false_iff, Option.isSome_eq_false_iff,
    Option.isNone_iff_eq_none, Option.isNone_iff_eq_none] at ha
  rw [isData, Bool.or_eq_false_iff, Option.isSome_eq_false_iff, Option.isSome_eq_false_iff,
    Option.isNone_iff_eq_none, Option.isNone_iff_eq_none] at hdata
  cases c with
  | data v writable => rw [state, hdata.1, hdata.2]; rfl
  | accessor getter setter => rw [state, ha.1, ha.2]; rfl

theorem applied_some (hd : ¬ (d.isAccessor = true ∧ d.isData = true)) (hp : p.Tidy)
    (name : String) :
    d.applied name (some p) =
      ⟨name, (d.merge p.slot p.flags).1, (d.merge p.slot p.flags).2⟩ := by
  have hmerged : (d.state (d.base (some p.content))).property name
        (d.enumerable.getD p.flags.enumerable) (d.configurable.getD p.flags.configurable) =
      ⟨name, (d.mergedSlot p.slot p.flags.writable).1, ⟨(d.mergedSlot p.slot p.flags.writable).2,
        d.enumerable.getD p.flags.enumerable, d.configurable.getD p.flags.configurable⟩⟩ := by
    cases hslot : p.slot with
    | data v =>
      rw [Property.content, hslot, base.eq_def]
      dsimp only
      by_cases ha : d.isAccessor = true
      · rw [mergedSlot.eq_def, if_pos ha, if_pos ha, half_eq, half_eq]
        rfl
      · rw [mergedSlot_data (Bool.eq_false_iff.mpr ha), if_neg ha]
        rfl
    | accessor getter setter =>
      rw [Property.content, hslot, base.eq_def]
      dsimp only
      by_cases ha : d.isAccessor = true
      · rw [mergedSlot.eq_def, if_pos ha, isData_eq_false hd ha]
        dsimp only
        rw [mergedHalf_eq_getD, mergedHalf_eq_getD]
        rfl
      · by_cases hdata : d.isData = true
        · rw [mergedSlot.eq_def, if_neg ha, if_pos hdata, if_pos hdata]
          rfl
        · rw [mergedSlot.eq_def, if_neg ha, if_neg hdata, if_neg hdata,
            state_of_generic (Bool.eq_false_iff.mpr ha) (Bool.eq_false_iff.mpr hdata),
            (hp getter setter hslot).1]
          rfl
  exact hmerged

end Descriptor

/-! ### Defining a property -/

namespace Engine

open Descriptor

variable [Library] {e e' : Engine} {id : ObjectId} {name : String} {d : Descriptor}

/-- What a definition does that is not refused: the object has the property. -/
structure Defined (e : Engine) (id : ObjectId) (p : Property) (e' : Engine) : Prop where
  /-- Nothing of the engine changes but its objects, and these stay as many. -/
  rest : e' = { e with objects := e'.objects } ∧ e'.objects.size = e.objects.size
  others : ∀ other, other ≠ id → e'.object other = e.object other
  prototype : (e'.object id).prototype = (e.object id).prototype
  payload : (e'.object id).payload = (e.object id).payload
  own : (e'.object id).own? p.key = some p
  named : ∀ n, n ≠ p.key → (e'.object id).own? n = (e.object id).own? n

theorem defined_define (ho : (e.object id).Sound) (hid : id < e.objects.size) {p : Property}
    (hvirtual : (e.object id).isVirtual p.key = false) :
    e.Defined id p (e.modify id (·.define p.key p.slot p.flags)) := by
  have hself := object_modify_self e (·.define p.key p.slot p.flags) hid
  refine ⟨⟨rfl, Array.size_modify⟩, fun other h => object_modify_of_ne e _ (Ne.symm h), ?_, ?_,
    ?_, ?_⟩
  · rw [hself]
    rfl
  · rw [hself]
    rfl
  · have hplain : ((e.object id).define p.key p.slot p.flags).isVirtual p.key = false := hvirtual
    rw [hself, Object.own?_eq_named? hplain, ho.named?_define, if_pos rfl]
  · intro n hn
    have hnamed : ((e.object id).define p.key p.slot p.flags).named? n =
        (e.object id).named? n := by
      rw [ho.named?_define, if_neg hn]
    rw [hself, Object.own?, Object.own?, hnamed]
    rfl

/-- A name that no element answers is defined by the descriptor as a whole, or not at all. -/
theorem defineOwn_cases (ho : (e.object id).Sound) (hid : id < e.objects.size)
    (hvirtual : (e.object id).isVirtual name = false) :
    (d.Admissible e ((e.object id).own? name) ∧ ∃ e', e.defineOwn id name d = .ok e' ∧
        e.Defined id (d.applied name ((e.object id).own? name)) e') ∨
      ¬ d.Admissible e ((e.object id).own? name) ∧ ∃ f, e.defineOwn id name d = .error f := by
  rw [Object.own?_eq_named? hvirtual]
  cases hcheck : e.checkDescriptor d with
  | error f =>
    refine Or.inr ⟨fun h => ?_, f, ?_⟩
    · cases hcheck.symm.trans (checkDescriptor_eq_ok_iff.mpr ⟨h.unmixed, h.functions⟩)
    · rw [defineOwn_eq, hcheck]
      rfl
  | ok _ =>
    obtain ⟨hd, hf⟩ := checkDescriptor_eq_ok_iff.mp hcheck
    have hown : e.defineOwn id name d = e.defineNamed id name d := by
      rw [defineOwn_eq, hcheck, hvirtual]
      rfl
    rw [hown, defineNamed]
    cases hp : (e.object id).named? name with
    | none =>
      refine Or.inl ⟨⟨hd, hf, fun _ => (by cases ·)⟩, _, rfl, ?_⟩
      rw [applied_none hd]
      exact defined_define (p := ⟨name, d.newSlot, d.newFlags⟩) ho hid hvirtual
    | some p =>
      have htidy := ho.tidy name p hp
      have hiff : (p.flags.configurable || d.admittedBy p.slot p.flags) = true ↔
          p.flags.configurable = true ∨ d.Compatible p := by
        rw [Bool.or_eq_true, admittedBy_iff htidy hf]
      dsimp only
      by_cases hok : (p.flags.configurable || d.admittedBy p.slot p.flags) = true
      · rw [if_pos hok]
        refine Or.inl ⟨⟨hd, hf, fun q hq => ?_⟩, _, rfl, ?_⟩
        · cases hq
          exact hiff.mp hok
        · rw [applied_some hd htidy]
          exact defined_define (p := ⟨name, _, _⟩) ho hid hvirtual
      · rw [if_neg hok]
        exact Or.inr ⟨fun h => hok (hiff.mpr (h.compatible p rfl)), _, rfl⟩

end Engine

open Operation (readDescriptor defineProperty)

variable {H : Type} {host : Host H} {w t : World H} {receiver desc : Box} {id : ObjectId}
variable {name : String} {d : Descriptor}

theorem outcome_defineProperty [Library] [Memory] (hreceiver : receiver.value = .object id)
    (hdesc : desc.value.object?.isSome)
    (hread : (readDescriptor host desc).outcome w = (.ok d, t)) :
    (defineProperty host receiver name desc).outcome w =
      match t.engine.defineOwn id name d with
      | .ok e => (.ok (), { t with engine := e })
      | .error f => (.error f, t) := by
  have hpresent : desc.value.object?.isNone = false := by
    rw [← Option.not_isSome, hdesc]
    rfl
  rw [Operation.defineProperty_eq, Action.outcome_bind, Action.outcome_ofExcept, hreceiver,
    Value.toObject]
  dsimp only
  rw [hpresent, if_neg Bool.false_ne_true]
  change (readDescriptor host desc >>= _).outcome w = _
  rw [Action.outcome_bind, hread]
  dsimp only
  rw [Operation.outcome_attempt]
  cases t.engine.defineOwn id name d <;> rfl

/-- **Definitions follow their descriptors.** In every reachable engine, and for every name that
the object does not answer from its elements, a definition by a descriptor that can be read
succeeds exactly if the descriptor can be applied to the property that is there after it has
been read. The object then has the property that the descriptor makes of it, and nothing
else changes; a definition that fails changes nothing. -/
theorem definition_law [Library] (hhost : host.Conforms) (hw : w.engine.Reachable)
    (hid : id < w.engine.objects.size) (hreceiver : receiver.value = .object id)
    (hdesc : desc.value.object?.isSome)
    (hread : (readDescriptor host desc).outcome w = (.ok d, t))
    (hname : (t.engine.object id).isVirtual name = false) :
    let current := (t.engine.object id).own? name
    let result := (defineProperty host receiver name desc).outcome w
    (result.1 = .ok () ↔ d.Admissible t.engine current) ∧
      (result.1 = .ok () → ∃ e, result.2 = { t with engine := e } ∧
        t.engine.Defined id (d.applied name current) e) ∧
      (result.1 ≠ .ok () → result.2 = t) := by
  intro current result
  -- Reading the descriptor may run functions. The law is about the engine that they leave.
  have hleads : Engine.Steps w.engine t.engine := by
    have hsteps := Operation.steps_readDescriptor hhost desc w
    rw [hread] at hsteps
    exact hsteps
  have hsize : id < t.engine.objects.size := hid.trans_le hleads.size_le
  have hsound : (t.engine.object id).Sound := (hw.steps hleads).sound id hsize
  have hresult : result = _ := outcome_defineProperty hreceiver hdesc hread
  obtain ⟨hadmissible, e, hdefine, hdefined⟩ | ⟨hnot, f, hdefine⟩ :=
    Engine.defineOwn_cases (d := d) hsound hsize hname
  · rw [hdefine] at hresult
    rw [hresult]
    exact ⟨⟨fun _ => hadmissible, fun _ => rfl⟩, fun _ => ⟨e, rfl, hdefined⟩,
      fun h => absurd rfl h⟩
  · rw [hdefine] at hresult
    rw [hresult]
    exact ⟨⟨nofun, fun h => absurd h hnot⟩, nofun, fun _ => rfl⟩

/-- An object with a writable property that is not configurable. -/
def Engine.narrow : Engine :=
  ((Engine.new .standard).create (.ofClass .plain)).2.modify 0
    (·.define "x" (.data (.bool true)) ⟨true, false, false⟩)

/-- An object besides that states another value. -/
def Engine.stating : Engine :=
  (Engine.narrow.create (.ofClass .plain)).2.modify 1
    (·.define "value" (.data (.bool false)) Flags.none)

/-- The other object states too that the value is the last one. -/
def Engine.narrowing : Engine :=
  Engine.stating.modify 1 (·.define "writable" (.data (.bool false)) Flags.none)

theorem Engine.narrowing_reachable : Engine.narrowing.Reachable := by
  have hx : ((Engine.new .standard).create (.ofClass .plain)).2.defineOwn 0 "x"
      { (default : Descriptor) with value := some (.bool true), writable := some true } =
        .ok Engine.narrow := rfl
  have hvalue : (Engine.narrow.create (.ofClass .plain)).2.defineOwn 1 "value"
      { (default : Descriptor) with value := some (.bool false) } = .ok Engine.stating := rfl
  have hnone : (Engine.stating.object 1).named? "writable" = none := by decide +kernel
  have hwritable : Engine.stating.defineOwn 1 "writable"
      { (default : Descriptor) with value := some (.bool false) } = .ok Engine.narrowing := by
    rw [Engine.defineOwn_eq]
    change Engine.stating.defineNamed 1 "writable" _ = _
    rw [Engine.defineNamed, hnone]
    rfl
  have hmade : Engine.Steps (Engine.new .standard) Engine.stating :=
    ((Engine.Step.newObject.steps.trans (Engine.Step.define hx).steps).trans
      Engine.Step.newObject.steps).trans (Engine.Step.define hvalue).steps
  exact ⟨.standard, hmade.trans (Engine.Step.define hwritable).steps⟩

/-- The property takes its last value and is no longer writable. -/
theorem definition_law_narrowing :
    let w : World Unit := ⟨Engine.narrowing, Store.empty, ()⟩
    let t := ((readDescriptor Host.idle ⟨3, .object 1⟩).outcome w).2
    let result := (defineProperty Host.idle ⟨2, .object 0⟩ "x" ⟨3, .object 1⟩).outcome w
    result.1 = .ok () ∧ ∃ e, result.2 = { t with engine := e } ∧
      t.engine.Defined 0 ⟨"x", .data (.bool false), Flags.none⟩ e := by
  intro w t result
  let d : Descriptor := ⟨some (.bool false), some false, none, none, none, none⟩
  let p : Property := ⟨"x", .data (.bool true), ⟨true, false, false⟩⟩
  have hd : ((readDescriptor Host.idle ⟨3, .object 1⟩).outcome w).1 = .ok d := by decide +kernel
  have hp : (t.engine.object 0).own? "x" = some p := by decide +kernel
  have hname : (t.engine.object 0).isVirtual "x" = false := by decide +kernel
  have hsize : 0 < w.engine.objects.size := by decide +kernel
  have hreceiver : (⟨2, .object 0⟩ : Box).value = .object 0 := rfl
  have hdesc : (⟨3, .object 1⟩ : Box).value.object?.isSome := rfl
  obtain ⟨hiff, hdefined, -⟩ := definition_law (w := w) (t := t) (d := d) Host.idle_conforms
    Engine.narrowing_reachable hsize hreceiver hdesc (Prod.ext hd rfl) hname
  have hadmissible : d.Admissible t.engine (some p) :=
    ⟨fun h => (Bool.false_ne_true h.1).elim, fun f h => h.elim nofun nofun, fun q hq => by
      cases hq
      exact Or.inr ⟨nofun, nofun, fun _ _ => ⟨rfl, nofun⟩, nofun⟩⟩
  rw [hp] at hiff hdefined
  exact ⟨hiff.mpr hadmissible, hdefined (hiff.mpr hadmissible)⟩

end ValueEngine
