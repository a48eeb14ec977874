import ValueEngine.Engine.External
import ValueEngine.Proofs.Engine.Frozen

/-! References to objects of the host. What a reference stands for is written in two frozen
properties and in the class of a function object, so no program can change it, and what
is asked of the reference later is answered as when it was made. -/

namespace ValueEngine

namespace Engine

variable {e e' : Engine} {id : ObjectId} {name : String} {kind : ExternalKind}
  {handle environment : UInt64}

theorem code_of_number (kind : ExternalKind) :
    ExternalKind.ofCode? (Number.toUInt8 (Number.ofNat kind.code)).toNat = some kind := by
  cases kind <;> decide

/-- The handle as a reference gives it back, after it has been held as a double. -/
def heldHandle (handle : UInt64) : UInt64 := Number.toUInt64 (Number.ofNat handle.toNat)

theorem elements?_reference (h : (e.object id).payload = referencePayload kind handle environment) :
    (e.object id).elements? = none := by
  rw [Object.elements?, h]
  cases kind <;> rfl

variable [Library]

theorem hiddenNumber?_of_freezes (ho : (e.object id).Sound) {x : Float}
    (h : (e.object id).Freezes name (Value.number x).content?) :
    ∃ y, e.hiddenNumber? id name = some y ∧ Number.rank? y = Number.rank? x := by
  obtain ⟨p, hown, hfrozen⟩ := h.own? ho
  obtain ⟨v, hslot, hv⟩ := hfrozen.value
  have hread : e.hiddenNumber? id name = v.number? := by
    rw [hiddenNumber?, lookup_of_own? hown]
    simp [hslot, Slot.value?]
  cases v with
  | number y =>
    refine ⟨y, hread, ?_⟩
    cases hx : Number.rank? x <;> cases hy : Number.rank? y <;> simp_all [Value.content?]
  | _ => cases hx : Number.rank? x <;> simp [Value.content?, hx] at hv

/-- The object is the reference to a host object. -/
structure Refers (e : Engine) (id : ObjectId) (kind : ExternalKind) (handle environment : UInt64) :
    Prop where
  there : id < e.objects.size
  kindHeld : (e.object id).Freezes kindName (Value.number (Number.ofNat kind.code)).content?
  handleHeld :
    (e.object id).Freezes handleName (Value.number (Number.ofNat handle.toNat)).content?
  payload : (e.object id).payload = referencePayload kind handle environment

/-- A reference goes on standing for the same host object along any run of steps. -/
theorem Steps.refers (h : Steps e e') (he : e.Sound) (href : e.Refers id kind handle environment) :
    e'.Refers id kind handle environment where
  there := href.there.trans_le h.size_le
  kindHeld := h.freezes he href.kindHeld
  handleHeld := h.freezes he href.handleHeld
  payload := (h.payload_eq href.there (elements?_reference href.payload)).trans href.payload

theorem freezes_referenceObject (kind : ExternalKind) (handle environment : UInt64) :
    (referenceObject kind handle environment).Freezes kindName
        (Value.number (Number.ofNat kind.code)).content? ∧
      (referenceObject kind handle environment).Freezes handleName
        (Value.number (Number.ofNat handle.toNat)).content? := by
  have hnone : (Object.ofClass (referencePayload kind handle environment)).elements? = none :=
    elements?_referenceObject kind handle environment
  have hclass := Object.Fresh.ofClass (referencePayload kind handle environment)
  have hfirst := hclass.define hnone kindName (.number (Number.ofNat kind.code)) Flags.none
  constructor
  · refine ⟨_, ?_, Property.frozen_data kindName _⟩
    rw [referenceObject, hfirst.sound.named?_define, if_neg (by decide), hclass.sound.named?_define,
      if_pos rfl]
  · refine ⟨_, ?_, Property.frozen_data handleName _⟩
    rw [referenceObject, hfirst.sound.named?_define, if_pos rfl]

theorem refers_createExternal (e : Engine) (kind : ExternalKind) (handle environment : UInt64) :
    (e.createExternal kind handle environment).2.Refers e.objects.size kind handle environment := by
  have hobject : (e.createExternal kind handle environment).2.object e.objects.size =
      referenceObject kind handle environment := object_create_self e _
  obtain ⟨hkind, hhandle⟩ := freezes_referenceObject kind handle environment
  rw [← hobject] at hkind hhandle
  refine ⟨?_, hkind, hhandle, by rw [hobject]; rfl⟩
  simp [createExternal, create, box]

namespace Refers

variable (he : e.Sound) (href : e.Refers id kind handle environment)

include he href

theorem externalKind?_eq : e.externalKind? id = some kind := by
  obtain ⟨x, hx, hrank⟩ := hiddenNumber?_of_freezes (he id href.there) href.kindHeld
  rw [externalKind?, hx, Option.bind_eq_bind, Option.bind_some, Number.toUInt8_eq_of_rank? hrank]
  exact code_of_number kind

theorem typeOf_eq : e.typeOf (.object id) = kind.tag := by
  rw [typeOf, Value.object?, Option.bind_some, href.externalKind?_eq he]

theorem isExternal_eq : e.isExternal (.object id) = true := by
  rw [isExternal, Value.object?, Option.bind_some, href.externalKind?_eq he, Option.isSome_some]

theorem toExternal_eq : e.toExternal (.object id) = .ok (kind, heldHandle handle) := by
  obtain ⟨x, hx, hrank⟩ := hiddenNumber?_of_freezes (he id href.there) href.handleHeld
  rw [toExternal]
  simp only [href.externalKind?_eq he, hx, Number.toUInt64_eq_of_rank? hrank, heldHandle]

end Refers

theorem Refers.callable?_eq (href : e.Refers id .function handle environment) :
    e.callable? (.object id) = some (.external handle environment) := by
  rw [callable?, Value.object?, Option.bind_some, Object.callable?, href.payload]
  rfl

end Engine

variable {H : Type} {host : Host H} {w : World H}

/-- A call of a function of the host is dispatched if there is a dispatcher. -/
theorem Operation.outcome_call_external {f this : Box} {args : List Box}
    {function environment : UInt64}
    (hf : w.engine.callable? f.value = some (.external function environment))
    (hdispatcher : w.engine.hasDispatcher = true) :
    (Operation.call host f this args).outcome w =
      (host.dispatch function environment this args).outcome w := by
  rw [call, callValue, Action.outcome_bind, Action.outcome_get]
  simp only [hf, Action.outcome_bind, Action.outcome_get, hdispatcher, if_true]

/-- **References are tamper-proof.** Whatever requests are carried out after a reference has been
made, on whatever objects, and at whatever step of a further one, its type, that it is a reference
and its kind and handle are answered as right after it was made, and calling a function of the
host through it dispatches to that function in its environment. -/
theorem reference_is_permanent [Library] [Memory] (hhost : host.Conforms)
    (hw : w.engine.Reachable) {tag : TypeTag} {handle environment : UInt64} {b : Box} {e : Engine}
    (hmade : w.engine.createReference tag handle environment = .ok (b, e)) (rs : List Request)
    {t : World H}
    (hrun : Engine.Steps (Request.runAll host rs { w with engine := e }).engine t.engine) :
    (t.engine.typeOf b.value = e.typeOf b.value ∧ e.typeOf b.value = tag) ∧
      (t.engine.isExternal b.value = e.isExternal b.value ∧ e.isExternal b.value = true) ∧
      (t.engine.toExternal b.value = e.toExternal b.value ∧
        ∃ kind, kind.tag = tag ∧ e.toExternal b.value = .ok (kind, Engine.heldHandle handle)) ∧
      (tag = .externalFunction → t.engine.hasDispatcher = true → ∀ this args,
        (Operation.call host b this args).outcome t =
          (host.dispatch handle environment this args).outcome t) := by
  obtain ⟨kind, htag, hpair⟩ := Engine.createReference_eq_ok hmade
  have href := Engine.refers_createExternal w.engine kind handle environment
  have hb : b.value = .object w.engine.objects.size := congrArg (·.1.value) hpair.symm
  rw [hpair] at href
  have he : e.Sound := (hw.steps (Engine.Step.createReference hmade).steps).sound
  have hsteps : Engine.Steps e t.engine :=
    (Request.runAll_steps hhost rs { w with engine := e }).trans hrun
  have ht : t.engine.Sound := hsteps.sound he
  have href' := hsteps.refers he href
  rw [hb, href.typeOf_eq he, href'.typeOf_eq ht, href.isExternal_eq he, href'.isExternal_eq ht,
    href.toExternal_eq he, href'.toExternal_eq ht]
  refine ⟨⟨rfl, htag⟩, ⟨rfl, rfl⟩, ⟨rfl, kind, htag, rfl⟩, ?_⟩
  intro hfunction hdispatcher this args
  have hkind : kind = .function := by cases kind <;> first | rfl | cases htag.trans hfunction
  subst hkind
  have hcallable : t.engine.callable? b.value = some (.external handle environment) := by
    rw [hb]
    exact href'.callable?_eq
  exact Operation.outcome_call_external hcallable hdispatcher

/-- A reference to a function outlives attempts on both its hidden properties. -/
theorem reference_is_permanent_function :
    let made := (Engine.new .standard).createExternal .function 7 9
    let b := made.1
    let attempts : List Request := [.setProperty b "@tag" Box.null, .deleteProperty b "@ref",
      .defineProperty b "@tag" b, .setPrototype b Box.null, .call b b [], .registerDispatcher]
    let t := Request.runAll Host.storing attempts ⟨made.2, Store.empty, ()⟩
    t.engine.typeOf b.value = .externalFunction ∧ t.engine.isExternal b.value = true ∧
      t.engine.toExternal b.value = .ok (.function, 7) ∧
      (Operation.call Host.storing b b []).outcome t =
        (Host.storing.dispatch 7 9 b []).outcome t := by
  intro made b attempts t
  have hmade : (Engine.new .standard).createReference .externalFunction 7 9 = .ok made := rfl
  obtain ⟨⟨htype, htag⟩, ⟨hexternal, htrue⟩, ⟨hheld, kind, hkind, hok⟩, hcall⟩ :=
    reference_is_permanent (w := ⟨Engine.new .standard, Store.empty, ()⟩) Host.storing_conforms
      ⟨.standard, .refl⟩ hmade attempts (t := t) .refl
  have hfunction : kind = .function := by cases kind <;> first | rfl | cases hkind
  have hhandle : Engine.heldHandle 7 = 7 := by decide
  rw [hfunction, hhandle] at hok
  exact ⟨htype.trans htag, hexternal.trans htrue, hheld.trans hok, hcall rfl rfl b []⟩

end ValueEngine
