import ValueEngine.Proofs.Engine.Closed

/-! Operations under rules. Rules say which values operations may be given and which ones they may
find and store, how they may change the engine, and what stays true of the world meanwhile. An
operation keeps the rules if the functions of the host do: it takes one step of the engine, or
hands values that it was given to a function. What it then answers is a value that it may find: it
has read it, or has it from a function. Conforming is keeping the rules that demand nothing but
steps. -/

namespace ValueEngine

open Engine (Step Steps Change StoresOnly)

variable [Library]

/-- Rules for what may be done to a world. -/
structure Rules (H : Type) where
  /-- The values that operations may be given. -/
  admits : Engine → Value → Prop
  /-- The values that operations may find and store. -/
  yields : Engine → Value → Prop
  /-- How an engine may go on from another. -/
  leads : Engine → Engine → Prop
  /-- What stays true of the world. -/
  holds : World H → Prop
  leads_refl (e : Engine) : leads e e
  leads_trans {e e' e'' : Engine} (h : leads e e') (h' : leads e' e'') : leads e e''
  admits_of_leads {e e' : Engine} {v : Value} (h : leads e e') (hv : admits e v) : admits e' v
  yields_of_leads {e e' : Engine} {v : Value} (h : leads e e') (hv : yields e v) : yields e' v
  holds_of_leads {w : World H} {e : Engine} (hw : holds w) (h : leads w.engine e) :
    holds { w with engine := e }
  yields_of_admits {e : Engine} {v : Value} (hv : admits e v) : yields e v
  yields_of_ne_object {e : Engine} {v : Value} (hv : ∀ id, v ≠ .object id) : yields e v
  yields_of_read {w : World H} {receiver v : Value} {name : String} (hw : holds w)
    (h : w.engine.read receiver name = .ok (.value v)) : yields w.engine v
  leads_of_change {e e' : Engine} {vs : List Value} (hvs : ∀ v ∈ vs, yields e v) (h : Step e e')
    (hchange : Change e e') (hstores : StoresOnly vs e e') : leads e e'
  leads_of_setPrototype {e e' : Engine} {v proto : Value} (hproto : admits e proto)
    (h : e.setPrototype v proto = .ok e') : leads e e'
  leads_of_createWithPrototype {e e' : Engine} {proto : Value} {b : Box}
    (hproto : admits e proto) (h : e.createWithPrototype proto = .ok (b, e')) : leads e e'

variable {H α β : Type} {rules : Rules H}

/-- An operation in a world keeps the rules, and what it answers is good. -/
def Operation.KeepsTo (rules : Rules H) (good : Engine → α → Prop) (a : Operation H α)
    (w : World H) : Prop :=
  rules.holds w → (rules.holds (a.outcome w).2 ∧ rules.leads w.engine (a.outcome w).2.engine) ∧
    ∀ x, (a.outcome w).1 = .ok x → good (a.outcome w).2.engine x

/-- An operation in a world keeps the rules, whatever it answers. -/
abbrev Operation.Keeps (rules : Rules H) (a : Operation H α) (w : World H) : Prop :=
  a.KeepsTo rules (fun _ _ => True) w

/-- Boxes that hold values an operation may be given. -/
def Rules.AdmitsAll (rules : Rules H) (e : Engine) (bs : List Box) : Prop :=
  ∀ b ∈ bs, rules.admits e b.value

theorem Rules.AdmitsAll.of_leads {e e' : Engine} {bs : List Box} (hbs : rules.AdmitsAll e bs)
    (h : rules.leads e e') : rules.AdmitsAll e' bs :=
  fun b hb => rules.admits_of_leads h (hbs b hb)

/-- A box that holds a value an operation may find. -/
def Rules.YieldsBox (rules : Rules H) (e : Engine) (b : Box) : Prop := rules.yields e b.value

/-- The functions of a host keep the rules when they are given values that they may be given. -/
structure Host.Keeps (rules : Rules H) (host : Host H) : Prop where
  native : ∀ name this args w, rules.AdmitsAll w.engine (this :: args) →
    (host.native name this args).KeepsTo rules rules.YieldsBox w
  dispatch : ∀ function environment this args w, rules.AdmitsAll w.engine (this :: args) →
    (host.dispatch function environment this args).KeepsTo rules rules.YieldsBox w

/-! ### Operations that keep rules -/

namespace Operation

variable {a : Operation H α} {f : α → Operation H β} {w : World H}
variable {good : Engine → α → Prop} {fine : Engine → β → Prop}

theorem KeepsTo.mono (ha : a.KeepsTo rules good w) {good' : Engine → α → Prop}
    (h : ∀ e x, good e x → good' e x) : a.KeepsTo rules good' w :=
  fun hw => ⟨(ha hw).1, fun x hx => h _ x ((ha hw).2 x hx)⟩

theorem KeepsTo.keeps (ha : a.KeepsTo rules good w) : a.Keeps rules w :=
  ha.mono fun _ _ _ => trivial

theorem keepsTo_of_holds (h : rules.holds w → a.KeepsTo rules good w) : a.KeepsTo rules good w :=
  fun hw => h hw hw

theorem keepsTo_of_unchanged (h : (a.outcome w).2 = w)
    (hgood : ∀ x, (a.outcome w).1 = .ok x → good w.engine x) : a.KeepsTo rules good w := by
  intro hw
  rw [h]
  exact ⟨⟨hw, rules.leads_refl _⟩, hgood⟩

theorem keepsTo_pure {x : α} (h : good w.engine x) : KeepsTo rules good (pure x) w :=
  keepsTo_of_unchanged rfl fun _ hx => Except.ok.inj hx ▸ h

theorem keeps_pure (x : α) : Keeps rules (pure x) w := keepsTo_pure trivial

theorem keepsTo_throw (f : Fault) : KeepsTo rules good (throw f : Operation H α) w :=
  keepsTo_of_unchanged rfl nofun

theorem keeps_ofExcept (r : Except Fault α) : Keeps rules (.ofExcept r) w :=
  keepsTo_of_unchanged (by rw [Action.outcome_ofExcept]) fun _ _ => trivial

/-- One operation after another keeps to what the last one answers. -/
theorem KeepsTo.bind (ha : a.KeepsTo rules good w)
    (hf : ∀ x t, a.outcome w = (.ok x, t) → rules.leads w.engine t.engine → good t.engine x →
      (f x).KeepsTo rules fine t) :
    KeepsTo rules fine (a >>= f) w := by
  intro hw
  obtain ⟨⟨hfirst, hleads⟩, hgood⟩ := ha hw
  rw [Action.outcome_bind]
  rcases hout : a.outcome w with ⟨r, t⟩
  rw [hout] at hfirst hleads hgood
  cases r with
  | error e => exact ⟨⟨hfirst, hleads⟩, nofun⟩
  | ok x =>
    obtain ⟨⟨hlast, hrest⟩, hfine⟩ := hf x t hout hleads (hgood x rfl) hfirst
    exact ⟨⟨hlast, rules.leads_trans hleads hrest⟩, hfine⟩

theorem KeepsTo.map (ha : a.KeepsTo rules good w) {f : α → β} (h : ∀ e x, good e x → fine e (f x)) :
    KeepsTo rules fine (f <$> a) w := by
  rw [← bind_pure_comp]
  exact ha.bind fun _ _ _ _ hx => keepsTo_pure (h _ _ hx)

theorem keeps_ask (f : Engine → Except Fault α) : Keeps rules (ask f) w :=
  keepsTo_of_unchanged (by rw [outcome_ask]) fun _ _ => trivial

theorem keepsTo_ask_bind {g : Engine → Except Fault α}
    (h : ∀ x, g w.engine = .ok x → (f x).KeepsTo rules fine w) :
    KeepsTo rules fine (ask g >>= f) w := by
  apply (keeps_ask g).bind
  intro x t hout _ _
  rw [outcome_ask, Prod.mk.injEq] at hout
  obtain ⟨hx, rfl⟩ := hout
  exact h x hx

theorem keepsTo_get_bind {f : World H → Operation H β} (h : (f w).KeepsTo rules fine w) :
    KeepsTo rules fine (get >>= f) w := h

theorem keeps_modify {f : Engine → Engine} (h : rules.leads w.engine (f w.engine)) :
    Keeps rules (modify fun w => { w with engine := f w.engine } : Operation H PUnit) w :=
  fun hw => ⟨⟨rules.holds_of_leads hw h, h⟩, fun _ _ => trivial⟩

theorem keepsTo_make {f : Engine → α × Engine} (h : rules.leads w.engine (f w.engine).2)
    (hgood : good (f w.engine).2 (f w.engine).1) : KeepsTo rules good (make f) w :=
  fun hw => ⟨⟨rules.holds_of_leads hw h, h⟩, fun _ hx => Except.ok.inj hx ▸ hgood⟩

theorem keeps_make {f : Engine → α × Engine} (h : rules.leads w.engine (f w.engine).2) :
    Keeps rules (make f) w := keepsTo_make h trivial

theorem keeps_attempt {f : Engine → Except Fault (α × Engine)}
    (h : ∀ x e, f w.engine = .ok (x, e) → rules.leads w.engine e) : Keeps rules (attempt f) w := by
  apply keepsTo_get_bind
  apply (keeps_ofExcept _).bind
  intro r t hout _ _
  rw [Action.outcome_ofExcept, Prod.mk.injEq] at hout
  obtain ⟨hr, rfl⟩ := hout
  have hleads := h r.1 r.2 hr
  exact fun hw => ⟨⟨rules.holds_of_leads hw hleads, hleads⟩, fun _ _ => trivial⟩

theorem keeps_attempt_unit {f : Engine → Except Fault Engine}
    (h : ∀ e, f w.engine = .ok e → rules.leads w.engine e) :
    Keeps rules (attempt fun e => return ((), ← f e)) w := by
  apply keeps_attempt
  intro x e hout
  obtain ⟨e', hown, hpair⟩ := bind_eq_ok hout
  cases hpair
  exact h e hown

theorem keeps_update {u : Engine.Update α} (hu : u.Atomic)
    (h : ∀ x e, u.result w.engine = .ok (x, e) → rules.leads w.engine e) :
    Keeps rules (update u) w := by
  rw [update_eq_attempt hu]
  exact keeps_attempt h

theorem keeps_update_unit {u : Engine.Update Unit} (hu : u.Atomic)
    (h : ∀ e, u.final w.engine = .ok e → rules.leads w.engine e) : Keeps rules (update u) w := by
  rw [update_eq_attempt_final hu]
  exact keeps_attempt_unit h

theorem leads_box (v : Value) (e : Engine) : rules.leads e (e.box v).2 :=
  rules.leads_of_change (List.forall_mem_nil _) (Step.box v) (Change.none rfl)
    (Engine.storesOnly_pending rfl fun _ => .inl)

theorem keeps_box (v : Value) : Keeps rules (box v) w := keeps_make (leads_box v w.engine)

theorem keepsTo_box {v : Value} (hv : rules.yields w.engine v) :
    KeepsTo rules rules.YieldsBox (box v) w :=
  keepsTo_make (leads_box v w.engine) (rules.yields_of_leads (leads_box v w.engine) hv)

theorem keepsTo_throwNoDispatcher {good : Engine → Box → Prop} :
    KeepsTo rules good (throwNoDispatcher : Operation H Box) w := by
  have htext :=
    rules.yields_of_ne_object (e := w.engine) (v := .string Fault.noDispatcher.text) nofun
  apply (keepsTo_box htext).bind
  intro text t _ _ ht
  have hthrow : rules.leads t.engine (t.engine.throwException text) :=
    rules.leads_of_change (List.forall_mem_singleton.mpr ht) (Step.throwException text)
      (Change.none rfl) (Engine.storesOnly_throwException text)
  exact (keeps_modify (f := (·.throwException text)) hthrow).bind fun _ _ _ _ _ => keepsTo_throw _

variable {host : Host H} {receiver desc type v : Box} {args : List Box} {name : String}

theorem keepsTo_callValue (hhost : host.Keeps rules) (f : Value)
    (hargs : rules.AdmitsAll w.engine (receiver :: args)) :
    (callValue host f receiver args).KeepsTo rules rules.YieldsBox w := by
  apply keepsTo_get_bind
  cases w.engine.callable? f with
  | none => exact keepsTo_throw _
  | some c =>
    cases c with
    | native name => exact hhost.native name receiver args w hargs
    | external function environment =>
      apply keepsTo_get_bind
      cases w.engine.hasDispatcher with
      | true => exact hhost.dispatch function environment receiver args w hargs
      | false => exact keepsTo_throwNoDispatcher

/-- What is read has been stored before, or is what a getter answers. -/
theorem keepsTo_getProperty (hhost : host.Keeps rules)
    (hreceiver : rules.admits w.engine receiver.value) :
    (getProperty host receiver name).KeepsTo rules (fun e found => ∀ b ∈ found, rules.YieldsBox e b)
      w := by
  have hsome : ∀ (e : Engine) (b : Box), rules.YieldsBox e b →
      ∀ b' ∈ some b, rules.YieldsBox e b' := by
    rintro e b hb _ ⟨⟩
    exact hb
  apply keepsTo_of_holds
  intro hw
  apply keepsTo_ask_bind
  intro reading hread
  cases reading with
  | absent => exact keepsTo_pure nofun
  | value v =>
    have hv := rules.yields_of_read hw hread
    exact (keepsTo_box hv).bind fun b t _ _ hb => keepsTo_pure (hsome _ b hb)
  | getter f =>
    have hargs : rules.AdmitsAll w.engine [receiver] := List.forall_mem_singleton.mpr hreceiver
    exact (keepsTo_callValue hhost f hargs).bind fun b t _ _ hb => keepsTo_pure (hsome _ b hb)
  | unreadable => exact keepsTo_pure (hsome _ _ (rules.yields_of_ne_object nofun))

/-- An assignment is a step, or what a setter does. -/
theorem keeps_setProperty [Memory] (hhost : host.Keeps rules)
    (hargs : rules.AdmitsAll w.engine [receiver, v]) :
    (setProperty host receiver name v).Keeps rules w := by
  rw [setProperty_eq]
  apply keepsTo_ask_bind
  intro assignment hassign
  replace hassign := Engine.assign_granted hassign
  cases assignment with
  | stored e =>
    have hv : rules.yields w.engine v.value := rules.yields_of_admits (hargs v (by simp))
    exact keeps_modify (f := fun _ => e)
      (rules.leads_of_change (List.forall_mem_singleton.mpr hv) (Step.assign hassign)
        (Engine.change_assign hassign) (Engine.storesOnly_assign hassign))
  | setter f => exact (keepsTo_callValue hhost f hargs).map fun _ _ _ => trivial

theorem keepsTo_descriptorPart (hhost : host.Keeps rules)
    (hdesc : rules.admits w.engine desc.value) :
    (descriptorPart host desc name).KeepsTo rules
      (fun e part => ∀ v ∈ part, rules.yields e v) w := by
  apply (keepsTo_getProperty hhost hdesc).bind
  intro found t _ _ hfound
  apply keepsTo_pure
  intro v hv
  obtain ⟨b, hb, rfl⟩ := Option.map_eq_some_iff.mp hv
  exact hfound b hb

/-- Reading a descriptor does what its getters do, and what it then states has been read. -/
theorem keepsTo_readDescriptor (hhost : host.Keeps rules)
    (hdesc : rules.admits w.engine desc.value) :
    (readDescriptor host desc).KeepsTo rules (fun e d => ∀ v ∈ d.values, rules.yields e v) w := by
  have hlater : ∀ {e e' : Engine} {part : Option Value}, rules.leads e e' →
      (∀ v ∈ part, rules.yields e v) → ∀ v ∈ part, rules.yields e' v :=
    fun h hpart v hv => rules.yields_of_leads h (hpart v hv)
  apply (keepsTo_descriptorPart hhost hdesc).bind
  intro value w₁ _ h₁ hvalue
  replace hdesc := rules.admits_of_leads h₁ hdesc
  apply (keepsTo_descriptorPart hhost hdesc).bind
  intro writable w₂ _ h₂ _
  replace hdesc := rules.admits_of_leads h₂ hdesc
  replace hvalue := hlater h₂ hvalue
  apply (keepsTo_descriptorPart hhost hdesc).bind
  intro getter w₃ _ h₃ hgetter
  replace hdesc := rules.admits_of_leads h₃ hdesc
  replace hvalue := hlater h₃ hvalue
  apply (keepsTo_descriptorPart hhost hdesc).bind
  intro setter w₄ _ h₄ hsetter
  replace hdesc := rules.admits_of_leads h₄ hdesc
  apply (keepsTo_descriptorPart hhost hdesc).bind
  intro enumerable w₅ _ h₅ _
  replace hdesc := rules.admits_of_leads h₅ hdesc
  apply (keepsTo_descriptorPart hhost hdesc).bind
  intro configurable w₆ _ h₆ _
  have hrest := rules.leads_trans h₅ h₆
  apply keepsTo_pure
  exact Descriptor.forall_mem_values.mpr ⟨hlater (rules.leads_trans h₄ hrest) hvalue,
    hlater (rules.leads_trans h₄ hrest) hgetter, hlater hrest hsetter⟩

theorem keeps_defineProperty [Memory] (hhost : host.Keeps rules)
    (hdesc : rules.admits w.engine desc.value) :
    (defineProperty host receiver name desc).Keeps rules w := by
  rw [defineProperty_eq]
  apply (keeps_ofExcept _).bind
  intro id t _ ht _
  replace hdesc := rules.admits_of_leads ht hdesc
  have hread : Keeps rules (do
      let d ← readDescriptor host desc
      attempt fun e => return ((), ← e.defineOwn id name d)) t := by
    apply (keepsTo_readDescriptor hhost hdesc).bind
    intro d u _ _ hd
    apply keeps_attempt_unit
    intro e h
    replace h := Engine.defineOwn_granted h
    exact rules.leads_of_change hd (Step.define h) (Engine.change_defineOwn h)
      (Engine.storesOnly_defineOwn h)
  by_cases hobject : desc.value.object?.isNone
  · simp only [hobject, if_true]
    have hthrow : KeepsTo rules (fun _ _ => False)
        (throw .descriptorNotObject : Operation H PUnit) t := keepsTo_throw _
    exact hthrow.bind fun _ _ _ _ h => h.elim
  · simp only [hobject]
    exact hread

theorem keeps_instanceTarget (hhost : host.Keeps rules) (htype : rules.admits w.engine type.value) :
    (instanceTarget host type).Keeps rules w := by
  rw [instanceTarget]
  cases hvalue : type.value with
  | object id =>
    apply keepsTo_get_bind
    by_cases hfun : w.engine.isFunction (.object id)
    · simp only [hfun, if_true]
      apply (keepsTo_getProperty hhost htype).bind
      intro found t _ _ _
      cases found with
      | none => exact keeps_pure _
      | some p =>
        dsimp only
        cases p.value with
        | object target => exact keeps_pure _
        | _ => exact keepsTo_throw _
    · simp only [hfun]
      exact keeps_pure _
  | _ => exact keepsTo_throw _

theorem keeps_instanceOf (hhost : host.Keeps rules) (htype : rules.admits w.engine type.value) :
    (instanceOf host v type).Keeps rules w := by
  apply (keeps_instanceTarget hhost htype).bind
  intro target t _ _ _
  cases target with
  | none => exact keeps_pure _
  | some target =>
    cases v.value with
    | object id => exact keeps_ask _
    | _ => exact keeps_pure _

end Operation

def Rules.free : Rules H where
  admits _ _ := True
  yields _ _ := True
  leads := Steps
  holds _ := True
  leads_refl _ := Relation.ReflTransGen.refl
  leads_trans h h' := h.trans h'
  admits_of_leads _ _ := trivial
  yields_of_leads _ _ := trivial
  holds_of_leads _ _ := trivial
  yields_of_admits _ := trivial
  yields_of_ne_object _ := trivial
  yields_of_read _ _ := trivial
  leads_of_change _ h _ _ := h.steps
  leads_of_setPrototype _ h := (Step.setPrototype h).steps
  leads_of_createWithPrototype _ h := (Step.createWithPrototype h).steps

theorem Operation.conforms_iff {a : Operation H α} : a.Conforms ↔ ∀ w, a.Keeps Rules.free w :=
  ⟨fun h w _ => ⟨⟨trivial, h w⟩, fun _ _ => trivial⟩, fun h w => (h w trivial).1.2⟩

theorem Host.Conforms.keeps {host : Host H} (h : host.Conforms) : host.Keeps Rules.free where
  native name this args w _ :=
    (Operation.conforms_iff.mp (h.native name this args) w).mono fun _ _ _ => trivial
  dispatch function environment this args w _ :=
    (Operation.conforms_iff.mp (h.dispatch function environment this args) w).mono
      fun _ _ _ => trivial

namespace Operation

theorem conforms_pure (x : α) : Conforms (pure x : Operation H α) :=
  conforms_iff.mpr fun _ => keeps_pure x

theorem Conforms.bind {a : Operation H α} {f : α → Operation H β} (ha : a.Conforms)
    (hf : ∀ x, (f x).Conforms) : Conforms (a >>= f) :=
  conforms_iff.mpr fun w => (conforms_iff.mp ha w).bind fun x t _ _ _ => conforms_iff.mp (hf x) t

theorem conforms_setProperty [Memory] {host : Host H} (hhost : host.Conforms) (receiver : Box)
    (name : String) (v : Box) : (setProperty host receiver name v).Conforms :=
  conforms_iff.mpr fun _ => keeps_setProperty hhost.keeps fun _ _ => trivial

theorem steps_readDescriptor {host : Host H} (hhost : host.Conforms) (desc : Box) (w : World H) :
    Steps w.engine ((readDescriptor host desc).outcome w).2.engine :=
  (keepsTo_readDescriptor hhost.keeps trivial trivial).1.2

end Operation

/-- A host whose functions do nothing. -/
def Host.idle : Host H := ⟨fun _ _ _ => pure Box.undefined, fun _ _ _ _ => pure Box.undefined⟩

theorem Host.idle_keeps : (Host.idle : Host H).Keeps rules where
  native _ _ _ _ _ := Operation.keepsTo_pure (rules.yields_of_ne_object nofun)
  dispatch _ _ _ _ _ _ := Operation.keepsTo_pure (rules.yields_of_ne_object nofun)

theorem Host.idle_conforms : (Host.idle : Host H).Conforms :=
  ⟨fun _ _ _ => Operation.conforms_pure _, fun _ _ _ _ => Operation.conforms_pure _⟩

end ValueEngine
