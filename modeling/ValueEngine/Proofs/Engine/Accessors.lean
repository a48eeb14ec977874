import ValueEngine.Proofs.Engine.Assignment
import ValueEngine.Proofs.Engine.Calls
import ValueEngine.Proofs.Engine.Definition
import ValueEngine.Proofs.Engine.Recognition

/-! Accessors. Whatever an accessor of a reachable engine names can be called: a descriptor is
checked before it makes one, and what can be called stays so. Reading and assigning through an
accessor, inherited or not, are therefore a call of the half that is needed, and of nothing
else; the operation itself changes nothing, neither before the call nor after it. The calls
are counted on a host that notes them down, so that one call is told from none and from two;
what the function itself calls is its own affair and is not counted. -/

namespace ValueEngine

/-- The slot is an accessor with this function as one of its halves. -/
inductive Slot.Names : Slot → Value → Prop
  | getter (f : Value) (setter : Option Value) : Names (.accessor (some f) setter) f
  | setter (getter : Option Value) (f : Value) : Names (.accessor getter (some f)) f

theorem Object.Fresh.data [Library] {o : Object} (ho : o.Fresh) {name : String} {p : Property}
    (hp : o.named? name = some p) : ∃ v, p.slot = .data v := by
  induction ho with
  | ofClass c => cases hp
  | set ho _ key v ih =>
    rw [ho.sound.named?_set] at hp
    split_ifs at hp
    · cases hp
      exact ⟨v, rfl⟩
    · exact ih hp
  | define ho _ key v flags ih =>
    rw [ho.sound.named?_define] at hp
    split_ifs at hp
    · cases hp
      exact ⟨v, rfl⟩
    · exact ih hp

namespace Descriptor

variable {e : Engine} {d : Descriptor} {slot : Slot} {flags : Flags} {stated current : Option Value}
variable {f : Value}

theorem isFunction_of_half (hd : e.checkDescriptor d = .ok ())
    (hstated : stated = d.getter ∨ stated = d.setter) (h : half stated = some f) :
    e.isFunction f = true := by
  rw [half, Option.filter_eq_some_iff] at h
  obtain ⟨rfl, hdefined⟩ := h
  obtain rfl | hfunction :=
    (checkDescriptor_eq_ok_iff.mp hd).2 f (hstated.imp Eq.symm Eq.symm)
  · cases hdefined
  · exact hfunction

theorem isFunction_of_mergedHalf (hd : e.checkDescriptor d = .ok ())
    (hstated : stated = d.getter ∨ stated = d.setter) (h : mergedHalf stated current = some f) :
    current = some f ∨ e.isFunction f = true := by
  cases stated with
  | none => exact .inl h
  | some g => exact .inr (isFunction_of_half hd hstated h)

/-- What an accessor names has been named before or is a function, if its halves are. -/
theorem names_accessor {getter setter : Option Value} {P : Value → Prop}
    (hgetter : ∀ f, getter = some f → P f) (hsetter : ∀ f, setter = some f → P f)
    (h : (Slot.accessor getter setter).Names f) : P f := by
  cases h with
  | getter => exact hgetter f rfl
  | setter => exact hsetter f rfl

theorem isFunction_of_newSlot (hd : e.checkDescriptor d = .ok ()) (h : d.newSlot.Names f) :
    e.isFunction f = true := by
  rw [newSlot] at h
  split_ifs at h
  · exact names_accessor (fun _ => isFunction_of_half hd (.inl rfl))
      (fun _ => isFunction_of_half hd (.inr rfl)) h
  · cases h

/-- What a merged accessor names has been named before, or is a function. -/
theorem names_of_merge (hd : e.checkDescriptor d = .ok ()) (h : (d.merge slot flags).1.Names f) :
    slot.Names f ∨ e.isFunction f = true := by
  change (d.mergedSlot slot flags.writable).1.Names f at h
  rw [mergedSlot.eq_def] at h
  split_ifs at h with ha hdata
  · cases slot with
    | data v =>
      exact .inr (names_accessor (fun _ => isFunction_of_half hd (.inl rfl))
        (fun _ => isFunction_of_half hd (.inr rfl)) h)
    | accessor getter setter =>
      refine names_accessor
        (P := fun f => (Slot.accessor getter setter).Names f ∨ e.isFunction f = true)
        (fun g hg => ?_) (fun g hg => ?_) h
      · obtain hold | hfunction := isFunction_of_mergedHalf hd (.inl rfl) hg
        · exact .inl (hold ▸ .getter g setter)
        · exact .inr hfunction
      · obtain hold | hfunction := isFunction_of_mergedHalf hd (.inr rfl) hg
        · exact .inl (hold ▸ .setter getter g)
        · exact .inr hfunction
  · cases slot <;> cases h
  · exact .inl h

end Descriptor

namespace Engine

variable {e e' : Engine} {id : ObjectId} {name : String} {p : Property} {f : Value}

theorem lt_size_of_isFunction (h : e.isFunction (.object id) = true) : id < e.objects.size := by
  by_contra hid
  rw [isFunction, callable?, Value.object?, Option.bind_some, object,
    Array.getElem?_eq_none (Nat.not_lt.mp hid)] at h
  cases h

theorem object_of_made {os : List Object} (h : e'.objects = e.objects ++ os.toArray)
    (hid : id < e'.objects.size) : e'.object id = e.object id ∨ e'.object id ∈ os := by
  by_cases hold : id < e.objects.size
  · exact .inl (object_made h hold)
  · rw [h, Array.size_append] at hid
    have hnew := Nat.sub_lt_left_of_lt_add (Nat.not_lt.mp hold) hid
    rw [object, h, Array.getElem?_append_right (Nat.not_lt.mp hold),
      Array.getElem?_eq_getElem hnew]
    exact .inr (by simp)

variable [Library]

/-- Everything that an accessor names is a function. -/
def NamesFunctions (e : Engine) : Prop :=
  ∀ id name p f, (e.object id).named? name = some p → p.slot.Names f → e.isFunction f = true

/-- A property after the modification of an object has been there before, or is one of the modified
object. -/
theorem named?_of_modify (he : e.Sound) {target : ObjectId} {g : Object → Object}
    (hp : ((e.modify target g).object id).named? name = some p) :
    (e.object id).named? name = some p ∨
      target = id ∧ (e.object id).Sound ∧ (g (e.object id)).named? name = some p := by
  have hid : id < e.objects.size := by
    have hsize := lt_size_of_named? hp
    rwa [Engine.modify, Array.size_modify] at hsize
  obtain hsame | ⟨htarget, hchanged⟩ := object_modify_cases e target g id
  · exact .inl (hsame ▸ hp)
  · exact .inr ⟨htarget, he id hid, hchanged ▸ hp⟩

/-- What an accessor names after a change has been named by an accessor before, or is a function. -/
theorem Change.names_cases (he : e.Sound) (h : Change e e')
    (hp : (e'.object id).named? name = some p) (hf : p.slot.Names f) :
    (∃ q, (e.object id).named? name = some q ∧ q.slot.Names f) ∨ e.isFunction f = true := by
  cases h with
  | none h => exact .inl ⟨p, by rwa [object, h] at hp, hf⟩
  | made os h hos =>
    obtain hsame | hnew := object_of_made h (lt_size_of_named? hp)
    · exact .inl ⟨p, hsame ▸ hp, hf⟩
    · obtain ⟨v, hv⟩ := (hos _ hnew).data hp
      rw [hv] at hf
      cases hf
  | elements target a _ =>
    obtain hold | ⟨-, -, hp⟩ := named?_of_modify he hp
    · exact .inl ⟨p, hold, hf⟩
    · exact .inl ⟨p, hp, hf⟩
  | stored target key v _ _ =>
    obtain hold | ⟨-, ho, hp⟩ := named?_of_modify he hp
    · exact .inl ⟨p, hold, hf⟩
    · rw [ho.named?_set] at hp
      split_ifs at hp
      · cases hp
        cases hf
      · exact .inl ⟨p, hp, hf⟩
  | defined target key d hd _ _ =>
    obtain hold | ⟨-, ho, hp⟩ := named?_of_modify he hp
    · exact .inl ⟨p, hold, hf⟩
    · rw [ho.named?_define] at hp
      split_ifs at hp
      · cases hp
        exact .inr (Descriptor.isFunction_of_newSlot hd hf)
      · exact .inl ⟨p, hp, hf⟩
  | merged target key d q hd _ hq _ =>
    obtain hold | ⟨rfl, ho, hp⟩ := named?_of_modify he hp
    · exact .inl ⟨p, hold, hf⟩
    · rw [ho.named?_define] at hp
      split_ifs at hp with hkey
      · cases hp
        exact (Descriptor.names_of_merge hd hf).imp_left fun h => ⟨q, hkey ▸ hq, h⟩
      · exact .inl ⟨p, hp, hf⟩
  | erased target key q _ _ =>
    obtain hold | ⟨-, ho, hp⟩ := named?_of_modify he hp
    · exact .inl ⟨p, hold, hf⟩
    · rw [ho.named?_erase] at hp
      split_ifs at hp
      exact .inl ⟨p, hp, hf⟩

theorem Effect.names_cases (he : e.Sound) (h : Effect e e')
    (hp : (e'.object id).named? name = some p) (hf : p.slot.Names f) :
    (∃ q, (e.object id).named? name = some q ∧ q.slot.Names f) ∨ e.isFunction f = true := by
  cases h with
  | change h => exact h.names_cases he hp hf
  | derived proto h =>
    rw [Array.push_eq_append] at h
    obtain hsame | hnew := object_of_made h (lt_size_of_named? hp)
    · exact .inl ⟨p, hsame ▸ hp, hf⟩
    · rw [List.mem_singleton.mp hnew] at hp
      cases hp
  | relinked target proto _ =>
    obtain hold | ⟨-, -, hp⟩ := named?_of_modify he hp
    · exact .inl ⟨p, hold, hf⟩
    · exact .inl ⟨p, hp, hf⟩

theorem NamesFunctions.effect (hnames : e.NamesFunctions) (he : e.Sound) (h : Effect e e') :
    e'.NamesFunctions := by
  intro id name p f hp hf
  have hfunction : e.isFunction f = true := by
    obtain ⟨q, hq, hold⟩ | hchecked := h.names_cases he hp hf
    · exact hnames id name q f hq hold
    · exact hchecked
  obtain ⟨target, rfl⟩ := object_of_isFunction hfunction
  have hcallable := h.callable?_eq (lt_size_of_isFunction hfunction)
  simpa only [isFunction, callable?, Value.object?, Option.bind_some, hcallable] using hfunction

theorem Reachable.namesFunctions (he : e.Reachable) : e.NamesFunctions := by
  obtain ⟨config, h⟩ := he
  induction h with
  | refl =>
    intro id name p f hp
    cases Nat.not_lt_zero id (lt_size_of_named? hp)
  | tail hrest hstep ih => exact ih.effect (Reachable.sound ⟨config, hrest⟩) hstep.effect

theorem named?_of_own?_accessor {o : Object} {getter setter : Option Value}
    (hp : o.own? name = some p) (hslot : p.slot = .accessor getter setter) :
    o.named? name = some p := by
  rw [Object.own?] at hp
  cases ha : o.elements? with
  | none => rwa [ha] at hp
  | some a =>
    rw [ha] at hp
    dsimp only at hp
    split_ifs at hp
    · cases hp
      cases hslot
    · cases hv : (Number.arrayIndex? name).bind (a[·]?) with
      | none => rwa [hv] at hp
      | some v =>
        rw [hv] at hp
        cases hp
        cases hslot

theorem assign_accessor {getter setter : Option Value} {flags : Flags} {key : String} {v : Value}
    (hvirtual : (e.object id).isVirtual name = false)
    (hfound : e.lookup id name = .ok (some ⟨key, .accessor getter setter, flags⟩)) :
    e.assign (.object id) name v = setter.elim (.error (.onlyGetter name)) (.ok <| .setter ·) := by
  rw [assign_named hvirtual, assignNamed, hfound]
  cases setter <;> rfl

end Engine

open Operation (getProperty setProperty Delegates Quiet)

variable {H : Type} {host : Host H} {w : World H} {receiver : Box} {id holder : ObjectId}
variable {name key : String} {n : ℕ} {getter setter : Option Value} {flags : Flags}

/-- **Accessors are dispatched to their functions.** In every reachable engine, let the nearest
property of a name that is not a virtual one of the receiver be an accessor, within the bound on
links. Reading calls the getter and assigning the setter, exactly once and with the receiver, if the
function can be run; the result or the fault is that of the function, and so is the world that is
left. Without the half that is needed, reading answers undefined and assigning is refused; nothing
is called then, and nothing changes. Other questions about properties and values call nothing. -/
theorem accessors_are_dispatched [Library] (hw : w.engine.Reachable)
    (hr : receiver.value = .object id)
    (hvirtual : (w.engine.object id).isVirtual name = false)
    (hn : n ≤ w.engine.config.maxPrototypeDepth) (hpasses : w.engine.Passes name n id holder)
    (hp : (w.engine.object holder).own? name = some ⟨key, .accessor getter setter, flags⟩) :
    (∀ f, getter = some f → ∃ c, w.engine.callable? f = some c ∧ (w.engine.Runs c →
        Delegates (fun _ host => getProperty host receiver name) host w ⟨c, receiver, []⟩ some)) ∧
      (∀ f, setter = some f → ∃ c, w.engine.callable? f = some c ∧ (w.engine.Runs c →
        ∀ v, Delegates (fun _ host => setProperty host receiver name v) host w
          ⟨c, receiver, [v]⟩ fun _ => ())) ∧
      (getter = none → (getProperty host receiver name).outcome w = (.ok (some Box.undefined), w) ∧
        Quiet (fun _ host => getProperty host receiver name) host w) ∧
      (setter = none → ∀ v,
        (setProperty host receiver name v).outcome w = (.error (.onlyGetter name), w) ∧
          (Fault.onlyGetter name).kind = .exception ∧
          Quiet (fun _ host => setProperty host receiver name v) host w) ∧
      ∀ {α : Type} (q : Query α), Quiet (fun _ _ => q.run) host w := by
  have hfound : w.engine.lookup id name = .ok (some ⟨key, .accessor getter setter, flags⟩) :=
    Engine.lookupWithin_eq_some_iff.mpr ⟨n, holder, hn, hpasses, hp⟩
  have hread : w.engine.read receiver.value name = .ok (.ofSlot (.accessor getter setter)) := by
    rw [hr, Engine.read_met hfound]
  have hassign (v : Value) : w.engine.assign receiver.value name v =
      setter.elim (.error (.onlyGetter name)) (.ok <| .setter ·) := by
    rw [hr, Engine.assign_accessor hvirtual hfound]
  have hcallable (f : Value) (hf : (Slot.accessor getter setter).Names f) :
      ∃ c, w.engine.callable? f = some c :=
    Option.isSome_iff_exists.mp
      (hw.namesFunctions holder name _ f (Engine.named?_of_own?_accessor hp rfl) hf)
  refine ⟨?_, ?_, ?_, ?_, Operation.quiet_query⟩
  · rintro f rfl
    obtain ⟨c, hc⟩ := hcallable f (.getter f setter)
    exact ⟨c, hc, Operation.delegates_getProperty hread hc⟩
  · rintro f rfl
    obtain ⟨c, hc⟩ := hcallable f (.setter getter f)
    exact ⟨c, hc, fun hruns v => Operation.delegates_setProperty (hassign v.value) hc hruns⟩
  · rintro rfl
    exact Operation.getProperty_unreadable hread
  · rintro rfl v
    obtain ⟨hout, hquiet⟩ := Operation.setProperty_refused host (hassign v.value)
    exact ⟨hout, rfl, hquiet⟩

/-- A function, an object with an accessor of this getter, its descriptor, and an object that
inherits the accessor. -/
def World.inheriting : World Unit :=
  Request.runAll Host.storing [.newFunction "store", .newObject, .newObject,
    .setProperty ⟨4, .object 2⟩ "get" ⟨2, .object 0⟩,
    .defineProperty ⟨3, .object 1⟩ "x" ⟨4, .object 2⟩,
    .newObjectWithPrototype ⟨3, .object 1⟩] ⟨Engine.new .standard, Store.empty, ()⟩

theorem World.inheriting_reachable : inheriting.engine.Reachable :=
  ⟨.standard, Request.runAll_steps Host.storing_conforms _ ⟨Engine.new .standard, Store.empty, ()⟩⟩

/-- The getter is given the heir, and stores into it. -/
theorem accessors_are_dispatched_inherited :
    let w := World.inheriting
    let heir : Box := ⟨6, .object 3⟩
    let call : Invocation := ⟨.native "store", heir, []⟩
    Delegates (fun _ host => getProperty host heir "x") Host.storing w call some ∧
      ((Host.storing.invoke call).outcome w).1.map (·.value) = .ok heir.value ∧
      (((Host.storing.invoke call).outcome w).2.engine.object 3).own? "stored" =
        some ⟨"stored", .data (.object 3), Flags.all⟩ ∧
      (setProperty Host.storing heir "x" heir).outcome w = (.error (.onlyGetter "x"), w) ∧
      Quiet (fun _ _ => (Query.has heir.value "x").run) Host.storing w := by
  intro w heir call
  have hpasses : w.engine.Passes "x" 1 3 1 :=
    .on (by decide +kernel) (by decide +kernel) (.here 1)
  have hp : (w.engine.object 1).own? "x" =
      some ⟨"x", .accessor (some (.object 0)) none, Flags.none⟩ := by decide +kernel
  have hcallable : w.engine.callable? (.object 0) = some (.native "store") := by decide +kernel
  have hheir : heir.value = .object 3 := rfl
  obtain ⟨hget, -, -, hset, hquery⟩ := @accessors_are_dispatched Unit Host.storing w heir 3 1 "x"
    "x" 1 (some (.object 0)) none Flags.none .standard World.inheriting_reachable hheir
    (by decide +kernel)
    (by decide +kernel) hpasses hp
  obtain ⟨c, hc, hdelegates⟩ := hget _ rfl
  cases hcallable.symm.trans hc
  exact ⟨hdelegates nofun, by decide +kernel, by decide +kernel, (hset rfl heir).1, hquery _⟩

end ValueEngine
