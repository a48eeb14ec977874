import ValueEngine.Proofs.Engine.Refusals
import ValueEngine.Proofs.Engine.Steps

/-! What a step of the engine does to the objects. Every step leaves the objects alone,
adds fresh ones, or changes one object in one of five ways; each of these carries
what the engine has checked before it. Only two kinds of step touch a prototype link,
and they are told apart from all other changes. -/

namespace ValueEngine

namespace Engine

variable {e e' : Engine} {id : ObjectId}

/-- A modification reaches one object at most. -/
theorem object_modify_cases (e : Engine) (target : ObjectId) (f : Object → Object) (id : ObjectId) :
    (e.modify target f).object id = e.object id ∨
      target = id ∧ (e.modify target f).object id = f (e.object id) := by
  by_cases hid : target = id
  · subst hid
    by_cases hsize : target < e.objects.size
    · exact .inr ⟨rfl, object_modify_self e f hsize⟩
    · have hnone := Array.getElem?_eq_none (Nat.not_lt.mp hsize)
      exact .inl (by simp [object, Engine.modify, Array.getElem?_modify, hnone])
  · exact .inl (object_modify_of_ne e f hid)

/-- Nothing of an engine has changed but one of its objects. -/
structure AltersOnly (e : Engine) (id : ObjectId) (e' : Engine) : Prop where
  rest : e' = { e with objects := e'.objects }
  size : e'.objects.size = e.objects.size
  others : ∀ other, other ≠ id → e'.object other = e.object other

theorem altersOnly_modify (e : Engine) (id : ObjectId) (f : Object → Object) :
    e.AltersOnly id (e.modify id f) where
  rest := rfl
  size := Array.size_modify
  others _ h := object_modify_of_ne e f (Ne.symm h)

theorem AltersOnly.refl (e : Engine) (id : ObjectId) : e.AltersOnly id e :=
  ⟨rfl, rfl, fun _ _ => rfl⟩

theorem object_made {os : List Object} (h : e'.objects = e.objects ++ os.toArray)
    (hid : id < e.objects.size) : e'.object id = e.object id := by
  rw [object, h, Array.getElem?_append_left hid, object]

end Engine

variable [Library]

/-- An object as it is made without prototype: of some class, and if that is not the class
of arrays with data properties stored one after the other. -/
inductive Object.Fresh : Object → Prop
  | ofClass (c : ObjectClass) : Fresh (Object.ofClass c)
  | set {o : Object} (ho : Fresh o) (h : o.elements? = none) (name : String) (v : Value) :
    Fresh (o.set name v)
  | define {o : Object} (ho : Fresh o) (h : o.elements? = none) (name : String) (v : Value)
      (flags : Flags) :
    Fresh (o.define name (.data v) flags)

namespace Engine

/-- What a step does to the objects of an engine if it does not touch the prototype of any. -/
inductive Change (e : Engine) : Engine → Prop
  | none {e' : Engine} (h : e'.objects = e.objects) : Change e e'
  | made {e' : Engine} (os : List Object) (h : e'.objects = e.objects ++ os.toArray)
    (hos : ∀ o ∈ os, o.Fresh) : Change e e'
  | elements (id : ObjectId) (elements : Array Value) (h : (e.object id).elements?.isSome) :
    Change e (e.modify id (·.withElements elements))
  /-- A value is stored under a name that the chain does not have or lets be written. -/
  | stored (id : ObjectId) (name : String) (v : Value)
    (hvirtual : (e.object id).isVirtual name = false)
    (hmet : e.lookup id name = .ok none ∨ ∃ key current flags,
      e.lookup id name = .ok (some ⟨key, .data current, flags⟩) ∧ flags.writable = true) :
    Change e (e.modify id (·.set name v))
  /-- A checked descriptor makes a property. -/
  | defined (id : ObjectId) (name : String) (d : Descriptor) (hd : e.checkDescriptor d = .ok ())
    (hvirtual : (e.object id).isVirtual name = false) (h : (e.object id).named? name = .none) :
    Change e (e.modify id (·.define name d.newSlot d.newFlags))
  /-- A checked descriptor is merged into a property that admits it. -/
  | merged (id : ObjectId) (name : String) (d : Descriptor) (p : Property)
    (hd : e.checkDescriptor d = .ok ()) (hvirtual : (e.object id).isVirtual name = false)
    (h : (e.object id).named? name = some p)
    (hadmitted : p.flags.configurable = true ∨ d.admittedBy p.slot p.flags = true) :
    Change e (e.modify id
      (·.define name (d.merge p.slot p.flags).1 (d.merge p.slot p.flags).2))
  | erased (id : ObjectId) (name : String) (p : Property) (h : (e.object id).named? name = some p)
    (hconfigurable : p.flags.configurable = true) : Change e (e.modify id (·.erase name))

/-- What a step does to the objects of an engine. -/
inductive Effect (e : Engine) : Engine → Prop
  | change {e' : Engine} (h : Change e e') : Effect e e'
  /-- A plain object is made with a prototype. -/
  | derived (proto : Option ObjectId) {e' : Engine}
    (h : e'.objects = e.objects.push { Object.ofClass .plain with prototype := proto }) :
    Effect e e'
  /-- An object is linked to a chain that has been walked to its end without meeting it. -/
  | relinked (id : ObjectId) (proto : Option ObjectId)
    (h : e.leadsTo id e.config.maxPrototypeDepth proto = .ok false) :
    Effect e (e.modify id fun o => { o with prototype := proto })

variable {e e' : Engine} {id : ObjectId} {name : String} {v : Value}

theorem change_assignIndex {elements : Array Value} {i : ℕ}
    (hid : (e.object id).elements? = some elements)
    (h : e.assignIndex id elements i v = .ok e') : Change e e' := by
  obtain ⟨u, -, h⟩ := bind_eq_ok h
  obtain ⟨elements', -, h⟩ := bind_eq_ok h
  cases h
  exact Change.elements id elements' (by rw [hid]; rfl)

theorem change_assignLength {elements : Array Value}
    (hid : (e.object id).elements? = some elements)
    (h : e.assignLength id elements v = .ok e') : Change e e' := by
  rw [assignLength] at h
  cases hn : length? v with
  | none =>
    rw [hn] at h
    cases h
  | some n =>
    rw [hn] at h
    obtain ⟨u, -, h⟩ := bind_eq_ok h
    obtain ⟨elements', -, h⟩ := bind_eq_ok h
    cases h
    exact Change.elements id elements' (by rw [hid]; rfl)

/-- Assigning the length or an element changes the elements only. -/
theorem change_assignVirtual (h : e.assignVirtual? id name v = some (.ok e')) : Change e e' := by
  rw [assignVirtual?] at h
  cases hid : (e.object id).elements? with
  | none =>
    rw [hid] at h
    cases h
  | some elements =>
    rw [hid] at h
    by_cases hlength : name = "length"
    · simp only [hlength, if_true, Option.some.injEq] at h
      exact change_assignLength hid h
    · simp only [hlength, if_false, Option.map_eq_some_iff] at h
      obtain ⟨i, -, h⟩ := h
      exact change_assignIndex hid h

theorem assignNamed_eq_stored (h : e.assignNamed id name v = .ok (.stored e')) :
    e' = e.modify id (·.set name v) ∧ (e.lookup id name = .ok none ∨ ∃ key current flags,
      e.lookup id name = .ok (some ⟨key, .data current, flags⟩) ∧ flags.writable = true) := by
  obtain ⟨found, hfound, h⟩ := bind_eq_ok h
  cases found with
  | none =>
    cases h
    exact ⟨rfl, Or.inl hfound⟩
  | some p =>
    obtain ⟨key, slot, flags⟩ := p
    cases slot with
    | accessor getter setter => cases setter <;> cases h
    | data current =>
      by_cases hw : flags.writable = true
      · simp only [hw, if_true] at h
        cases h
        exact ⟨rfl, Or.inr ⟨key, current, flags, hfound, hw⟩⟩
      · simp only [hw] at h
        cases h

/-- An assignment is that of the length or an element, or of a name in the table. -/
theorem assign_eq_stored {receiver : Value} (h : e.assign receiver name v = .ok (.stored e')) :
    ∃ id, e.assignVirtual? id name v = some (.ok e') ∨
      e.assignVirtual? id name v = none ∧ e.assignNamed id name v = .ok (.stored e') := by
  rw [assign_eq] at h
  obtain ⟨id, -, h⟩ := bind_eq_ok h
  refine ⟨id, ?_⟩
  cases hvirtual : e.assignVirtual? id name v with
  | none =>
    simp only [hvirtual] at h
    exact Or.inr ⟨rfl, h⟩
  | some r =>
    simp only [hvirtual] at h
    obtain ⟨e'', hr, h⟩ := bind_eq_ok h
    cases h
    rw [hr]
    exact Or.inl rfl

theorem change_assign {receiver : Value} (h : e.assign receiver name v = .ok (.stored e')) :
    Change e e' := by
  obtain ⟨id, hvirtual | ⟨hnone, hnamed⟩⟩ := assign_eq_stored h
  · exact change_assignVirtual hvirtual
  · obtain ⟨rfl, hmet⟩ := assignNamed_eq_stored hnamed
    exact Change.stored id name v (assignVirtual?_eq_none_iff.mp hnone) hmet

omit [Library] in
theorem defineVirtual_eq_ok {d : Descriptor} (h : e.defineVirtual id name d = .ok e') :
    e' = e ∨ ∃ v ∈ d.value, e.assignVirtual? id name v = some (.ok e') := by
  rw [defineVirtual] at h
  by_cases hd : d.isAccessor = true
  · rw [if_pos hd] at h
    cases h
  · rw [if_neg hd] at h
    cases hv : d.value with
    | none =>
      rw [hv] at h
      cases h
      exact Or.inl rfl
    | some v =>
      rw [hv] at h
      dsimp only at h
      cases hvirtual : e.assignVirtual? id name v with
      | none =>
        rw [hvirtual] at h
        cases h
        exact Or.inl rfl
      | some r =>
        rw [hvirtual, Option.getD_some] at h
        exact Or.inr ⟨v, rfl, h ▸ hvirtual⟩

theorem change_defineNamed {d : Descriptor} (hd : e.checkDescriptor d = .ok ())
    (hvirtual : (e.object id).isVirtual name = false) (h : e.defineNamed id name d = .ok e') :
    Change e e' := by
  rw [defineNamed] at h
  cases hp : (e.object id).named? name with
  | none =>
    rw [hp] at h
    cases h
    exact Change.defined id name d hd hvirtual hp
  | some p =>
    rw [hp] at h
    dsimp only at h
    by_cases hok : (p.flags.configurable || d.admittedBy p.slot p.flags) = true
    · rw [if_pos hok] at h
      cases h
      exact Change.merged id name d p hd hvirtual hp (Bool.or_eq_true_iff.mp hok)
    · rw [if_neg hok] at h
      cases h

/-- A checked descriptor defines the length or an element, or a name in the table. -/
theorem defineOwn_eq_ok {d : Descriptor} (h : e.defineOwn id name d = .ok e') :
    e.checkDescriptor d = .ok () ∧ (e.defineVirtual id name d = .ok e' ∨
      (e.object id).isVirtual name = false ∧ e.defineNamed id name d = .ok e') := by
  rw [defineOwn_eq] at h
  obtain ⟨⟨⟩, hd, h⟩ := bind_eq_ok h
  refine ⟨hd, ?_⟩
  cases hvirtual : (e.object id).isVirtual name with
  | true =>
    simp only [hvirtual, if_true] at h
    exact Or.inl h
  | false =>
    simp only [hvirtual] at h
    exact Or.inr ⟨rfl, h⟩

theorem change_defineOwn {d : Descriptor} (h : e.defineOwn id name d = .ok e') : Change e e' := by
  obtain ⟨hd, hvirtual | ⟨hvirtual, hnamed⟩⟩ := defineOwn_eq_ok h
  · obtain rfl | ⟨v, -, hv⟩ := defineVirtual_eq_ok hvirtual
    · exact Change.none rfl
    · exact change_assignVirtual hv
  · exact change_defineNamed hd hvirtual hnamed

theorem delete_eq_ok {receiver : Value} {answer : Bool}
    (h : e.delete receiver name = .ok (answer, e')) :
    e' = e ∨ ∃ id p, (e.object id).named? name = some p ∧ p.flags.configurable = true ∧
      e' = e.modify id (·.erase name) := by
  rw [delete_eq] at h
  cases receiver with
  | object id =>
    obtain ⟨found, -, h⟩ := bind_eq_ok h
    by_cases hkeep : ¬ found = true ∨ (e.object id).isVirtual name = true
    · rw [if_pos hkeep] at h
      cases h
      exact Or.inl rfl
    · rw [if_neg hkeep] at h
      cases hp : (e.object id).named? name with
      | none =>
        rw [hp] at h
        cases h
        exact Or.inl rfl
      | some p =>
        rw [hp] at h
        dsimp only at h
        by_cases hc : p.flags.configurable = true
        · rw [if_pos hc] at h
          cases h
          exact Or.inr ⟨id, p, hp, hc, rfl⟩
        · rw [if_neg hc] at h
          cases h
          exact Or.inl rfl
  | _ =>
    cases h
    exact Or.inl rfl

theorem change_delete {receiver : Value} {answer : Bool}
    (h : e.delete receiver name = .ok (answer, e')) : Change e e' := by
  obtain rfl | ⟨id, p, hp, hc, rfl⟩ := delete_eq_ok h
  · exact Change.none rfl
  · exact Change.erased id name p hp hc

omit [Library] in
theorem setElement_eq_ok {receiver : Value} {index : Int}
    (h : e.setElement receiver index v = .ok e') :
    ∃ id a, (e.object id).elements? = some a ∧ e.assignIndex id a index.toNat v = .ok e' := by
  rw [setElement_eq] at h
  obtain ⟨⟨id, a⟩, harray, h⟩ := bind_eq_ok h
  refine ⟨id, a, elementsOf_eq_ok harray, ?_⟩
  by_cases hneg : index < 0
  · simp only [hneg, if_true] at h
    cases h
  · simp only [hneg, if_false] at h
    exact h

theorem change_setElement {receiver : Value} {index : Int}
    (h : e.setElement receiver index v = .ok e') : Change e e' := by
  obtain ⟨id, a, ha, h⟩ := setElement_eq_ok h
  exact change_assignIndex ha h

omit [Library] in
/-- A prototype is set by linking an object to a chain that does not lead back to it. -/
theorem setPrototype_eq_ok {proto : Value} (h : e.setPrototype v proto = .ok e') :
    e' = e ∨ ∃ id target, asPrototype proto = .ok target ∧
      e.leadsTo id e.config.maxPrototypeDepth target = .ok false ∧
      e' = e.modify id fun o => { o with prototype := target } := by
  rw [setPrototype_eq] at h
  by_cases hnothing : v.isNothing = true
  · simp only [hnothing, if_true] at h
    cases h
  · simp only [hnothing] at h
    obtain ⟨target, htarget, h⟩ := bind_eq_ok h
    cases v with
    | object id =>
      obtain ⟨circular, hwalk, h⟩ := bind_eq_ok h
      cases circular with
      | true => cases h
      | false =>
        cases h
        exact Or.inr ⟨id, target, htarget, hwalk, rfl⟩
    | _ =>
      cases h
      exact Or.inl rfl

theorem effect_setPrototype {proto : Value} (h : e.setPrototype v proto = .ok e') :
    Effect e e' := by
  obtain rfl | ⟨id, target, -, hwalk, rfl⟩ := setPrototype_eq_ok h
  · exact Effect.change (Change.none rfl)
  · exact Effect.relinked id target hwalk

theorem change_create {o : Object} (ho : o.Fresh) : Change e (e.create o).2 := by
  refine Change.made [o] ?_ ?_
  · exact Array.push_eq_append
  · intro o' ho'
    rw [List.mem_singleton.mp ho']
    exact ho

theorem change_createArray {n : ℕ} {b : Box} (h : e.createArray n = .ok (b, e')) :
    Change e e' := by
  rw [createArray_eq] at h
  obtain ⟨-, -, h⟩ := bind_eq_ok h
  obtain ⟨elements, -, h⟩ := bind_eq_ok h
  cases h
  exact change_create (Object.Fresh.ofClass _)

omit [Library] in
theorem createWithPrototype_eq_ok {proto : Value} {b : Box}
    (h : e.createWithPrototype proto = .ok (b, e')) :
    ∃ target, asPrototype proto = .ok target ∧
      e.create { Object.ofClass .plain with prototype := target } = (b, e') := by
  rw [createWithPrototype_eq] at h
  cases htarget : asPrototype proto with
  | error f =>
    rw [htarget] at h
    cases h
  | ok target =>
    rw [htarget] at h
    exact ⟨target, rfl, Except.ok.inj h⟩

theorem effect_createWithPrototype {proto : Value} {b : Box}
    (h : e.createWithPrototype proto = .ok (b, e')) : Effect e e' := by
  obtain ⟨target, -, hpair⟩ := createWithPrototype_eq_ok h
  exact Effect.derived target (congrArg (·.2.objects) hpair.symm)

theorem elements?_referenceObject (kind : ExternalKind) (handle environment : UInt64) :
    (referenceObject kind handle environment).elements? = none := by
  cases kind <;> rfl

theorem fresh_referenceObject (kind : ExternalKind) (handle environment : UInt64) :
    (referenceObject kind handle environment).Fresh := by
  have hnone : (Object.ofClass (referencePayload kind handle environment)).elements? = none :=
    elements?_referenceObject kind handle environment
  exact ((Object.Fresh.ofClass _).define hnone _ _ _).define hnone _ _ _

theorem createReference_eq_ok {tag : TypeTag} {handle environment : UInt64} {b : Box}
    (h : e.createReference tag handle environment = .ok (b, e')) :
    ∃ kind : ExternalKind, kind.tag = tag ∧ e.createExternal kind handle environment = (b, e') := by
  rw [createReference_eq, ExternalKind.ofTag?] at h
  cases hkind : ExternalKind.all.find? (·.tag = tag) with
  | none =>
    rw [hkind] at h
    cases h
  | some kind =>
    rw [hkind] at h
    exact ⟨kind, by simpa using List.find?_some hkind, Except.ok.inj h⟩

theorem change_createReference {tag : TypeTag} {handle environment : UInt64} {b : Box}
    (h : e.createReference tag handle environment = .ok (b, e')) : Change e e' := by
  obtain ⟨kind, -, hpair⟩ := createReference_eq_ok h
  cases hpair
  exact change_create (fresh_referenceObject kind handle environment)

/-! ### Building documents -/

section Parse

open Json (Document)

/-- Building a document only adds fresh objects. -/
def Adds (e e' : Engine) : Prop :=
  ∃ os : List Object, e'.objects = e.objects ++ os.toArray ∧ ∀ o ∈ os, o.Fresh

theorem Adds.refl (e : Engine) : Adds e e := ⟨[], by simp, by simp⟩

theorem Adds.trans {e'' : Engine} (h : Adds e e') (h' : Adds e' e'') : Adds e e'' := by
  obtain ⟨os, hos, hfresh⟩ := h
  obtain ⟨os', hos', hfresh'⟩ := h'
  refine ⟨os ++ os', ?_, ?_⟩
  · rw [hos', hos]
    simp
  · intro o ho
    obtain ho | ho := List.mem_append.mp ho
    · exact hfresh o ho
    · exact hfresh' o ho

theorem adds_createValue {o : Object} (ho : o.Fresh) : Adds e (e.createValue o).2 := by
  refine ⟨[o], Array.push_eq_append, ?_⟩
  intro o' ho'
  rw [List.mem_singleton.mp ho']
  exact ho

theorem fresh_foldl_set (ps : List (String × Value)) {o : Object} (ho : o.Fresh)
    (h : o.elements? = none) : (ps.foldl (fun o p => o.set p.1 p.2) o).Fresh := by
  induction ps generalizing o with
  | nil => exact ho
  | cons p ps ih => exact ih (ho.set h p.1 p.2) h

theorem payload_foldl_set (ps : List (String × Value)) (o : Object) :
    (ps.foldl (fun o p => o.set p.1 p.2) o).payload = o.payload ∧
      (ps.foldl (fun o p => o.set p.1 p.2) o).prototype = o.prototype := by
  induction ps generalizing o with
  | nil => exact ⟨rfl, rfl⟩
  | cons p ps ih => exact ih (o.set p.1 p.2)

/-- Adding an array or an object of a document keeps the condition. -/
structure KeptByBuilding (P : Engine → Prop) : Prop where
  list : ∀ e vs, P e → P (e.createValue (.ofClass (.array (Elements.ofList vs)))).2
  object : ∀ e (ps : List (String × Value)), P e →
    P (e.createValue (ps.foldl (fun o p => o.set p.1 p.2) (.ofClass .plain))).2

mutual

theorem build_keeps {P : Engine → Prop} (hP : KeptByBuilding P) {e : Engine} (he : P e) :
    (d : Document) → P (e.build d).2
  | .null => he
  | .bool _ => he
  | .number _ => he
  | .text _ => he
  | .list items => by
    rw [build]
    exact hP.list _ _ (buildItems_keeps hP he items)
  | .object fields => by
    rw [build]
    exact hP.object _ _ (buildFields_keeps hP he fields)

theorem buildItems_keeps {P : Engine → Prop} (hP : KeptByBuilding P) {e : Engine} (he : P e) :
    (ds : List Document) → P (e.buildItems ds).2
  | [] => he
  | d :: ds => by
    rw [buildItems]
    exact buildItems_keeps hP (build_keeps hP he d) ds

theorem buildFields_keeps {P : Engine → Prop} (hP : KeptByBuilding P) {e : Engine} (he : P e) :
    (fs : List (String × Document)) → P (e.buildFields fs).2
  | [] => he
  | f :: fs => by
    rw [buildFields]
    exact buildFields_keeps hP (buildField_keeps hP he f) fs

theorem buildField_keeps {P : Engine → Prop} (hP : KeptByBuilding P) {e : Engine} (he : P e) :
    (f : String × Document) → P (e.buildField f).2
  | (key, d) => by
    rw [buildField]
    exact build_keeps hP he d

end

theorem adds_build (e : Engine) (d : Document) : Adds e (e.build d).2 := by
  refine build_keeps ⟨?_, ?_⟩ (Adds.refl e) d
  · exact fun _ _ h => h.trans (adds_createValue (Object.Fresh.ofClass _))
  · exact fun _ ps h =>
      h.trans (adds_createValue (fresh_foldl_set ps (Object.Fresh.ofClass .plain) rfl))

theorem change_parse {text : String} {b : Box} (h : e.parse text = .ok (b, e')) :
    Change e e' := by
  rw [parse_eq] at h
  cases hd : Library.document? text with
  | none =>
    rw [hd] at h
    cases h
  | some d =>
    rw [hd] at h
    cases h
    obtain ⟨os, hos, hfresh⟩ := adds_build e d
    exact Change.made os hos hfresh

end Parse

theorem Step.effect (h : Step e e') : Effect e e' := by
  cases h with
  | assign h => exact .change (change_assign h)
  | define h => exact .change (change_defineOwn h)
  | delete h => exact .change (change_delete h)
  | setElement h => exact .change (change_setElement h)
  | setPrototype h => exact effect_setPrototype h
  | newObject => exact .change (change_create (Object.Fresh.ofClass _))
  | newArray => exact .change (change_create (Object.Fresh.ofClass _))
  | createArray h => exact .change (change_createArray h)
  | createWithPrototype h => exact effect_createWithPrototype h
  | createReference h => exact .change (change_createReference h)
  | createNative name => exact .change (change_create (Object.Fresh.ofClass _))
  | createSymbol description => exact .change (Change.none rfl)
  | createText bytes length => exact .change (Change.none rfl)
  | parse h => exact .change (change_parse h)
  | box v => exact .change (Change.none rfl)
  | throwException b => exact .change (Change.none rfl)
  | takeException => exact .change (Change.none rfl)
  | registerDispatcher => exact .change (Change.none rfl)

/-! ### Engines that steps lead to -/

section Reach

theorem Change.size_le (h : Change e e') : e.objects.size ≤ e'.objects.size := by
  cases h with
  | none h => exact Nat.le_of_eq (by rw [h])
  | made os h _ =>
    rw [h, Array.size_append]
    exact Nat.le_add_right _ _
  | _ => exact Nat.le_of_eq Array.size_modify.symm

theorem Effect.size_le (h : Effect e e') : e.objects.size ≤ e'.objects.size := by
  cases h with
  | change h => exact h.size_le
  | derived proto h =>
    rw [h, Array.size_push]
    exact Nat.le_succ _
  | relinked => exact Nat.le_of_eq Array.size_modify.symm

theorem Steps.size_le (h : Steps e e') : e.objects.size ≤ e'.objects.size := by
  induction h with
  | refl => exact Nat.le_refl _
  | tail _ hstep ih => exact Nat.le_trans ih hstep.effect.size_le

end Reach

end Engine

end ValueEngine
