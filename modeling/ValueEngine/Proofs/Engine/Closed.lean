import ValueEngine.Proofs.Engine.Search
import ValueEngine.Proofs.Engine.Soundness

/-! Closed engines. A value is an object by its number alone, so it could name an object that
has not been made. An engine is closed if nothing in it does: the properties, the elements, the
prototypes and the pending exception name objects that are there. An engine stays closed as long
as the values that it is given name such objects, and what it answers then does so too; a program
that gets its values from a closed engine can only give back what there is. -/

namespace ValueEngine

/-- A value that is an object is one of the first so many. -/
def Value.Below (n : ℕ) (v : Value) : Prop := ∀ id, v = .object id → id < n

def Slot.Below (n : ℕ) : Slot → Prop
  | data v => v.Below n
  | accessor getter setter => (∀ f ∈ getter, f.Below n) ∧ ∀ f ∈ setter, f.Below n

def Descriptor.values (d : Descriptor) : List Value :=
  d.value.toList ++ (d.getter.toList ++ d.setter.toList)

/-- Everything that is stored in an object is one of the first so many objects, if it is one. -/
structure Object.Below [Library] (n : ℕ) (o : Object) : Prop where
  named : ∀ name p, o.named? name = some p → p.slot.Below n
  elements : ∀ elements, o.elements? = some elements → ∀ v ∈ elements, v.Below n
  prototype : ∀ target, o.prototype = some target → target < n

/-! ### Values of a number of objects -/

section Values

variable {m n : ℕ} {v : Value} {slot : Slot} {d : Descriptor} {stated current : Option Value}

theorem Value.Below.mono (h : v.Below m) (hmn : m ≤ n) : v.Below n :=
  fun id hid => Nat.lt_of_lt_of_le (h id hid) hmn

theorem Value.below_object {id : ObjectId} (h : id < n) : (Value.object id).Below n := by
  rintro id' ⟨⟩
  exact h

theorem Value.below_undefined (n : ℕ) : Value.undefined.Below n := by
  intro id hid
  cases hid

theorem Slot.Below.mono (h : slot.Below m) (hmn : m ≤ n) : slot.Below n := by
  cases slot with
  | data v => exact Value.Below.mono h hmn
  | accessor getter setter =>
    exact ⟨fun f hf => (h.1 f hf).mono hmn, fun f hf => (h.2 f hf).mono hmn⟩

namespace Descriptor

theorem forall_mem_values {P : Value → Prop} : (∀ v ∈ d.values, P v) ↔
    (∀ v ∈ d.value, P v) ∧ (∀ v ∈ d.getter, P v) ∧ ∀ v ∈ d.setter, P v := by
  simp only [values, List.forall_mem_append, Option.mem_toList, Option.mem_def]

theorem below_half (h : ∀ f ∈ stated, f.Below n) : ∀ f ∈ half stated, f.Below n :=
  fun f hf => h f (Option.filter_eq_some_iff.mp hf).1

theorem below_mergedHalf (hstated : ∀ f ∈ stated, f.Below n) (hcurrent : ∀ f ∈ current, f.Below n) :
    ∀ f ∈ mergedHalf stated current, f.Below n := by
  cases stated with
  | none => exact hcurrent
  | some f => exact below_half hstated

theorem below_getD (h : ∀ u ∈ stated, u.Below n) (hv : v.Below n) : (stated.getD v).Below n := by
  cases stated with
  | none => exact hv
  | some u => exact h u rfl

/-- A new property stores what is stated, or undefined. -/
theorem below_newSlot (hd : ∀ v ∈ d.values, v.Below n) : d.newSlot.Below n := by
  obtain ⟨hvalue, hgetter, hsetter⟩ := forall_mem_values.mp hd
  rw [newSlot]
  split_ifs
  · exact ⟨below_half hgetter, below_half hsetter⟩
  · exact below_getD hvalue (Value.below_undefined n)

/-- A merged property stores what is stated, what was there, or undefined. -/
theorem below_merge (hd : ∀ v ∈ d.values, v.Below n) (hslot : slot.Below n) (flags : Flags) :
    (d.merge slot flags).1.Below n := by
  obtain ⟨hvalue, hgetter, hsetter⟩ := forall_mem_values.mp hd
  change (d.mergedSlot slot flags.writable).1.Below n
  rw [mergedSlot.eq_def]
  split_ifs
  · cases slot with
    | data v => exact ⟨below_half hgetter, below_half hsetter⟩
    | accessor getter setter =>
      exact ⟨below_mergedHalf hgetter hslot.1, below_mergedHalf hsetter hslot.2⟩
  · cases slot with
    | data v => exact below_getD hvalue hslot
    | accessor getter setter => exact below_getD hvalue (Value.below_undefined n)
  · exact hslot

end Descriptor

end Values

namespace Elements

variable [Memory] {a b : Array Value} {i n m : ℕ} {v : Value}

theorem below_setLength (ha : ∀ u ∈ a, u.Below m) (h : setLength a n = .ok b) :
    ∀ u ∈ b, u.Below m := by
  rw [setLength_eq] at h
  split_ifs at h
  · cases h
    intro u hu
    obtain ⟨k, hk, hget⟩ := Array.mem_iff_getElem.mp hu
    rw [Array.getElem_extract] at hget
    exact ha u (hget ▸ Array.getElem_mem _)
  · cases h
    intro u hu
    obtain hu | hu := Array.mem_append.mp hu
    · exact ha u hu
    · rw [(Array.mem_replicate.mp hu).2]
      exact Value.below_undefined m

omit [Memory] in
theorem below_setIfInBounds (ha : ∀ u ∈ a, u.Below m) (hv : v.Below m) :
    ∀ u ∈ a.setIfInBounds i v, u.Below m := by
  intro u hu
  obtain hu | rfl := Array.mem_or_eq_of_mem_setIfInBounds hu
  · exact ha u hu
  · exact hv

theorem below_set (ha : ∀ u ∈ a, u.Below m) (hv : v.Below m) (h : set a i v = .ok b) :
    ∀ u ∈ b, u.Below m := by
  rw [set_eq] at h
  split_ifs at h
  · cases h
    exact below_setIfInBounds ha hv
  · cases hpad : setLength a (i + 1) with
    | error _ =>
      rw [hpad] at h
      cases h
    | ok c =>
      rw [hpad] at h
      cases h
      exact below_setIfInBounds (below_setLength ha hpad) hv

end Elements

namespace Object

variable [Library] {o : Object} {m n : ℕ} {name : String} {v : Value} {slot : Slot} {flags : Flags}

namespace Below

theorem mono (h : o.Below m) (hmn : m ≤ n) : o.Below n where
  named name p hp := (h.named name p hp).mono hmn
  elements elements he v hv := (h.elements elements he v hv).mono hmn
  prototype target ht := Nat.lt_of_lt_of_le (h.prototype target ht) hmn

theorem define (h : o.Below n) (ho : o.Sound) (hslot : slot.Below n) :
    (o.define name slot flags).Below n where
  named other p hp := by
    rw [ho.named?_define] at hp
    split_ifs at hp
    · cases hp
      exact hslot
    · exact h.named other p hp
  elements := h.elements
  prototype := h.prototype

theorem set (h : o.Below n) (ho : o.Sound) (hv : v.Below n) : (o.set name v).Below n where
  named other p hp := by
    rw [ho.named?_set] at hp
    split_ifs at hp
    · cases hp
      exact hv
    · exact h.named other p hp
  elements := h.elements
  prototype := h.prototype

theorem erase (h : o.Below n) (ho : o.Sound) : (o.erase name).Below n where
  named other p hp := by
    rw [ho.named?_erase] at hp
    split_ifs at hp
    exact h.named other p hp
  elements := h.elements
  prototype := h.prototype

theorem withElements (h : o.Below n) {elements : Array Value}
    (helements : ∀ v ∈ elements, v.Below n) :
    (o.withElements elements).Below n where
  named := h.named
  elements := by
    rintro _ ⟨⟩
    exact helements
  prototype := h.prototype

theorem withPrototype (h : o.Below n) {proto : Option ObjectId} (hproto : ∀ id ∈ proto, id < n) :
    Below n { o with prototype := proto } where
  named := h.named
  elements := h.elements
  prototype := hproto

/-- An own property of an object stores what the object does, or a length. -/
theorem own? (h : o.Below n) {p : Property} (hp : o.own? name = some p) : p.slot.Below n := by
  rw [Object.own?.eq_def] at hp
  cases he : o.elements? with
  | none =>
    rw [he] at hp
    exact h.named name p hp
  | some elements =>
    rw [he] at hp
    dsimp only at hp
    split_ifs at hp
    · cases hp
      nofun
    · cases hv : (Number.arrayIndex? name).bind (elements[·]?) with
      | none =>
        rw [hv] at hp
        exact h.named name p hp
      | some v =>
        rw [hv] at hp
        cases hp
        obtain ⟨i, -, hi⟩ := Option.bind_eq_some_iff.mp hv
        exact h.elements elements he v (Array.mem_of_getElem? hi)

end Below

theorem below_default : (default : Object).Below n where
  named name p hp := by cases hp
  elements elements he := by cases he
  prototype target ht := by cases ht

theorem below_ofClass {c : ObjectClass} (h : (ofClass c).elements? = none) :
    (ofClass c).Below n where
  named name p hp := by cases hp
  elements elements he := by
    rw [h] at he
    cases he
  prototype target ht := by cases ht

theorem below_ofArray {elements : Array Value} (h : ∀ v ∈ elements, v.Below n) :
    (ofClass (.array elements)).Below n where
  named name p hp := by cases hp
  elements := by
    rintro _ ⟨⟩
    exact h
  prototype target ht := by cases ht

end Object

/-! ### Steps of closed engines -/

namespace Engine

variable {e e' : Engine} {id target : ObjectId} {name : String} {v proto receiver : Value} {b : Box}
variable {o : Object}

/-- A value that refers to an object refers to one that is there. -/
def Knows (e : Engine) (v : Value) : Prop := v.Below e.objects.size

theorem knows_object (h : id < e.objects.size) : e.Knows (.object id) := Value.below_object h

theorem Knows.of_asPrototype (hproto : e.Knows proto) (h : asPrototype proto = .ok (some target)) :
    target < e.objects.size := by
  cases proto with
  | object id =>
    cases h
    exact hproto _ rfl
  | null => cases h
  | _ => cases h

variable [Library]

/-- Whatever an engine stores refers to objects that are there. -/
structure Closed (e : Engine) : Prop where
  objects : ∀ id, (e.object id).Below e.objects.size
  pending : ∀ b ∈ e.pending, e.Knows b.value

/-- After a step that is given some values an engine is closed, if it was before and knows them. -/
def StoresOnly (vs : List Value) (e e' : Engine) : Prop :=
  e.Sound → e.Closed → (∀ v ∈ vs, e.Knows v) → e'.Closed

theorem closed_new (config : Config) : (new config).Closed where
  objects _ := Object.below_default
  pending := nofun

namespace Closed

theorem below_of_objects (he : e.Closed) (h : e'.objects = e.objects) (id : ObjectId) :
    (e'.object id).Below e'.objects.size := by
  rw [object, h]
  exact he.objects id

theorem congr (he : e.Closed) (hobjects : e'.objects = e.objects)
    (hpending : e'.pending = e.pending) :
    e'.Closed where
  objects := he.below_of_objects hobjects
  pending := by
    intro b hb
    rw [hpending] at hb
    rw [Knows, hobjects]
    exact he.pending b hb

theorem modify (he : e.Closed) (hsound : e.Sound) {f : Object → Object}
    (hf : (e.object id).Sound → (e.object id).Below e.objects.size →
      (f (e.object id)).Below e.objects.size) :
    (e.modify id f).Closed := by
  have hsize : (e.modify id f).objects.size = e.objects.size := Array.size_modify
  refine ⟨fun other => ?_, fun b hb => ?_⟩
  · rw [hsize]
    by_cases hid : id < e.objects.size
    · obtain hsame | ⟨rfl, hnew⟩ := object_modify_cases e id f other
      · rw [hsame]
        exact he.objects other
      · rw [hnew]
        exact hf (hsound id hid) (he.objects id)
    · have hnone : e.objects.modify id f = e.objects := by
        apply Array.ext_getElem?
        intro i
        rw [Array.getElem?_modify]
        split_ifs with hi
        · rw [← hi, Array.getElem?_eq_none (Nat.not_lt.mp hid)]
          rfl
        · rfl
      rw [object, Engine.modify, hnone]
      exact he.objects other
  · rw [Knows, hsize]
    exact he.pending b hb

theorem push (he : e.Closed) (ho : o.Below (e.objects.size + 1))
    (hobjects : e'.objects = e.objects.push o)
    (hpending : e'.pending = e.pending) : e'.Closed := by
  have hsize : e'.objects.size = e.objects.size + 1 := by rw [hobjects, Array.size_push]
  refine ⟨fun id => ?_, fun b hb => ?_⟩
  · rw [hsize, object, hobjects, Array.getElem?_push]
    split_ifs
    · exact ho
    · exact (he.objects id).mono (Nat.le_succ _)
  · rw [Knows, hsize]
    rw [hpending] at hb
    exact (he.pending b hb).mono (Nat.le_succ _)

end Closed

theorem storesOnly_assignIndex {a : Array Value} {i : ℕ} (ha : (e.object id).elements? = some a)
    (h : e.assignIndex id a i v = .ok e') : StoresOnly [v] e e' := by
  intro hsound he hv
  obtain ⟨-, -, h⟩ := bind_eq_ok h
  obtain ⟨elements, hset, h⟩ := bind_eq_ok h
  cases h
  refine he.modify hsound fun _ hbelow => hbelow.withElements ?_
  exact Elements.below_set (hbelow.elements a ha) (hv v List.mem_cons_self) hset

theorem storesOnly_assignVirtual (h : e.assignVirtual? id name v = some (.ok e')) :
    StoresOnly [v] e e' := by
  rw [assignVirtual?] at h
  cases ha : (e.object id).elements? with
  | none =>
    rw [ha] at h
    cases h
  | some a =>
    rw [ha] at h
    dsimp only at h
    split_ifs at h
    · rw [Option.some.injEq, assignLength] at h
      cases hn : length? v with
      | none =>
        rw [hn] at h
        cases h
      | some n =>
        rw [hn] at h
        obtain ⟨-, -, h⟩ := bind_eq_ok h
        obtain ⟨elements, hlength, h⟩ := bind_eq_ok h
        cases h
        intro hsound he _
        refine he.modify hsound fun _ hbelow => hbelow.withElements ?_
        exact Elements.below_setLength (hbelow.elements a ha) hlength
    · obtain ⟨i, -, h⟩ := Option.map_eq_some_iff.mp h
      exact storesOnly_assignIndex ha h

theorem storesOnly_assign (h : e.assign receiver name v = .ok (.stored e')) :
    StoresOnly [v] e e' := by
  obtain ⟨id, hvirtual | ⟨-, hnamed⟩⟩ := assign_eq_stored h
  · exact storesOnly_assignVirtual hvirtual
  · obtain ⟨rfl, -⟩ := assignNamed_eq_stored hnamed
    intro hsound he hvs
    have hv := hvs v List.mem_cons_self
    exact he.modify hsound fun ho hbelow => hbelow.set ho hv

theorem storesOnly_setElement {index : Int} (h : e.setElement receiver index v = .ok e') :
    StoresOnly [v] e e' := by
  obtain ⟨id, a, ha, h⟩ := setElement_eq_ok h
  exact storesOnly_assignIndex ha h

theorem storesOnly_defineOwn {d : Descriptor} (h : e.defineOwn id name d = .ok e') :
    StoresOnly d.values e e' := by
  intro hsound he hd
  obtain ⟨-, hvirtual | ⟨-, hnamed⟩⟩ := defineOwn_eq_ok h
  · obtain rfl | ⟨v, hv, hassign⟩ := defineVirtual_eq_ok hvirtual
    · exact he
    · have hknows := (Descriptor.forall_mem_values.mp hd).1 v hv
      exact storesOnly_assignVirtual hassign hsound he (List.forall_mem_singleton.mpr hknows)
  · rw [defineNamed] at hnamed
    cases hp : (e.object id).named? name with
    | none =>
      rw [hp] at hnamed
      cases hnamed
      exact he.modify hsound fun ho hbelow => hbelow.define ho (Descriptor.below_newSlot hd)
    | some p =>
      rw [hp] at hnamed
      dsimp only at hnamed
      split_ifs at hnamed
      cases hnamed
      refine he.modify hsound fun ho hbelow => hbelow.define ho ?_
      exact Descriptor.below_merge hd (hbelow.named name p hp) p.flags

theorem storesOnly_delete {answer : Bool} (h : e.delete receiver name = .ok (answer, e')) :
    StoresOnly [] e e' := by
  intro hsound he _
  obtain rfl | ⟨id, p, -, -, rfl⟩ := delete_eq_ok h
  · exact he
  · exact he.modify hsound fun ho hbelow => hbelow.erase ho

theorem storesOnly_setPrototype (h : e.setPrototype v proto = .ok e') :
    StoresOnly [proto] e e' := by
  intro hsound he hvs
  have hproto := hvs proto List.mem_cons_self
  obtain rfl | ⟨id, target, htarget, -, rfl⟩ := setPrototype_eq_ok h
  · exact he
  · refine he.modify hsound fun _ hbelow => hbelow.withPrototype ?_
    rintro id ⟨⟩
    exact hproto.of_asPrototype htarget

theorem storesOnly_createWithPrototype (h : e.createWithPrototype proto = .ok (b, e')) :
    StoresOnly [proto] e e' := by
  intro _ he hvs
  have hproto := hvs proto List.mem_cons_self
  obtain ⟨target, htarget, hpair⟩ := createWithPrototype_eq_ok h
  cases hpair
  have hplain : (Object.ofClass .plain).Below (e.objects.size + 1) := Object.below_ofClass rfl
  refine he.push (hplain.withPrototype ?_) rfl rfl
  rintro id ⟨⟩
  exact Nat.lt_succ_of_lt (hproto.of_asPrototype htarget)

theorem storesOnly_create (ho : ∀ n, o.Below n) : StoresOnly [] e (e.create o).2 :=
  fun _ he _ => he.push (ho _) rfl rfl

theorem storesOnly_createArray {n : ℕ} (h : e.createArray n = .ok (b, e')) :
    StoresOnly [] e e' := by
  rw [createArray_eq] at h
  obtain ⟨-, -, h⟩ := bind_eq_ok h
  obtain ⟨elements, hlength, h⟩ := bind_eq_ok h
  cases h
  have hempty : ∀ m, ∀ v ∈ (#[] : Array Value), v.Below m :=
    fun _ v hv => absurd hv (Array.not_mem_empty v)
  exact storesOnly_create fun m =>
    Object.below_ofArray (Elements.below_setLength (hempty m) hlength)

theorem storesOnly_createReference {tag : TypeTag} {handle environment : UInt64}
    (h : e.createReference tag handle environment = .ok (b, e')) : StoresOnly [] e e' := by
  obtain ⟨kind, -, hpair⟩ := createReference_eq_ok h
  cases hpair
  refine storesOnly_create fun n => ?_
  have hclass : (Object.ofClass (referencePayload kind handle environment)).elements? = none :=
    elements?_referenceObject kind handle environment
  have hfresh := Object.Fresh.ofClass (referencePayload kind handle environment)
  have hnumber : ∀ x, Slot.Below n (.data (.number x)) := fun _ => nofun
  exact ((Object.below_ofClass hclass).define hfresh.sound (hnumber _)).define
    (hfresh.define hclass _ _ _).sound (hnumber _)

/-- A step that changes no object stores at most another pending exception. -/
theorem storesOnly_pending {vs : List Value} (hobjects : e'.objects = e.objects)
    (hpending : ∀ b ∈ e'.pending, b ∈ e.pending ∨ b.value ∈ vs) : StoresOnly vs e e' := by
  intro _ he hvs
  refine ⟨he.below_of_objects hobjects, fun b hb => ?_⟩
  rw [Knows, hobjects]
  exact (hpending b hb).elim (he.pending b) (hvs b.value)

theorem storesOnly_throwException (b : Box) : StoresOnly [b.value] e (e.throwException b) :=
  storesOnly_pending rfl fun _ hb =>
    .inr (List.mem_singleton.mpr (congrArg _ (Option.some.inj hb).symm))

/-! ### Documents -/

section Parse

open Json (Document)

/-- Values that have been built in an engine, from a closed one on. -/
structure Built (e : Engine) (vs : List Value) (e' : Engine) : Prop where
  closed : e'.Closed
  size_le : e.objects.size ≤ e'.objects.size
  knows : ∀ v ∈ vs, e'.Knows v

theorem Built.scalar (he : e.Closed) (hv : ∀ id, v ≠ .object id) : Built e [v] e :=
  ⟨he, Nat.le_refl _, List.forall_mem_singleton.mpr fun id hid => absurd hid (hv id)⟩

theorem Built.cons {vs : List Value} {t : Engine} (h : Built e [v] t) (h' : Built t vs e') :
    Built e (v :: vs) e' where
  closed := h'.closed
  size_le := h.size_le.trans h'.size_le
  knows := List.forall_mem_cons.mpr
    ⟨(h.knows v List.mem_cons_self).mono h'.size_le, h'.knows⟩

theorem Built.create {vs : List Value} (h : Built e vs e')
    (ho : ∀ n, (∀ v ∈ vs, v.Below n) → o.Below n) :
    Built e [(e'.createValue o).1] (e'.createValue o).2 := by
  have hsize : (e'.createValue o).2.objects.size = e'.objects.size + 1 := Array.size_push _
  have hbelow := ho (e'.objects.size + 1) fun v hv => (h.knows v hv).mono (Nat.le_succ _)
  refine ⟨h.closed.push hbelow rfl rfl, ?_, List.forall_mem_singleton.mpr (knows_object ?_)⟩
  · exact hsize ▸ h.size_le.trans (Nat.le_succ _)
  · exact hsize ▸ Nat.lt_succ_self _

theorem below_list {n : ℕ} {vs : List Value} (h : ∀ v ∈ vs, v.Below n) :
    (Object.ofClass (.array (Elements.ofList vs))).Below n := by
  apply Object.below_ofArray
  intro v hv
  exact h v (List.mem_of_mem_take (List.mem_toArray.mp hv))

theorem below_fields {n : ℕ} {ps : List (String × Value)} (ho : o.Sound)
    (hplain : o.elements? = none)
    (hbelow : o.Below n) (h : ∀ v ∈ ps.map (·.2), v.Below n) :
    (ps.foldl (fun o p => o.set p.1 p.2) o).Below n := by
  induction ps generalizing o with
  | nil => exact hbelow
  | cons p ps ih =>
    rw [List.map_cons, List.forall_mem_cons] at h
    exact ih (ho.set (Object.isVirtual_eq_false_of_elements? hplain p.1) p.2) hplain
      (hbelow.set ho h.1) h.2

mutual

/-- What is built from a document refers to objects that are there. -/
theorem built_build {e : Engine} (he : e.Closed) :
    (d : Document) → Built e [(e.build d).1] (e.build d).2
  | .null => .scalar he nofun
  | .bool _ => .scalar he nofun
  | .number _ => .scalar he nofun
  | .text _ => .scalar he nofun
  | .list items => by
    rw [build]
    exact (built_buildItems he items).create fun _ => below_list
  | .object fields => by
    rw [build]
    exact (built_buildFields he fields).create fun _ =>
      below_fields (Object.Fresh.ofClass .plain).sound rfl (Object.below_ofClass rfl)

theorem built_buildItems {e : Engine} (he : e.Closed) :
    (ds : List Document) → Built e (e.buildItems ds).1 (e.buildItems ds).2
  | [] => ⟨he, Nat.le_refl _, nofun⟩
  | d :: ds => by
    rw [buildItems]
    have hfirst := built_build he d
    exact hfirst.cons (built_buildItems hfirst.closed ds)

theorem built_buildFields {e : Engine} (he : e.Closed) : (fs : List (String × Document)) →
    Built e ((e.buildFields fs).1.map (·.2)) (e.buildFields fs).2
  | [] => ⟨he, Nat.le_refl _, nofun⟩
  | f :: fs => by
    rw [buildFields]
    have hfirst := built_buildField he f
    exact hfirst.cons (built_buildFields hfirst.closed fs)

theorem built_buildField {e : Engine} (he : e.Closed) :
    (f : String × Document) → Built e [(e.buildField f).1.2] (e.buildField f).2
  | (key, d) => by
    rw [buildField]
    exact built_build he d

end

theorem storesOnly_parse {text : String} (h : e.parse text = .ok (b, e')) : StoresOnly [] e e' := by
  intro _ he _
  rw [parse_eq] at h
  cases hd : Library.document? text with
  | none =>
    rw [hd] at h
    cases h
  | some d =>
    rw [hd] at h
    cases h
    exact (built_build he d).closed.congr rfl rfl

end Parse

namespace Closed

/-- Whatever a property on the chain stores is there. -/
theorem below_lookup (he : e.Closed) {p : Property} (h : e.lookup id name = .ok (some p)) :
    p.slot.Below e.objects.size := by
  obtain ⟨-, last, -, -, hown⟩ := lookupWithin_eq_some_iff.mp h
  exact (he.objects last).own? hown

theorem knows_read (he : e.Closed) (h : e.read receiver name = .ok (.value v)) : e.Knows v := by
  obtain ⟨id, -, h⟩ := bind_eq_ok h
  obtain ⟨found, hfound, h⟩ := bind_eq_ok h
  cases found with
  | none => cases h
  | some p =>
    have hbelow := he.below_lookup hfound
    obtain ⟨key, slot, flags⟩ := p
    cases slot with
    | data u =>
      cases h
      exact hbelow
    | accessor getter setter => cases getter <;> cases h

theorem knows_getElement (he : e.Closed) {index : Int}
    (h : e.getElement receiver index = .ok (some v)) : e.Knows v := by
  obtain ⟨⟨id, elements⟩, harray, h⟩ := bind_eq_ok h
  have hfound : (if index < 0 then none else elements[index.toNat]?) = some v := Except.ok.inj h
  split_ifs at hfound
  exact (he.objects id).elements elements (elementsOf_eq_ok harray) v (Array.mem_of_getElem? hfound)

theorem knows_getPrototype (he : e.Closed) (h : e.getPrototype v = .ok (some target)) :
    e.Knows (.object target) := by
  rw [getPrototype] at h
  split_ifs at h
  obtain ⟨id, -, hid⟩ := Option.bind_eq_some_iff.mp (Except.ok.inj h)
  exact knows_object ((he.objects id).prototype target hid)

end Closed

end Engine

end ValueEngine
