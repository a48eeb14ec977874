import ValueEngine.Proofs.Engine.Arrays
import ValueEngine.Proofs.Engine.Definition
import ValueEngine.Proofs.Number.Decimal

/-! The ways to an element of an array. An element is stored by its index, by assigning to the
decimal name of the index, or by defining that name through a descriptor that states a value;
all three come to the same, whatever the prototypes of the array hold under the name. An
element that is there reads the same by its index and by the name. This is an equality of
whole outcomes, refusals and the worlds they leave included: only the box that a descriptor's
value is read into is made on one of the ways and not on the others. -/

namespace ValueEngine

open Number (decimalText arrayIndex? arrayIndex?_decimalText)

namespace Engine

variable {e : Engine} {id : ObjectId} {a : Array Value} {i : ℕ} {name : String} {v : Value}

theorem assignIndex_withBoxes [Memory] (e : Engine) (n : ℕ) (id : ObjectId) (a : Array Value) (i : ℕ)
    (v : Value) :
    ({ e with boxes := n } : Engine).assignIndex id a i v =
      (e.assignIndex id a i v).map fun e' => { e' with boxes := n } := by
  have hcheck : ({ e with boxes := n } : Engine).checkLength (i + 1) = e.checkLength (i + 1) := rfl
  rw [assignIndex, assignIndex, hcheck]
  cases e.checkLength (i + 1) with
  | error f => rfl
  | ok _ => cases Elements.set a i v <;> rfl

theorem assignVirtual?_index [Memory] (ha : (e.object id).elements? = some a)
    (hname : arrayIndex? name = some i) :
    e.assignVirtual? id name v = some (e.assignIndex id a i v) := by
  rw [assignVirtual?, ha]
  dsimp only
  rw [if_neg (ne_length_of_arrayIndex? hname), hname]
  rfl

theorem elementsOf_object (ha : (e.object id).elements? = some a) :
    e.elementsOf (.object id) = .ok (id, a) := by
  rw [elementsOf, ha]

theorem setElement_object [Memory] (ha : (e.object id).elements? = some a) (index : ℤ) (v : Value) :
    e.setElement (.object id) index v =
      if index < 0 then .error .negativeIndex else e.assignIndex id a index.toNat v := by
  rw [setElement_eq, elementsOf_object ha]
  dsimp only [bind, Except.bind]
  split_ifs <;> rfl

theorem getElement_object (ha : (e.object id).elements? = some a) (index : ℤ) :
    e.getElement (.object id) index = .ok (if index < 0 then none else a[index.toNat]?) := by
  rw [getElement, elementsOf_object ha]
  rfl

variable [Library]

/-- A descriptor object that states a value and nothing else. -/
structure StatesOnly (e : Engine) (desc v : Value) : Prop where
  value : e.read desc "value" = .ok (.value v)
  others : ∀ part ∈ Descriptor.partNames.tail, e.read desc part = .ok .absent

/-- The engine with a new object, the literal of a descriptor that states the value. -/
def withLiteral (e : Engine) (v : Value) : Engine :=
  (e.create (.ofClass .plain)).2.modify e.objects.size (·.set "value" v)

theorem statesOnly_literal (e : Engine) (v : Value) :
    (e.withLiteral v).StatesOnly (.object e.objects.size) v := by
  have hsize : e.objects.size < (e.create (.ofClass .plain)).2.objects.size := by
    simp [create, box]
  have hself : (e.withLiteral v).object e.objects.size = (Object.ofClass .plain).set "value" v := by
    rw [withLiteral, object_modify_self _ _ hsize, object_create_self]
  have hnamed := (Object.sound_ofClass .plain none).named?_set "value" v
  constructor
  · have hown : ((e.withLiteral v).object e.objects.size).own? "value" =
        some ⟨"value", .data v, Flags.all⟩ := by
      rw [hself]
      exact hnamed "value"
    exact read_met (lookup_of_own? hown)
  · intro part hpart
    have hne : part ≠ "value" := by
      rintro rfl
      revert hpart
      decide
    refine read_absent (lookupWithin_end ?_ ?_)
    · rw [hself]
      exact (hnamed part).trans (if_neg hne)
    · rw [prototype?, hself]
      rfl

theorem Reachable.withLiteral (he : e.Reachable) (v : Value) : (e.withLiteral v).Reachable := by
  let made := (e.create (.ofClass .plain)).2
  have hobject : made.object e.objects.size = .ofClass .plain := object_create_self e _
  have hvirtual : (made.object e.objects.size).isVirtual "value" = false := by
    rw [hobject]
    rfl
  have hmet : made.lookup e.objects.size "value" = .ok none := by
    refine lookupWithin_end ?_ ?_
    · rw [hobject]
      rfl
    · rw [prototype?, hobject]
      rfl
  have hassigned : made.assign (.object e.objects.size) "value" v =
      .ok (.stored (e.withLiteral v)) := by
    rw [assign_named hvirtual, assignNamed, hmet]
    rfl
  exact (he.steps Step.newObject.steps).steps (Step.assign hassigned).steps

theorem read_withBoxes (e : Engine) (n : ℕ) (v : Value) (name : String) :
    ({ e with boxes := n } : Engine).read v name = e.read v name := by
  have hobjects : ({ e with boxes := n } : Engine).objects = e.objects := rfl
  have hlookup : ∀ id, ({ e with boxes := n } : Engine).lookup id name = e.lookup id name :=
    fun _ => lookupWithin_congr hobjects name
  simp only [read, hlookup]

theorem defineOwn_index [Memory] (ha : (e.object id).elements? = some a)
    (hname : arrayIndex? name = some i) :
    e.defineOwn id name ⟨some v, none, none, none, none, none⟩ = e.assignIndex id a i v := by
  rw [defineOwn_eq, isVirtual_of_arrayIndex? ha hname, if_pos rfl, defineVirtual]
  change (e.assignVirtual? id name v).getD (.ok e) = _
  rw [assignVirtual?_index ha hname, Option.getD_some]

end Engine

namespace Operation

variable [Library] {H : Type} {host : Host H} {w : World H} {b desc : Box} {name : String} {v : Value}

theorem outcome_descriptorPart_value (h : w.engine.read b.value name = .ok (.value v)) :
    (descriptorPart host b name).outcome w = (.ok (some v), w.withBoxes (w.engine.boxes + 1)) := by
  rw [descriptorPart, getProperty, Action.outcome_bind, Action.outcome_bind, outcome_ask, h]
  rfl

theorem outcome_descriptorPart_absent (h : w.engine.read b.value name = .ok .absent) :
    (descriptorPart host b name).outcome w = (.ok none, w) := by
  rw [descriptorPart, getProperty, Action.outcome_bind, Action.outcome_bind, outcome_ask, h]
  rfl

/-- Reading a descriptor that states a value puts the value into a box. -/
theorem outcome_readDescriptor (h : w.engine.StatesOnly desc.value v) :
    (readDescriptor host desc).outcome w =
      (.ok ⟨some v, none, none, none, none, none⟩, w.withBoxes (w.engine.boxes + 1)) := by
  have habsent : ∀ part ∈ Descriptor.partNames.tail,
      (descriptorPart host desc part).outcome (w.withBoxes (w.engine.boxes + 1)) =
        (.ok none, w.withBoxes (w.engine.boxes + 1)) := by
    intro part hpart
    apply outcome_descriptorPart_absent
    exact (w.engine.read_withBoxes _ _ _).trans (h.others part hpart)
  rw [readDescriptor, Action.outcome_bind, outcome_descriptorPart_value h.value]
  dsimp only
  rw [Action.outcome_bind, habsent "writable" (by decide)]
  dsimp only
  rw [Action.outcome_bind, habsent "get" (by decide)]
  dsimp only
  rw [Action.outcome_bind, habsent "set" (by decide)]
  dsimp only
  rw [Action.outcome_bind, habsent "enumerable" (by decide)]
  dsimp only
  rw [Action.outcome_bind, habsent "configurable" (by decide)]
  rfl

end Operation

variable {H : Type} {host : Host H} {w : World H} {receiver desc v : Box} {id : ObjectId}
variable {a : Array Value} {i : ℕ}

namespace Request

variable [Library] [Memory]

theorem outcome_setElement (hr : receiver.value = .object id)
    (ha : (w.engine.object id).elements? = some a) :
    (run host (.setElement receiver i v)).outcome w =
      match w.engine.assignIndex id a i v.value with
      | .ok e => (.ok (), { w with engine := e })
      | .error f => (.error f, w) := by
  rw [run, Operation.update_setElement, Operation.outcome_attempt, hr,
    Engine.setElement_object ha, if_neg (Int.not_lt.mpr (Int.natCast_nonneg i)), Int.toNat_natCast]
  cases w.engine.assignIndex id a i v.value <;> rfl

theorem outcome_setProperty_index (hr : receiver.value = .object id)
    (ha : (w.engine.object id).elements? = some a) (hi : i < maxArrayLength) :
    (run host (.setProperty receiver (decimalText i) v)).outcome w =
      (run host (.setElement receiver i v)).outcome w := by
  rw [outcome_setElement hr ha, run, Operation.setProperty_eq, Action.outcome_bind,
    Operation.outcome_ask, hr, Engine.assign_index ha (arrayIndex?_decimalText hi)]
  cases w.engine.assignIndex id a i v.value <;> rfl

/-- The one box that reading the descriptor has made is all that is left besides. -/
theorem outcome_defineProperty_index (hr : receiver.value = .object id)
    (ha : (w.engine.object id).elements? = some a) (hi : i < maxArrayLength)
    (hdesc : w.engine.StatesOnly desc.value v.value) :
    (run host (.defineProperty receiver (decimalText i) desc)).outcome w =
      let stored := (run host (.setElement receiver i v)).outcome w
      (stored.1, stored.2.withBoxes (w.engine.boxes + 1)) := by
  have hobject : desc.value.object?.isSome := by
    obtain ⟨d, hd, -⟩ := bind_eq_ok hdesc.value
    cases hvalue : desc.value with
    | object _ => rfl
    | _ =>
      rw [hvalue] at hd
      cases hd
  have harray : ((w.withBoxes (w.engine.boxes + 1)).engine.object id).elements? = some a := ha
  rw [run, outcome_defineProperty hr hobject (Operation.outcome_readDescriptor hdesc),
    Engine.defineOwn_index harray (arrayIndex?_decimalText hi), outcome_setElement hr ha]
  change (match Engine.assignIndex { w.engine with boxes := w.engine.boxes + 1 } id a i v.value with
    | .ok _ => _
    | .error _ => _) = _
  rw [Engine.assignIndex_withBoxes]
  cases w.engine.assignIndex id a i v.value <;> rfl

end Request

open Request (run)

/-- **The ways to an element agree.** In every reachable engine, and whatever memory refuses,
storing an element of an array by its index, assigning to the decimal name of the index and
defining that name by a descriptor that states the value have the same result and leave the same
world, but for the box that the value of the descriptor has been read into. Every element of the
array is answered alike by its index and by the name. -/
theorem element_routes_agree [Library] [Memory] (hw : w.engine.Reachable)
    (hr : receiver.value = .object id) (ha : (w.engine.object id).elements? = some a) :
    (∀ i < maxArrayLength, ∀ v : Box,
      let stored := (run host (.setElement receiver i v)).outcome w
      (run host (.setProperty receiver (decimalText i) v)).outcome w = stored ∧
        ∀ desc : Box, w.engine.StatesOnly desc.value v.value →
          (run host (.defineProperty receiver (decimalText i) desc)).outcome w =
            (stored.1, stored.2.withBoxes (w.engine.boxes + 1))) ∧
      ∀ i < a.size, ∃ x, w.engine.getElement receiver.value i = .ok (some x) ∧
        Answers host w receiver (decimalText i) x := by
  refine ⟨fun i hi v => ⟨Request.outcome_setProperty_index hr ha hi,
    fun desc hdesc => Request.outcome_defineProperty_index hr ha hi hdesc⟩, fun i hi => ?_⟩
  have hx : a[i]? = some a[i] := Array.getElem?_eq_getElem hi
  have hname := arrayIndex?_decimalText (hi.trans_le (hw.bounded id a ha))
  refine ⟨a[i], ?_, answers_of_own? hr (Engine.own?_index ha hname hx)⟩
  rw [hr, Engine.getElement_object ha, if_neg (Int.not_lt.mpr (Int.natCast_nonneg i)),
    Int.toNat_natCast, hx]

/-- An array under a prototype that has a read-only property of the name of its first element. -/
def Engine.guarded : Engine :=
  (Request.runAll Host.idle [.newArray, .newObject, .newObject,
    .setProperty ⟨4, .object 2⟩ "value" ⟨5, .null⟩,
    .defineProperty ⟨3, .object 1⟩ "0" ⟨4, .object 2⟩,
    .setPrototype ⟨2, .object 0⟩ ⟨3, .object 1⟩] ⟨Engine.new .standard, Store.empty, ()⟩).engine

theorem Engine.guarded_reachable : Engine.guarded.Reachable :=
  Request.runAll_reachable .standard _

/-- The read-only property keeps no route from storing the element. -/
theorem element_routes_agree_guarded :
    let w : World Unit := ⟨Engine.guarded.withLiteral (.bool true), Store.empty, ()⟩
    let array : Box := ⟨2, .object 0⟩
    let v : Box := ⟨6, .bool true⟩
    let stored := (run Host.idle (.setElement array 0 v)).outcome w
    w.engine.lookup 0 "0" = .ok (some ⟨"0", .data .null, Flags.none⟩) ∧ stored.1 = .ok () ∧
      (run Host.idle (.setProperty array (decimalText 0) v)).outcome w = stored ∧
      (run Host.idle (.defineProperty array (decimalText 0) ⟨7, .object 3⟩)).outcome w =
        (stored.1, stored.2.withBoxes (w.engine.boxes + 1)) ∧
      stored.2.engine.getElement array.value 0 = .ok (some (.bool true)) := by
  intro w array v stored
  have hw : w.engine.Reachable := Engine.guarded_reachable.withLiteral (.bool true)
  have ha : (w.engine.object 0).elements? = some #[] := by decide +kernel
  have hsize : Engine.guarded.objects.size = 3 := by decide +kernel
  have hdesc := Engine.guarded.statesOnly_literal (.bool true)
  rw [hsize] at hdesc
  obtain ⟨hstore, -⟩ :=
    @element_routes_agree Unit Host.idle w array 0 #[] .standard .boundless hw rfl ha
  obtain ⟨hassign, hdefine⟩ := hstore 0 (by decide) v
  exact ⟨by decide +kernel, by decide +kernel, hassign, hdefine ⟨7, .object 3⟩ hdesc,
    by decide +kernel⟩

end ValueEngine
