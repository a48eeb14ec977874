import Mathlib.Data.Nat.Notation
import Mathlib.Tactic.SplitIfs
import ValueEngine.Engine.Construction
import ValueEngine.Engine.Descriptor
import ValueEngine.Engine.Prototype
import ValueEngine.Engine.Reference
import ValueEngine.Proofs.Action

/-! What updates come to. An update looks at the engine and writes to it step by step. Its
result on an engine, if it has one, is a function of that engine: it checks in the same order
what the update checks, and puts the changed object in place at the end. The functions for the
parts of assignments and definitions are those that later proofs take apart. Storage may be
refused by any memory here; what is said of the result holds whatever the memory does. -/

namespace ValueEngine

open ValueEngine.Action

/-! ### Changes of elements -/

namespace Elements

variable [Memory] {a b : Array Value} {n : ℕ}

theorem result_resize (a : Array Value) (n : ℕ) :
    (resize n).result a =
      if maxArrayLength < n then .error (.lengthTooLarge n)
      else if n ≤ a.size then .ok ((), a.extract 0 n)
      else if Memory.grants a.size (n - a.size) then
        .ok ((), a ++ Array.replicate (n - a.size) .undefined)
      else .error (.cannotAllocate n) := by
  rw [resize, result_get_bind]
  split_ifs <;> rfl

theorem setLength_eq (a : Array Value) (n : ℕ) :
    setLength a n =
      if maxArrayLength < n then .error (.lengthTooLarge n)
      else if n ≤ a.size then .ok (a.extract 0 n)
      else if Memory.grants a.size (n - a.size) then .ok (a ++ Array.replicate (n - a.size) .undefined)
      else .error (.cannotAllocate n) := by
  rw [setLength, final, result_resize]
  split_ifs <;> rfl

theorem set_eq (a : Array Value) (i : ℕ) (v : Value) :
    set a i v =
      if maxArrayLength ≤ i then .error .indexOutOfRange
      else if i < a.size then .ok (a.setIfInBounds i v)
      else (setLength a (i + 1)).map (·.setIfInBounds i v) := by
  rw [set, final, store]
  split_ifs with hmax hi
  · rfl
  · have hreach : (reach i).result a = .ok ((), a) := by
      rw [reach, result_get_bind, if_neg (Nat.not_le.mpr hi)]
      rfl
    rw [result_bind, hreach]
    rfl
  · have hreach : (reach i).result a = (resize (i + 1)).result a := by
      rw [reach, result_get_bind, if_pos (Nat.not_lt.mp hi)]
    rw [result_bind, hreach, setLength, final]
    cases (resize (i + 1)).result a <;> rfl

/-- What any memory grants comes to the same where nothing is refused. -/
theorem setLength_granted (h : setLength a n = .ok b) : @setLength .boundless a n = .ok b := by
  rw [setLength_eq] at h
  rw [@setLength_eq .boundless, if_pos (Memory.grants_boundless _ _)]
  split_ifs at h ⊢
  · exact h
  · exact h

theorem set_granted (h : set a i v = .ok b) : @set .boundless a i v = .ok b := by
  rw [set_eq] at h
  rw [@set_eq .boundless]
  split_ifs at h ⊢
  · exact h
  · cases hpad : setLength a (i + 1) with
    | error _ =>
      rw [hpad] at h
      cases h
    | ok c =>
      rw [hpad] at h
      rw [setLength_granted hpad]
      exact h

theorem size_of_setLength (h : setLength a n = .ok b) : b.size = n := by
  rw [setLength_eq] at h
  split_ifs at h with _ hn
  · cases h
    simp only [Array.size_extract]
    omega
  · cases h
    simp only [Array.size_append, Array.size_replicate]
    omega

end Elements

namespace Engine

variable {α β : Type} {e : Engine} {id : ObjectId}

theorem elementsOf_eq_ok {v : Value} {a : Array Value} (h : e.elementsOf v = .ok (id, a)) :
    (e.object id).elements? = some a := by
  rw [elementsOf.eq_def] at h
  cases v with
  | object id' =>
    dsimp only at h
    cases hid : (e.object id').elements? with
    | none =>
      rw [hid] at h
      cases h
    | some a' =>
      rw [hid] at h
      cases h
      exact hid
  | _ => cases h

namespace Update

theorem result_changeElements {elements : Array Value} (h : (e.object id).elements? = some elements)
    (a : Action (Array Value) Fault Unit) :
    (changeElements id a).result e =
      (a.final elements).map fun changed => ((), e.modify id (·.withElements changed)) := by
  rw [changeElements, result_get_bind, h, final, result, result]
  dsimp only
  rcases a.outcome elements with ⟨_ | _, changed⟩ <;> rfl

theorem result_look_bind (f : Engine → α) (g : α → Update β) :
    (look f >>= g).result e = (g (f e)).result e := rfl

theorem result_ask_bind (f : Engine → Except Fault α) (g : α → Update β) :
    (ask f >>= g).result e = f e >>= fun x => (g x).result e := by
  rw [ask, bind_assoc, result_get_bind, result_ofExcept_bind]

end Update

/-! ### What assignments and definitions come to -/

section Closed

variable [Memory]

/-- What storing an element of an array comes to. -/
def assignIndex (e : Engine) (id : ObjectId) (elements : Array Value) (i : Nat) (v : Value) :
    Except Fault Engine := do
  e.checkLength (i + 1)
  let elements ← Elements.set elements i v
  return e.modify id (·.withElements elements)

/-- What giving an array a length comes to. -/
def assignLength (e : Engine) (id : ObjectId) (elements : Array Value) (v : Value) :
    Except Fault Engine :=
  match length? v with
  | none => .error .invalidLength
  | some n => do
    e.checkLength n
    let elements ← Elements.setLength elements n
    return e.modify id (·.withElements elements)

/-- What assigning the length or an element of an array comes to, if the name is that of one. -/
def assignVirtual? (e : Engine) (id : ObjectId) (name : String) (v : Value) :
    Option (Except Fault Engine) :=
  match (e.object id).elements? with
  | none => none
  | some elements =>
    if name = "length" then some (e.assignLength id elements v)
    else (Number.arrayIndex? name).map fun i => e.assignIndex id elements i v

/-- What assigning to any other name comes to. -/
def assignNamed [Library] (e : Engine) (id : ObjectId) (name : String) (v : Value) :
    Except Fault Assignment := do
  match ← e.lookup id name with
  | some ⟨_, .accessor _ (some f), _⟩ => return .setter f
  | some ⟨_, .accessor _ none, _⟩ => throw (.onlyGetter name)
  | some ⟨_, .data _, flags⟩ =>
    if flags.writable then return .stored (e.modify id (·.set name v)) else throw (.readOnly name)
  | none => return .stored (e.modify id (·.set name v))

def defineVirtual (e : Engine) (id : ObjectId) (name : String) (d : Descriptor) :
    Except Fault Engine :=
  if d.isAccessor then .error .accessorOnElement
  else
    match d.value with
    | none => .ok e
    | some v => (e.assignVirtual? id name v).getD (.ok e)

def defineNamed [Library] (e : Engine) (id : ObjectId) (name : String) (d : Descriptor) :
    Except Fault Engine :=
  match (e.object id).named? name with
  | none => .ok (e.modify id (·.define name d.newSlot d.newFlags))
  | some p =>
    if p.flags.configurable || d.admittedBy p.slot p.flags then
      let (slot, flags) := d.merge p.slot p.flags
      .ok (e.modify id (·.define name slot flags))
    else .error (.cannotRedefine name)

variable {a : Array Value} {name : String} {v receiver proto : Value}

theorem result_storeElement (h : (e.object id).elements? = some a) (i : ℕ) :
    (Update.storeElement id i v).result e = (e.assignIndex id a i v).map ((), ·) := by
  rw [Update.storeElement, Update.result_ask_bind, assignIndex]
  cases e.checkLength (i + 1) with
  | error _ => rfl
  | ok _ =>
    change (Update.changeElements id (Elements.store i v)).result e = _
    rw [Update.result_changeElements h, ← Elements.set]
    cases Elements.set a i v <;> rfl

theorem result_setLength (h : (e.object id).elements? = some a) :
    (Update.setLength id v).result e = (e.assignLength id a v).map ((), ·) := by
  rw [Update.setLength, assignLength]
  cases length? v with
  | none => rfl
  | some n =>
    dsimp only
    rw [Update.result_ask_bind]
    cases e.checkLength n with
    | error _ => rfl
    | ok _ =>
      change (Update.changeElements id (Elements.resize n)).result e = _
      rw [Update.result_changeElements h, ← Elements.setLength]
      cases Elements.setLength a n <;> rfl

theorem result_assignVirtual :
    (Update.assignVirtual id name v).result e =
      match e.assignVirtual? id name v with
      | none => .ok (false, e)
      | some r => r.map (true, ·) := by
  rw [Update.assignVirtual, Update.result_look_bind, assignVirtual?]
  cases ha : (e.object id).elements? with
  | none => rfl
  | some a =>
    dsimp only
    split_ifs
    · rw [result_bind, result_setLength ha]
      cases e.assignLength id a v <;> rfl
    · cases Number.arrayIndex? name with
      | none => rfl
      | some i =>
        dsimp only [Option.map_some]
        rw [result_bind, result_storeElement ha]
        cases e.assignIndex id a i v <;> rfl

/-- Only the length and elements of arrays are not assigned in the table. -/
theorem assignVirtual?_eq_none_iff :
    e.assignVirtual? id name v = none ↔ (e.object id).isVirtual name = false := by
  rw [assignVirtual?, Object.isVirtual, Object.isElementName]
  cases (e.object id).elements? with
  | none => exact ⟨fun _ => rfl, fun _ => rfl⟩
  | some a =>
    by_cases hlength : name = "length"
    · simp [hlength]
    · simp [hlength, Option.map_eq_none_iff]

variable [Library]

omit [Memory] in
theorem result_assignNamed :
    ((Update.assignNamed id name v).result e).map .ofResult = e.assignNamed id name v := by
  rw [Update.assignNamed, Update.result_ask_bind, assignNamed]
  rcases e.lookup id name with _ | _ | ⟨_, _ | ⟨_, _ | _⟩, flags⟩
  · rfl
  · rfl
  · simp only [bind, Except.bind]
    split_ifs <;> rfl
  · rfl
  · rfl

theorem assign_eq :
    e.assign receiver name v = (do
      let id ← receiver.toObject
      match e.assignVirtual? id name v with
      | some r => return .stored (← r)
      | none => e.assignNamed id name v) := by
  rw [assign, Update.assign, result_ofExcept_bind]
  cases receiver.toObject with
  | error _ => rfl
  | ok id =>
    change ((Update.assignVirtual id name v >>= _).result e).map _ =
      match e.assignVirtual? id name v with
      | some r => (do return .stored (← r))
      | none => e.assignNamed id name v
    rw [result_bind, result_assignVirtual]
    rcases e.assignVirtual? id name v with _ | _ | _
    · exact result_assignNamed
    · rfl
    · rfl

omit [Library] in
theorem setElement_eq {index : Int} :
    e.setElement receiver index v = (do
      let (id, elements) ← e.elementsOf receiver
      if index < 0 then throw .negativeIndex
      e.assignIndex id elements index.toNat v) := by
  rw [setElement, final, Update.setElement, Update.result_ask_bind]
  cases helements : e.elementsOf receiver with
  | error _ => rfl
  | ok found =>
    simp only [bind, Except.bind]
    split_ifs
    · rfl
    · rw [result_storeElement (elementsOf_eq_ok helements)]
      cases e.assignIndex found.1 found.2 index.toNat v <;> rfl

omit [Library] in
theorem result_defineVirtual {d : Descriptor} :
    (Update.defineVirtual id name d).result e = (e.defineVirtual id name d).map ((), ·) := by
  rw [Update.defineVirtual, defineVirtual]
  split_ifs
  · rfl
  · cases d.value with
    | none => rfl
    | some v =>
      change (Functor.map _ (Update.assignVirtual id name v)).result e = _
      rw [result_map, result_assignVirtual]
      dsimp only
      rcases e.assignVirtual? id name v with _ | _ | _ <;> rfl

omit [Memory] in
theorem result_defineNamed {d : Descriptor} :
    (Update.defineNamed id name d).result e = (e.defineNamed id name d).map ((), ·) := by
  rw [Update.defineNamed, Update.result_look_bind, defineNamed]
  cases (e.object id).named? name with
  | none => rfl
  | some p =>
    dsimp only
    split_ifs <;> rfl

theorem defineOwn_eq {d : Descriptor} :
    e.defineOwn id name d = (do
      e.checkDescriptor d
      if (e.object id).isVirtual name then e.defineVirtual id name d
      else e.defineNamed id name d) := by
  rw [defineOwn, final, Update.define, Update.result_ask_bind]
  cases e.checkDescriptor d with
  | error _ => rfl
  | ok _ =>
    change ((Update.look _ >>= _).result e).map _ = if _ then _ else _
    rw [Update.result_look_bind]
    split_ifs
    · rw [result_defineVirtual]
      cases e.defineVirtual id name d <;> rfl
    · rw [result_defineNamed]
      cases e.defineNamed id name d <;> rfl

end Closed

/-! ### What is made -/

section Made

theorem createArray_eq [Memory] {n : ℕ} :
    e.createArray n = (do
      e.checkLength n
      return e.create (.ofClass (.array (← Elements.withLength n)))) := by
  rw [createArray, Update.createArray, Update.result_ask_bind]
  simp only [result_ofExcept_bind]
  rfl

theorem createWithPrototype_eq {proto : Value} :
    e.createWithPrototype proto =
      (asPrototype proto).map fun target =>
        e.create { Object.ofClass .plain with prototype := target } := by
  rw [createWithPrototype, Update.createWithPrototype, result_ofExcept_bind]
  cases asPrototype proto <;> rfl

theorem createReference_eq [Library] {tag : TypeTag} {handle environment : UInt64} :
    e.createReference tag handle environment =
      match ExternalKind.ofTag? tag with
      | some kind => .ok (e.createExternal kind handle environment)
      | none => .error (.notExternalKind tag) := by
  rw [createReference, Update.createReference]
  cases ExternalKind.ofTag? tag <;> rfl

theorem parse_eq [Library] {s : String} :
    e.parse s =
      match Library.document? s with
      | some d => .ok ((e.build d).2.box (e.build d).1)
      | none => .error .malformedDocument := by
  rw [parse, Update.parse]
  cases Library.document? s <;> rfl

end Made

/-! ### What is granted

An update that any memory lets pass comes to the same where nothing is refused. -/

section Granted

variable [Memory] {e' : Engine} {a : Array Value} {i n : ℕ} {v : Value} {name : String}

theorem assignIndex_granted (h : e.assignIndex id a i v = .ok e') :
    @assignIndex .boundless e id a i v = .ok e' := by
  obtain ⟨u, hu, h⟩ := bind_eq_ok h
  obtain ⟨elements, hset, h⟩ := bind_eq_ok h
  rw [@assignIndex.eq_def .boundless, hu]
  change (@Elements.set .boundless a i v >>= _) = _
  rw [Elements.set_granted hset]
  exact h

theorem assignLength_granted (h : e.assignLength id a v = .ok e') :
    @assignLength .boundless e id a v = .ok e' := by
  rw [assignLength] at h
  rw [@assignLength.eq_def .boundless]
  cases hn : length? v with
  | none =>
    rw [hn] at h
    cases h
  | some n =>
    rw [hn] at h
    obtain ⟨u, hu, h⟩ := bind_eq_ok h
    obtain ⟨elements, hset, h⟩ := bind_eq_ok h
    dsimp only
    rw [hu]
    change (@Elements.setLength .boundless a n >>= _) = _
    rw [Elements.setLength_granted hset]
    exact h

theorem assignVirtual?_granted (h : e.assignVirtual? id name v = some (.ok e')) :
    @assignVirtual? .boundless e id name v = some (.ok e') := by
  rw [assignVirtual?] at h
  rw [@assignVirtual?.eq_def .boundless]
  cases ha : (e.object id).elements? with
  | none =>
    rw [ha] at h
    cases h
  | some a =>
    rw [ha] at h
    dsimp only at h ⊢
    split_ifs at h ⊢
    · exact congrArg some (assignLength_granted (Option.some.inj h))
    · obtain ⟨i, hi, h⟩ := Option.map_eq_some_iff.mp h
      rw [hi]
      exact congrArg some (assignIndex_granted h)
theorem assign_granted [Library] {receiver : Value} {x : Assignment}
    (h : e.assign receiver name v = .ok x) :
    @assign _ .boundless e receiver name v = .ok x := by
  rw [assign_eq] at h
  rw [@assign_eq _ .boundless]
  obtain ⟨id, hid, h⟩ := bind_eq_ok h
  rw [hid]
  dsimp only [bind, Except.bind] at h ⊢
  cases hvirtual : e.assignVirtual? id name v with
  | none =>
    rw [hvirtual] at h
    rw [assignVirtual?_eq_none_iff] at hvirtual
    rw [(@assignVirtual?_eq_none_iff _ _ .boundless ..).mpr hvirtual]
    exact h
  | some r =>
    cases r with
    | error _ =>
      rw [hvirtual] at h
      cases h
    | ok e' =>
      rw [hvirtual] at h
      rw [assignVirtual?_granted hvirtual]
      exact h

theorem setElement_granted {receiver : Value} {index : Int}
    (h : e.setElement receiver index v = .ok e') :
    @setElement .boundless e receiver index v = .ok e' := by
  rw [setElement_eq] at h
  rw [@setElement_eq _ .boundless]
  obtain ⟨⟨id, a⟩, harray, h⟩ := bind_eq_ok h
  rw [harray]
  simp only [bind, Except.bind] at h ⊢
  split_ifs at h ⊢
  exact assignIndex_granted h

theorem defineVirtual_granted {d : Descriptor} (h : e.defineVirtual id name d = .ok e') :
    @defineVirtual .boundless e id name d = .ok e' := by
  rw [defineVirtual] at h
  rw [@defineVirtual.eq_def .boundless]
  split_ifs at h ⊢
  cases hv : d.value with
  | none =>
    rw [hv] at h
    exact h
  | some v =>
    rw [hv] at h
    dsimp only at h ⊢
    cases hvirtual : e.assignVirtual? id name v with
    | none =>
      rw [hvirtual] at h
      rw [assignVirtual?_eq_none_iff] at hvirtual
      rw [(@assignVirtual?_eq_none_iff _ _ .boundless ..).mpr hvirtual]
      exact h
    | some r =>
      rw [hvirtual, Option.getD_some] at h
      rw [assignVirtual?_granted (hvirtual.trans (congrArg some h))]
      rfl

theorem defineOwn_granted [Library] {d : Descriptor} (h : e.defineOwn id name d = .ok e') :
    @defineOwn _ .boundless e id name d = .ok e' := by
  rw [defineOwn_eq] at h
  rw [@defineOwn_eq _ _ .boundless]
  obtain ⟨u, hd, h⟩ := bind_eq_ok h
  rw [hd]
  change (if _ then _ else _) = _
  split_ifs at h ⊢
  · exact defineVirtual_granted h
  · exact h

theorem createArray_granted {b : Box} (h : e.createArray n = .ok (b, e')) :
    @createArray .boundless e n = .ok (b, e') := by
  rw [createArray_eq] at h
  obtain ⟨u, hn, h⟩ := bind_eq_ok h
  obtain ⟨elements, hlength, h⟩ := bind_eq_ok h
  rw [@createArray_eq _ .boundless, hn]
  change (@Elements.withLength .boundless n >>= _) = _
  rw [@Elements.withLength.eq_def .boundless, Elements.setLength_granted hlength]
  exact h

end Granted

theorem delete_eq [Library] {receiver : Value} {name : String} :
    e.delete receiver name =
      match receiver with
      | .object id => do
        if ¬ (← e.has receiver name) ∨ (e.object id).isVirtual name then return (false, e)
        else
          match (e.object id).named? name with
          | none => return (true, e)
          | some p =>
            if p.flags.configurable then return (true, e.modify id (·.erase name))
            else return (false, e)
      | _ => .ok (false, e) := by
  cases receiver with
  | object id =>
    rw [delete, Update.delete, Update.result_ask_bind]
    refine bind_congr fun found => ?_
    cases found with
    | false => rfl
    | true =>
      simp only [not_true, false_or, if_false]
      rw [Update.result_look_bind]
      split_ifs
      · rfl
      · rw [Update.result_look_bind]
        cases (e.object id).named? name with
        | none => rfl
        | some p =>
          dsimp only
          split_ifs <;> rfl
  | _ => rfl

theorem setPrototype_eq {v proto : Value} :
    e.setPrototype v proto = (do
      if v.isNothing then throw .setPrototypeOfNothing
      let proto ← asPrototype proto
      match v with
      | .object id =>
        if ← e.leadsTo id e.config.maxPrototypeDepth proto then throw .circularChain
        return e.modify id fun o => { o with prototype := proto }
      | _ => return e) := by
  rw [setPrototype, final, Update.setPrototype]
  split_ifs
  · rfl
  · rw [result_ofExcept_bind]
    cases asPrototype proto with
    | error _ => rfl
    | ok proto =>
      cases v with
      | object id =>
        change ((Update.ask _ >>= _).result e).map _ = (do
          if ← e.leadsTo id e.config.maxPrototypeDepth proto then throw .circularChain
          return e.modify id fun o => { o with prototype := proto })
        rw [Update.result_ask_bind]
        dsimp only
        rcases e.leadsTo id e.config.maxPrototypeDepth proto with _ | _ | _ <;> rfl
      | _ => rfl

end Engine

end ValueEngine
