import ValueEngine.Engine.Call
import ValueEngine.Proofs.Engine.Updates

/-! Refused updates write nothing. An update could fail between two writes, and what it has
written by then would stay. None does: each looks at everything that can refuse it before its
first write, also at whether there is storage for the elements that pad an array. So an
operation of the engine may be read as one that puts the changed engine in place when the
update has succeeded. -/

namespace ValueEngine

open ValueEngine.Action

namespace Elements

variable [Memory]

theorem atomic_resize (n : ℕ) : (resize n).Atomic := by
  refine looks_get.bind_atomic fun a => ?_
  split_ifs
  · exact (looks_throw _).atomic
  · exact (succeeds_set _).atomic
  · exact (succeeds_set _).atomic
  · exact (looks_throw _).atomic

theorem atomic_reach (i : ℕ) : (reach i).Atomic := by
  refine looks_get.bind_atomic fun a => ?_
  split_ifs
  · exact atomic_resize (i + 1)
  · exact (looks_pure ()).atomic

theorem atomic_store (i : ℕ) (v : Value) : (store i v).Atomic := by
  unfold store
  split_ifs
  · exact (looks_throw _).atomic
  · exact (atomic_reach i).bind_succeeds fun _ => succeeds_modify _

end Elements

namespace Engine

variable {α : Type} {e : Engine} {id : ObjectId}

theorem modify_of_fixed {f : Object → Object} (h : f (e.object id) = e.object id) :
    e.modify id f = e := by
  have hobjects : e.objects.modify id f = e.objects := by
    refine Array.ext (by simp) fun i _ hi => ?_
    rw [Array.getElem_modify]
    split_ifs with hid
    · subst hid
      simpa [object, hi] using h
    · rfl
  rw [modify, hobjects]

theorem withElements_self {o : Object} {a : Array Value} (h : o.elements? = some a) :
    o.withElements a = o := by
  obtain ⟨_ | b | f, p, t⟩ := o
  · cases h
  · cases h
    rfl
  · cases h

/-! ### Updates write last -/

namespace Update

theorem looks_look (f : Engine → α) : (look f).Looks := fun _ => rfl

theorem looks_ask (f : Engine → Except Fault α) : (ask f).Looks := fun e => by
  rw [ask, outcome_bind, outcome_get]
  exact looks_ofExcept _ e

theorem succeeds_write (id : ObjectId) (f : Object → Object) : (write id f).Succeeds :=
  fun _ => ⟨(), _, rfl⟩

theorem succeeds_make (f : Engine → α × Engine) : (make f).Succeeds :=
  fun e => ⟨(f e).1, (f e).2, rfl⟩

theorem atomic_changeElements {a : Action (Array Value) Fault Unit} (ha : a.Atomic) :
    (changeElements id a).Atomic := by
  intro e f t hfail
  rw [changeElements, outcome_bind, outcome_get] at hfail
  dsimp only at hfail
  cases helements : (e.object id).elements? with
  | none =>
    rw [helements] at hfail
    cases hfail
    rfl
  | some elements =>
    rw [helements] at hfail
    rcases hout : a.outcome elements with ⟨r, changed⟩
    simp only [hout] at hfail
    cases r with
    | ok _ => cases hfail
    | error g =>
      obtain rfl := ha elements g changed hout
      calc t = e.modify id (·.withElements changed) := (congrArg Prod.snd hfail).symm
        _ = e := modify_of_fixed (withElements_self helements)

variable {receiver : Value} {name : String}

/-- A prototype is refused before it is written. -/
theorem atomic_setPrototype (v proto : Value) : (setPrototype v proto).Atomic := by
  unfold setPrototype
  split_ifs
  · exact (looks_throw _).atomic
  · refine (looks_ofExcept _).bind_atomic fun proto => ?_
    cases v with
    | object id =>
      refine (looks_ask _).bind_atomic fun closes => ?_
      split_ifs
      · exact (looks_throw _).atomic
      · exact (succeeds_write _ _).atomic
    | _ => exact (looks_pure _).atomic

theorem atomic_createWithPrototype (proto : Value) : (createWithPrototype proto).Atomic :=
  (looks_ofExcept _).bind_atomic fun _ => (succeeds_make _).atomic

theorem atomic_createArray [Memory] (n : ℕ) : (createArray n).Atomic :=
  (looks_ask _).bind_atomic fun _ =>
    (looks_ofExcept _).bind_atomic fun _ => (succeeds_make _).atomic

section Virtual

variable [Memory]

/-- An element is stored after the limit of the engine has been looked at and the storage for
the padding has been granted. -/
theorem atomic_storeElement (id : ObjectId) (i : ℕ) (v : Value) : (storeElement id i v).Atomic :=
  (looks_ask _).bind_atomic fun _ => atomic_changeElements (Elements.atomic_store i v)

theorem atomic_setLength (id : ObjectId) (v : Value) : (setLength id v).Atomic := by
  unfold setLength
  cases length? v with
  | none => exact (looks_throw _).atomic
  | some n =>
    exact (looks_ask _).bind_atomic fun _ => atomic_changeElements (Elements.atomic_resize n)

theorem atomic_assignVirtual (id : ObjectId) (name : String) (v : Value) :
    (assignVirtual id name v).Atomic := by
  refine (looks_look _).bind_atomic fun elements => ?_
  cases elements with
  | none => exact (looks_pure _).atomic
  | some _ =>
    dsimp only
    split_ifs
    · exact (atomic_setLength id v).bind_succeeds fun _ => succeeds_pure _
    · cases Number.arrayIndex? name with
      | none => exact (looks_pure _).atomic
      | some i => exact (atomic_storeElement id i v).bind_succeeds fun _ => succeeds_pure _

/-- Nothing is written if the name is not that of the length or an element of an array. -/
theorem unchanged_of_assignVirtual {id : ObjectId} {v : Value} {e' : Engine}
    (h : (assignVirtual id name v).result e = .ok (false, e')) : e' = e := by
  rw [result_assignVirtual] at h
  obtain hvirtual | ⟨r, hvirtual⟩ := Option.eq_none_or_eq_some (e.assignVirtual? id name v)
  · rw [hvirtual] at h
    cases h
    rfl
  · rw [hvirtual] at h
    cases r <;> cases h

theorem atomic_setElement (receiver : Value) (index : Int) (v : Value) :
    (setElement receiver index v).Atomic := by
  refine (looks_ask _).bind_atomic fun found => ?_
  dsimp only
  split_ifs
  · exact (looks_throw _).atomic
  · exact atomic_storeElement found.1 index.toNat v

theorem atomic_defineVirtual (id : ObjectId) (name : String) (d : Descriptor) :
    (defineVirtual id name d).Atomic := by
  unfold defineVirtual
  split_ifs
  · exact (looks_throw _).atomic
  · cases d.value with
    | none => exact (looks_pure _).atomic
    | some v => exact (atomic_assignVirtual id name v).map _

end Virtual

variable [Library]

theorem atomic_createReference (tag : TypeTag) (handle environment : UInt64) :
    (createReference tag handle environment).Atomic := by
  unfold createReference
  cases ExternalKind.ofTag? tag with
  | none => exact (looks_throw _).atomic
  | some kind => exact (succeeds_make _).atomic

/-- Nothing is built of a text that is not a document. -/
theorem atomic_parse (s : String) : (parse s).Atomic := by
  unfold parse
  cases Library.document? s with
  | none => exact (looks_throw _).atomic
  | some d => exact (succeeds_make _).atomic.bind_succeeds fun _ => succeeds_make _

theorem atomic_delete (receiver : Value) (name : String) : (delete receiver name).Atomic := by
  cases receiver with
  | object id =>
    refine (looks_ask _).bind_atomic fun found => ?_
    cases found with
    | false => exact (looks_pure _).atomic
    | true =>
      refine (looks_look _).bind_atomic fun isElement => ?_
      cases isElement with
      | true => exact (looks_pure _).atomic
      | false =>
        refine (looks_look _).bind_atomic fun p => ?_
        cases p with
        | none => exact (looks_pure _).atomic
        | some p =>
          dsimp only
          split_ifs
          · exact (succeeds_write _ _).atomic.bind_succeeds fun _ => succeeds_pure _
          · exact (looks_pure _).atomic
  | _ => exact (looks_pure _).atomic

/-- An assignment is refused for the property that it meets, before the object is written. -/
theorem atomic_assignNamed (id : ObjectId) (name : String) (v : Value) :
    (assignNamed id name v).Atomic := by
  have hstored : (do write id (·.set name v); return none : Update (Option Value)).Atomic :=
    (succeeds_write _ _).atomic.bind_succeeds fun _ => succeeds_pure _
  refine (looks_ask _).bind_atomic fun found => ?_
  obtain _ | ⟨_, _ | ⟨_, _ | _⟩, flags⟩ := found
  · exact hstored
  · dsimp only
    split_ifs
    · exact hstored
    · exact (looks_throw _).atomic
  · exact (looks_throw _).atomic
  · exact (looks_pure _).atomic

theorem unchanged_of_assignNamed {id : ObjectId} {v f : Value} {e' : Engine}
    (h : (assignNamed id name v).result e = .ok (some f, e')) : e' = e := by
  rw [assignNamed, result_ask_bind] at h
  obtain ⟨found, -, h⟩ := bind_eq_ok h
  obtain _ | ⟨_, _ | ⟨_, _ | _⟩, flags⟩ := found
  · cases h
  · dsimp only at h
    split_ifs at h
    · cases h
    · cases h
  · cases h
  · cases h
    rfl

theorem atomic_defineNamed (id : ObjectId) (name : String) (d : Descriptor) :
    (defineNamed id name d).Atomic := by
  refine (looks_look _).bind_atomic fun p => ?_
  cases p with
  | none => exact (succeeds_write _ _).atomic
  | some p =>
    dsimp only
    split_ifs
    · exact (succeeds_write _ _).atomic
    · exact (looks_throw _).atomic

variable [Memory]

theorem unchanged_of_assign {v f : Value} {e' : Engine}
    (h : (assign receiver name v).result e = .ok (some f, e')) : e' = e := by
  rw [assign, result_ofExcept_bind] at h
  obtain ⟨id, -, h⟩ := bind_eq_ok h
  rw [result_bind] at h
  obtain ⟨⟨isElement, t⟩, hvirtual, hrest⟩ := bind_eq_ok h
  cases isElement with
  | true => cases hrest
  | false =>
    obtain rfl := unchanged_of_assignVirtual hvirtual
    exact unchanged_of_assignNamed hrest

theorem atomic_assign (receiver : Value) (name : String) (v : Value) :
    (assign receiver name v).Atomic := by
  refine (looks_ofExcept _).bind_atomic fun id => ?_
  refine (atomic_assignVirtual id name v).bind fun e isElement e' hout => ?_
  cases isElement with
  | false =>
    have hsame := unchanged_of_assignVirtual (result_of_outcome hout)
    exact .inl ⟨hsame, atomic_assignNamed id name v⟩
  | true => exact .inr (succeeds_pure _)

/-- A definition is refused for its descriptor or the property that it meets, before the object
is written. -/
theorem atomic_define (id : ObjectId) (name : String) (d : Descriptor) :
    (define id name d).Atomic := by
  refine (looks_ask _).bind_atomic fun _ => ?_
  refine (looks_look _).bind_atomic fun isElement => ?_
  split_ifs
  · exact atomic_defineVirtual id name d
  · exact atomic_defineNamed id name d

end Update

end Engine

/-! ### Operations by what their updates come to -/

namespace Operation

open Engine (Update)

variable {H α : Type}

theorem outcome_ask (f : Engine → Except Fault α) (w : World H) :
    (ask f : Operation H α).outcome w = (f w.engine, w) := by
  rw [ask, Action.outcome_bind, Action.outcome_get]
  exact Action.outcome_ofExcept _ _

theorem outcome_update (u : Update α) (w : World H) :
    (update u).outcome w =
      ((u.outcome w.engine).1, { w with engine := (u.outcome w.engine).2 }) := by
  rw [update, outcome_bind, outcome_get]
  dsimp only
  rw [outcome_bind, outcome_set]
  exact outcome_ofExcept _ _

theorem outcome_attempt (f : Engine → Except Fault (α × Engine)) (w : World H) :
    (attempt f).outcome w =
      match f w.engine with
      | .ok (x, e) => (.ok x, { w with engine := e })
      | .error g => (.error g, w) := by
  rw [attempt, outcome_bind, outcome_get]
  dsimp only
  rw [outcome_bind, outcome_ofExcept]
  cases f w.engine <;> rfl

/-- An update that writes last is one that changes the engine if it succeeds and otherwise
nothing. -/
theorem update_eq_attempt {u : Update α} (hu : u.Atomic) :
    (update u : Operation H α) = attempt u.result := by
  refine Action.ext fun w => ?_
  rw [outcome_update, outcome_attempt, hu.outcome_eq]
  cases u.result w.engine <;> rfl

theorem update_eq_attempt_final {u : Update Unit} (hu : u.Atomic) :
    (update u : Operation H Unit) = attempt fun e => return ((), ← u.final e) := by
  rw [update_eq_attempt hu]
  congr 1
  funext e
  rw [final]
  cases u.result e <;> rfl

theorem update_delete [Library] (receiver : Value) (name : String) :
    (update (.delete receiver name) : Operation H Bool) = attempt (·.delete receiver name) :=
  update_eq_attempt (Update.atomic_delete receiver name)

variable [Memory] {host : Host H} {receiver v desc : Box} {name : String}

theorem update_setElement (receiver : Value) (index : Int) (v : Value) :
    (update (.setElement receiver index v) : Operation H Unit) =
      attempt fun e => return ((), ← e.setElement receiver index v) :=
  update_eq_attempt_final (Update.atomic_setElement receiver index v)

variable [Library]

theorem setProperty_eq :
    setProperty host receiver name v = (do
      match ← ask (·.assign receiver.value name v.value) with
      | .stored e => modify fun w => { w with engine := e }
      | .setter f => discard (callValue host f receiver [v])) := by
  rw [setProperty, update_eq_attempt (Update.atomic_assign _ _ _)]
  refine Action.ext fun w => ?_
  rw [outcome_bind, outcome_bind, outcome_attempt, outcome_ask, Engine.assign]
  rcases hresult : (Update.assign receiver.value name v.value).result w.engine with _ | ⟨_ | f, e⟩
  · rfl
  · rfl
  · obtain rfl := Update.unchanged_of_assign hresult
    rfl

theorem defineProperty_eq :
    defineProperty host receiver name desc = (do
      let id ← .ofExcept receiver.value.toObject
      if desc.value.object?.isNone then throw .descriptorNotObject
      let d ← readDescriptor host desc
      attempt fun e => return ((), ← e.defineOwn id name d)) := by
  simp only [defineProperty, update_eq_attempt_final (Update.atomic_define _ _ _)]
  rfl

end Operation

end ValueEngine
