import ValueEngine.Proofs.Engine.Acyclic
import ValueEngine.Proofs.Engine.Assignment
import ValueEngine.Proofs.Engine.Atomicity
import ValueEngine.Proofs.Property.SlotOrder

/-! The law of deletion. A deletion answers yes exactly if the name is found, is not one that
an array answers from its elements, and is not held by the object itself as a property that
is not configurable. Nothing but that property goes then, so that the name reads on the
object as it does on the rest of its chain; a deletion that answers no changes nothing, and
the one way to fail is a search that does not come to an end within the depth limit. -/

namespace ValueEngine

namespace Object.Sound

variable [Library] {o : Object} {name : String}

theorem toList_erase (ho : o.Sound) (name : String) :
    (o.erase name).properties.toList = o.properties.toList.filter (·.key ≠ name) := by
  obtain ⟨m, hs⟩ := ho.lawful
  exact Property.Table.toList_erase hs.wellFormed name

theorem own?_erase (ho : o.Sound) (hvirtual : o.isVirtual name = false) (n : String) :
    (o.erase name).own? n = if n = name then none else o.own? n := by
  by_cases hn : n = name
  · have hplain : (o.erase name).isVirtual n = false := by
      rw [hn]
      exact hvirtual
    rw [if_pos hn, Object.own?_eq_named? hplain, ho.named?_erase, if_pos hn]
  · have hnamed : (o.erase name).named? n = o.named? n := by
      rw [ho.named?_erase, if_neg hn]
    rw [if_neg hn, Object.own?, Object.own?, hnamed]
    rfl

theorem filter_toList (ho : o.Sound) (hnone : o.named? name = none) :
    o.properties.toList.filter (·.key ≠ name) = o.properties.toList := by
  have hfind : o.properties.find? Library.hash name = none := by
    obtain ⟨m, hs⟩ := ho.lawful
    cases hx : m.lookup name with
    | none => exact hs.find?_eq_none hx
    | some x =>
      have hget := hs.agrees.get? name
      rw [hx] at hget
      cases hnone.symm.trans hget
  have herase : (o.erase name).properties = o.properties := by
    rw [Object.erase, Property.Table.erase, hfind]
  rw [← ho.toList_erase, herase]

end Object.Sound

namespace Engine

variable [Library] {e e' : Engine} {id : ObjectId} {ids : List ObjectId} {name : String}
variable {p : Property}

/-- What a search for a name that has left an object behind comes to. -/
def lookupPast (e : Engine) (id : ObjectId) (name : String) : Except Fault (Option Property) :=
  match e.prototype? id, e.config.maxPrototypeDepth with
  | none, _ => .ok none
  | some _, 0 => .error .chainTooDeep
  | some next, links + 1 => e.lookupWithin name links next

theorem lookup_eq_lookupPast (hnone : (e.object id).own? name = none) :
    e.lookup id name = e.lookupPast id name := by
  rw [lookup, lookupPast]
  cases hnext : e.prototype? id with
  | none => exact lookupWithin_end hnone hnext
  | some next =>
    cases e.config.maxPrototypeDepth with
    | zero => exact lookupWithin_zero hnone hnext
    | succ links => exact lookupWithin_succ hnone hnext

/-- On a chain that ends, what stands behind an object is the same after a change to the object. -/
theorem lookupPast_of_chain (hchain : e.Chain (some id) ids) (honly : e.AltersOnly id e')
    (hprototype : e'.prototype? id = e.prototype? id) :
    e'.lookupPast id name = e.lookupPast id name := by
  have hconfig : e'.config = e.config := by rw [honly.rest]
  rw [lookupPast, lookupPast, hconfig, hprototype]
  cases hnext : e.prototype? id with
  | none => rfl
  | some next =>
    cases e.config.maxPrototypeDepth with
    | zero => rfl
    | succ links =>
      have hnodup := hchain.nodup
      cases hchain with
      | cons hrest =>
        rw [hnext] at hrest
        -- The search stays on chains that do not come back to the object.
        refine lookupWithin_congr_of (P := fun other => ∃ l, e.Chain (some other) l ∧ id ∉ l)
          ⟨_, hrest, (List.nodup_cons.mp hnodup).1⟩ ?_ ?_ name
        · rintro other next ⟨l, hl, hnot⟩ hnext
          cases hl with
          | cons hbehind =>
            exact ⟨_, hnext ▸ hbehind, fun hmem => hnot (List.mem_cons_of_mem other hmem)⟩
        · rintro other ⟨l, hl, hnot⟩
          cases hl with
          | cons => exact honly.others other fun heq => hnot (heq ▸ List.mem_cons_self)

/-- A deletion of the name is answered by yes: the name is found, the object does not answer it
from elements, and it holds no property of the name that is not configurable. -/
structure Deletable (e : Engine) (id : ObjectId) (name : String) : Prop where
  reached : ¬ e.TooDeep name id
  found : ∃ p, e.Nearest name id p
  plain : (e.object id).isVirtual name = false
  configurable : ∀ p, (e.object id).own? name = some p → p.flags.configurable = true

/-- What a deletion does that answers yes. -/
structure Deleted (e : Engine) (id : ObjectId) (name : String) (e' : Engine) : Prop where
  only : e.AltersOnly id e'
  prototype : (e'.object id).prototype = (e.object id).prototype
  payload : (e'.object id).payload = (e.object id).payload
  own : (e'.object id).own? name = none
  named : ∀ n, n ≠ name → (e'.object id).own? n = (e.object id).own? n
  /-- The properties that are left keep their order. -/
  order : (e'.object id).properties.toList = (e.object id).properties.toList.filter (·.key ≠ name)
  /-- A search of the name goes on behind the object. -/
  search : e'.lookup id name = e'.lookupPast id name
  /-- What it meets there has been there before; all chains end that programs can make. -/
  past : ∀ ids, e.Chain (some id) ids → e'.lookupPast id name = e.lookupPast id name
  /-- Without prototype there is nothing left to read. -/
  absent : (e.object id).prototype = none → e'.read (.object id) name = .ok .absent

/-- An object that is not there has no property, not even one that it inherits. -/
theorem Nearest.lt_size (h : e.Nearest name id p) : id < e.objects.size := by
  by_contra hid
  have hobject : e.object id = default := by
    rw [object, Array.getElem?_eq_none (Nat.not_lt.mp hid)]
    rfl
  obtain ⟨n, last, hpasses, hp⟩ := h
  cases hpasses with
  | here =>
    rw [hobject] at hp
    cases hp
  | on _ hnext _ =>
    rw [prototype?, hobject] at hnext
    cases hnext

/-- An engine in which an object has lost the name, and only that, is one after its deletion. -/
theorem deleted_of_own? (honly : e.AltersOnly id e')
    (hprototype : (e'.object id).prototype = (e.object id).prototype)
    (hpayload : (e'.object id).payload = (e.object id).payload)
    (hown : ∀ n, (e'.object id).own? n = if n = name then none else (e.object id).own? n)
    (horder : (e'.object id).properties.toList =
      (e.object id).properties.toList.filter (·.key ≠ name)) : e.Deleted id name e' := by
  have hnone : (e'.object id).own? name = none := by rw [hown, if_pos rfl]
  refine ⟨honly, hprototype, hpayload, hnone, fun n hn => by rw [hown, if_neg hn], horder,
    lookup_eq_lookupPast hnone, fun ids hchain => lookupPast_of_chain hchain honly hprototype, ?_⟩
  intro hend
  exact read_absent (lookupWithin_end hnone (hprototype.trans hend))

theorem deleted_erase (ho : (e.object id).Sound) (hid : id < e.objects.size)
    (hvirtual : (e.object id).isVirtual name = false) :
    e.Deleted id name (e.modify id (·.erase name)) := by
  have hself := object_modify_self e (·.erase name) hid
  refine deleted_of_own? (altersOnly_modify e id _) ?_ ?_ ?_ ?_
  · rw [hself]
    rfl
  · rw [hself]
    rfl
  · rw [hself]
    exact ho.own?_erase hvirtual
  · rw [hself]
    exact ho.toList_erase name

theorem deleted_self (ho : (e.object id).Sound) (hnone : (e.object id).named? name = none)
    (hvirtual : (e.object id).isVirtual name = false) : e.Deleted id name e := by
  refine deleted_of_own? (.refl e id) rfl rfl (fun n => ?_)
    (ho.filter_toList hnone).symm
  split_ifs with hn
  · rw [hn, Object.own?_eq_named? hvirtual, hnone]
  · rfl

theorem delete_object (e : Engine) (id : ObjectId) (name : String) :
    e.delete (.object id) name =
      match e.lookup id name with
      | .error f => .error f
      | .ok none => .ok (false, e)
      | .ok (some _) =>
        if (e.object id).isVirtual name then .ok (false, e)
        else
          match (e.object id).named? name with
          | none => .ok (true, e)
          | some p =>
            if p.flags.configurable then .ok (true, e.modify id (·.erase name))
            else .ok (false, e) := by
  rw [delete_eq]
  dsimp only
  rw [has_object]
  rcases e.lookup id name with f | _ | p
  · rfl
  · rfl
  · cases (e.object id).isVirtual name <;> rfl

/-- A deletion fails for the depth of the chain, deletes, or answers no. -/
theorem delete_cases (he : e.Sound) (id : ObjectId) (name : String) :
    (e.TooDeep name id ∧ e.delete (.object id) name = .error .chainTooDeep) ∨
      (e.Deletable id name ∧ ∃ e', e.delete (.object id) name = .ok (true, e') ∧
        e.Deleted id name e') ∨
      ¬ e.TooDeep name id ∧ ¬ e.Deletable id name ∧
        e.delete (.object id) name = .ok (false, e) := by
  rw [delete_object]
  by_cases hdeep : e.TooDeep name id
  · rw [lookup_of_tooDeep hdeep]
    exact .inl ⟨hdeep, rfl⟩
  · right
    obtain ⟨p, hnearest, hfound⟩ | ⟨hnone, hfound⟩ := lookup_of_not_tooDeep hdeep
    · rw [hfound]
      dsimp only
      have ho := he id hnearest.lt_size
      cases hvirtual : (e.object id).isVirtual name with
      | true =>
        rw [if_pos rfl]
        exact .inr ⟨hdeep, fun h => Bool.false_ne_true (h.plain.symm.trans hvirtual), rfl⟩
      | false =>
        rw [if_neg Bool.false_ne_true]
        have hown : (e.object id).own? name = _ := Object.own?_eq_named? hvirtual
        cases hnamed : (e.object id).named? name with
        | none =>
          have hconfigurable : ∀ p, (e.object id).own? name = some p →
              p.flags.configurable = true := by
            intro p hp
            cases hnamed.symm.trans (hown.symm.trans hp)
          exact .inl ⟨⟨hdeep, ⟨p, hnearest⟩, hvirtual, hconfigurable⟩, e, rfl,
            deleted_self ho hnamed hvirtual⟩
        | some q =>
          rw [hnamed] at hown
          dsimp only
          cases hq : q.flags.configurable with
          | true =>
            refine .inl ⟨⟨hdeep, ⟨p, hnearest⟩, hvirtual, fun q' hq' => ?_⟩, _, rfl,
              deleted_erase ho hnearest.lt_size hvirtual⟩
            cases hown.symm.trans hq'
            exact hq
          | false =>
            refine .inr ⟨hdeep, fun h => ?_, rfl⟩
            cases hq.symm.trans (h.configurable q hown)
    · rw [hfound]
      exact .inr ⟨hdeep, fun h => h.found.elim hnone, rfl⟩

end Engine

variable {H : Type} {w : World H}

/-- **The law of deletion.** In every reachable engine, a deletion answers yes exactly if it is
asked of an object and the name may be deleted there. The object then has no property of the
name, a search of the name goes on behind the object, and nothing else has changed. A deletion
that answers no or fails changes nothing, and it fails only where the chain goes on past the
depth limit without the name. -/
theorem deletion_law [Library] (hw : w.engine.Reachable) (receiver : Box) (name : String) :
    let result := (Operation.update (.delete receiver.value name)).outcome w
    (result.1 = .ok true ↔ ∃ id, receiver.value = .object id ∧ w.engine.Deletable id name) ∧
      (result.1 = .ok true → ∀ id, receiver.value = .object id →
        ∃ e, result.2 = { w with engine := e } ∧ w.engine.Deleted id name e) ∧
      (result.1 ≠ .ok true → result.2 = w) ∧
      ∀ f, result.1 = .error f ↔
        f = .chainTooDeep ∧ ∃ id, receiver.value = .object id ∧ w.engine.TooDeep name id := by
  intro result
  have hresult : result = _ := congrArg (Action.outcome · w) (Operation.update_delete _ _)
  rw [Operation.outcome_attempt] at hresult
  cases hreceiver : receiver.value with
  | object id =>
    simp only [Value.object.injEq, exists_eq_left', forall_eq']
    rw [hreceiver] at hresult
    obtain ⟨hdeep, hout⟩ | ⟨hdeletable, e, hout, hdeleted⟩ | ⟨hdeep, hnot, hout⟩ :=
      Engine.delete_cases hw.sound id name
    · rw [hout] at hresult
      rw [hresult]
      refine ⟨⟨nofun, fun h => absurd hdeep h.reached⟩, nofun, fun _ => rfl, fun f => ?_⟩
      exact ⟨fun h => ⟨(Except.error.inj h).symm, hdeep⟩, fun h => by rw [h.1]⟩
    · rw [hout] at hresult
      rw [hresult]
      refine ⟨⟨fun _ => hdeletable, fun _ => rfl⟩, fun _ => ⟨e, rfl, hdeleted⟩,
        fun h => absurd rfl h, fun f => ⟨nofun, fun h => absurd h.2 hdeletable.reached⟩⟩
    · rw [hout] at hresult
      rw [hresult]
      exact ⟨⟨nofun, fun h => absurd h hnot⟩, nofun, fun _ => rfl,
        fun f => ⟨nofun, fun h => absurd h.2 hdeep⟩⟩
  | _ =>
    rw [hreceiver] at hresult
    rw [hresult]
    exact ⟨⟨nofun, nofun⟩, nofun, fun _ => rfl, fun f => ⟨nofun, nofun⟩⟩

/-- The heir with a property of its own in front of the one that it inherits. -/
def Engine.shadowing : Engine := Engine.heir.modify 1 (·.set "x" (.bool true))

theorem Engine.shadowing_reachable : Engine.shadowing.Reachable := by
  have hmet : Engine.heir.lookup 1 "x" = .ok (some ⟨"x", .data (.bool false), Flags.all⟩) := by
    decide +kernel
  have hassigned : Engine.heir.assign (.object 1) "x" (.bool true) =
      .ok (.stored Engine.shadowing) := by
    rw [Engine.assign_named rfl, Engine.assignNamed, hmet]
    rfl
  exact Engine.heir_reachable.steps (Engine.Step.assign hassigned).steps

/-- Once its own property is gone, the heir shows the one that it inherits. -/
theorem deletion_law_shadowing :
    let w : World Unit := ⟨Engine.shadowing, Store.empty, ()⟩
    ∃ e, (Operation.update (.delete (.object 1) "x")).outcome w =
        (.ok true, { w with engine := e }) ∧
      Engine.shadowing.Deleted 1 "x" e ∧
      e.lookup 1 "x" = .ok (some ⟨"x", .data (.bool false), Flags.all⟩) := by
  intro w
  have hanswer : ((Operation.update (.delete (.object 1) "x")).outcome w).1 = .ok true := by
    decide +kernel
  obtain ⟨-, hyes, -, -⟩ := deletion_law (w := w) Engine.shadowing_reachable ⟨3, .object 1⟩ "x"
  obtain ⟨e, he, hdeleted⟩ := hyes hanswer 1 rfl
  refine ⟨e, Prod.ext hanswer he, hdeleted, ?_⟩
  have hchain : Engine.shadowing.Chain (some 1) [1, 0] := .cons (.cons .nil)
  rw [hdeleted.search, hdeleted.past _ hchain]
  decide +kernel

end ValueEngine
