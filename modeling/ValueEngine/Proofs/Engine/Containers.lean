import ValueEngine.Engine.Construction
import ValueEngine.Proofs.Engine.ElementRoutes
import ValueEngine.Proofs.Property.SlotOrder

/-! The arrays and objects of documents, and what is answered about them. An array of a document has
its items as elements and no other property but its length; an object has the fields as its
properties, in their order and with all flags. Neither has a prototype, so a name that is not there
is absent. What a name means depends on the container alone: the name of an index or of the length
is nothing special to an object. -/

namespace ValueEngine

open Number (Denotes decimalText arrayIndex?)
open Json (Document)

namespace Object

/-- The array that has these elements. -/
def listed (vs : List Value) : Object := .ofClass (.array (Elements.ofList vs))

variable {o : Object} {ps : List (String × Value)} {vs : List Value} {name : String}

theorem elements?_listed (hvs : vs.length ≤ maxArrayLength) :
    (listed vs).elements? = some vs.toArray := by
  rw [listed, Elements.ofList, List.take_of_length_le hvs]
  rfl

theorem lookup_eq_none (h : name ∉ ps.map (·.1)) : ps.lookup name = none := by
  rw [List.lookup_eq_none_iff]
  intro r hr
  have hne : name ≠ r.1 := fun heq => h (heq ▸ List.mem_map_of_mem hr)
  simpa using hne

theorem lookup_of_mem (hkeys : (ps.map (·.1)).Nodup) {v : Value} (h : (name, v) ∈ ps) :
    ps.lookup name = some v := by
  induction ps with
  | nil => cases h
  | cons q ps ih =>
    rw [List.map_cons, List.nodup_cons] at hkeys
    obtain rfl | h := List.mem_cons.mp h
    · simp
    · have hne : (name == q.1) = false := by
        rw [beq_eq_false_iff_ne]
        rintro rfl
        exact hkeys.1 (List.mem_map.mpr ⟨_, h, rfl⟩)
      rw [List.lookup_cons, hne]
      exact ih hkeys.2 h

variable [Library]

/-- The object into which these properties have been set, one after the other. -/
def filled (ps : List (String × Value)) : Object :=
  ps.foldl (fun o p => o.set p.1 p.2) (.ofClass .plain)

theorem payload_filled (ps : List (String × Value)) : (filled ps).payload = .plain :=
  (Engine.payload_foldl_set ps (.ofClass .plain)).1

theorem prototype_filled (ps : List (String × Value)) : (filled ps).prototype = none :=
  (Engine.payload_foldl_set ps (.ofClass .plain)).2

theorem isVirtual_filled (ps : List (String × Value)) (name : String) :
    (filled ps).isVirtual name = false := by
  rw [isVirtual, elements?, payload_filled]
  rfl

theorem properties_foldl_set (ps : List (String × Value)) (o : Object) :
    (ps.foldl (fun o p => o.set p.1 p.2) o).properties =
      o.properties.run Library.hash (ps.map fun q => .set q.1 q.2) := by
  induction ps generalizing o with
  | nil => rfl
  | cons p ps ih => exact ih (o.set p.1 p.2)

theorem toList_filled (hkeys : (ps.map (·.1)).Nodup) :
    (filled ps).properties.toList = ps.map fun q => ⟨q.1, .data q.2, Flags.all⟩ := by
  rw [filled, properties_foldl_set]
  exact Property.Table.toList_run_set Library.hash 0 hkeys

/-- Setting new names adds them to what is found. -/
theorem named?_foldl_set (ho : o.Sound) (hplain : o.elements? = none)
    (hnew : ∀ q ∈ ps, o.named? q.1 = none) (hkeys : (ps.map (·.1)).Nodup) (name : String) :
    (ps.foldl (fun o p => o.set p.1 p.2) o).named? name =
      ((ps.lookup name).map fun v => ⟨name, .data v, Flags.all⟩).or (o.named? name) := by
  induction ps generalizing o with
  | nil => rfl
  | cons q ps ih =>
    rw [List.map_cons, List.nodup_cons] at hkeys
    obtain ⟨hq, hkeys⟩ := hkeys
    have hset := ho.named?_set q.1 q.2
    have hrest : ∀ r ∈ ps, (o.set q.1 q.2).named? r.1 = none := by
      intro r hr
      have hne : r.1 ≠ q.1 := fun heq => hq (heq ▸ List.mem_map_of_mem hr)
      rw [hset, if_neg hne]
      exact hnew r (List.mem_cons_of_mem q hr)
    rw [List.foldl_cons, ih (ho.set (isVirtual_eq_false_of_elements? hplain q.1) q.2) hplain hrest
      hkeys, hset, List.lookup_cons]
    by_cases hname : name = q.1
    · subst hname
      simp [lookup_eq_none hq, hnew q List.mem_cons_self]
    · have hbeq : (name == q.1) = false := by simpa using hname
      rw [if_neg hname, hbeq]

theorem own?_filled (hkeys : (ps.map (·.1)).Nodup) (name : String) :
    (filled ps).own? name = (ps.lookup name).map fun v => ⟨name, .data v, Flags.all⟩ := by
  have hsound : (ofClass .plain).Sound := Fresh.sound (.ofClass .plain)
  rw [own?_eq_named? (isVirtual_filled ps name), filled,
    named?_foldl_set hsound rfl (fun _ _ => rfl) hkeys]
  exact Option.or_none

end Object

namespace Engine

variable {e : Engine} {id : ObjectId} {v u : Value} {name key : String} {flags : Flags}
variable {x y : Option Value} {vs : List Value} {ps : List (String × Value)}
variable {items : List Document} {fields : List (String × Document)} {i : ℕ}

theorem getElement_listed (ho : e.object id = .listed vs) (hvs : vs.length ≤ maxArrayLength)
    (i : ℤ) : e.getElement (.object id) i = .ok (if i < 0 then none else vs[i.toNat]?) := by
  have ha : (e.object id).elements? = some vs.toArray := ho ▸ Object.elements?_listed hvs
  rw [getElement_object ha, List.getElem?_toArray]

theorem getElement_listed_of_getElem? (ho : e.object id = .listed vs)
    (hvs : vs.length ≤ maxArrayLength) (hu : vs[i]? = some u) :
    e.getElement (.object id) i = .ok (some u) := by
  rw [getElement_listed ho hvs, if_neg (Int.not_lt.mpr (Int.natCast_nonneg i)), Int.toNat_natCast,
    hu]

variable [Library]

/-- What reading a property of a value answers on every host; nothing but the number of boxes
changes. -/
def Gets (e : Engine) (v : Value) (name : String) (found : Option Value) : Prop :=
  ∀ (H : Type) (host : Host H) (w : World H) (b : Box) (n : ℕ),
    w.engine = { e with boxes := n } → b.value = v →
      ∃ c m, (Operation.getProperty host b name).outcome w = (.ok c, w.withBoxes m) ∧
        c.map (·.value) = found

theorem Gets.unique (hx : e.Gets v name x) (hy : e.Gets v name y) : x = y := by
  let w : World Unit := ⟨e, Store.empty, ()⟩
  obtain ⟨c, m, hc, rfl⟩ := hx Unit Host.idle w ⟨0, v⟩ e.boxes rfl rfl
  obtain ⟨c', m', hc', rfl⟩ := hy Unit Host.idle w ⟨0, v⟩ e.boxes rfl rfl
  cases hc.symm.trans hc'
  rfl

theorem gets_of_own? (hown : (e.object id).own? name = some ⟨key, .data u, flags⟩) :
    e.Gets (.object id) name (some u) := by
  intro H host w b n hw hb
  have hread : w.engine.read b.value name = .ok (.value u) := by
    rw [hw, hb, read_withBoxes, read_met (lookup_of_own? hown)]
    rfl
  refine ⟨some ⟨w.engine.boxes, u⟩, w.engine.boxes + 1, ?_, rfl⟩
  rw [Operation.getProperty, Action.outcome_bind, Operation.outcome_ask, hread]
  rfl

theorem gets_none (hown : (e.object id).own? name = none) (hend : (e.object id).prototype = none) :
    e.Gets (.object id) name none := by
  intro H host w b n hw hb
  have hread : w.engine.read b.value name = .ok .absent := by
    rw [hw, hb, read_withBoxes, read_absent (lookupWithin_end hown hend)]
  refine ⟨none, w.engine.boxes, ?_, rfl⟩
  rw [Operation.getProperty, Action.outcome_bind, Operation.outcome_ask, hread]
  rfl

/-- An array presents the items of a list. -/
structure PresentsItems (e : Engine) (id : ObjectId) (items : List Document) : Prop where
  prototype : (e.object id).prototype = none
  elements : ∃ a, (e.object id).elements? = some a ∧ a.size = items.length
  unnamed : (e.object id).properties.toList = []
  length : ∃ x, Denotes x items.length ∧ e.Gets (.object id) "length" (some (.number x))
  item : ∀ i < items.length, ∃ u, e.getElement (.object id) i = .ok (some u) ∧
    e.Gets (.object id) (decimalText i) (some u)
  outside : ∀ i : ℤ, i < 0 ∨ items.length ≤ i → e.getElement (.object id) i = .ok none
  absent : ∀ name, name ≠ "length" → (∀ i < items.length, name ≠ decimalText i) →
    e.Gets (.object id) name none

structure PresentsFields (e : Engine) (id : ObjectId) (fields : List (String × Document)) :
    Prop where
  prototype : (e.object id).prototype = none
  plain : (e.object id).payload = .plain
  own : (e.object id).properties.toList.map (fun p => (p.key, p.flags)) =
    fields.map fun f => (f.1, Flags.all)
  element : ∀ i, e.getElement (.object id) i = .error .notAnArray
  field : ∀ name ∈ fields.map (·.1), ∃ u, e.Gets (.object id) name (some u)
  absent : ∀ name ∉ fields.map (·.1), e.Gets (.object id) name none

/-- A value presents a document, the values of its parts left aside. -/
inductive Presents (e : Engine) : Value → Document → Prop
  | null : Presents e .null .null
  | bool (b : Bool) : Presents e (.bool b) (.bool b)
  | number (x : Float) : Presents e (.number x) (.number x)
  | text (s : String) : Presents e (.string s) (.text s)
  | list {id : ObjectId} {items : List Document} (h : e.PresentsItems id items) :
    Presents e (.object id) (.list items)
  | object {id : ObjectId} {fields : List (String × Document)} (h : e.PresentsFields id fields) :
    Presents e (.object id) (.object fields)

theorem gets_filled (ho : e.object id = .filled ps) (hkeys : (ps.map (·.1)).Nodup)
    (hu : ps.lookup name = some u) : e.Gets (.object id) name (some u) := by
  have hfound : (e.object id).own? name = some ⟨name, .data u, Flags.all⟩ := by
    rw [ho, Object.own?_filled hkeys, hu, Option.map_some]
  exact gets_of_own? hfound

theorem own?_listed_none (ho : e.object id = .listed vs) (hvs : vs.length ≤ maxArrayLength)
    (hlength : name ≠ "length") (hindex : ∀ i < vs.length, name ≠ decimalText i) :
    (e.object id).own? name = none := by
  have hnone : (arrayIndex? name).bind (vs.toArray[·]?) = none := by
    cases hname : arrayIndex? name with
    | none => rfl
    | some i =>
      have hi : vs.length ≤ i :=
        Nat.not_lt.mp fun hlt => hindex i hlt (Number.arrayIndex?_eq_some_iff.mp hname).2
      rw [Option.bind_some, List.getElem?_toArray, List.getElem?_eq_none hi]
  rw [ho, Object.own?, Object.elements?_listed hvs]
  dsimp only
  rw [if_neg hlength, hnone]
  rfl

theorem presentsItems (ho : e.object id = .listed vs) (hlength : vs.length = items.length)
    (hmax : items.length ≤ maxArrayLength) : e.PresentsItems id items := by
  have hvs : vs.length ≤ maxArrayLength := hlength ▸ hmax
  have ha : (e.object id).elements? = some vs.toArray := ho ▸ Object.elements?_listed hvs
  have hsize : vs.toArray.size = items.length := by rw [List.size_toArray, hlength]
  have hsound : (e.object id).Sound := ho ▸ Object.Fresh.sound (.ofClass _)
  have hend : (e.object id).prototype = none := by
    rw [ho]
    rfl
  constructor
  case prototype => exact hend
  case elements => exact ⟨_, ha, hsize⟩
  case unnamed =>
    rw [ho]
    rfl
  case length =>
    obtain ⟨x, hx, hown⟩ := (hsound.shows ha (hsize.trans_le hmax)).length
    exact ⟨x, hsize ▸ hx, gets_of_own? hown⟩
  case item =>
    intro i hi
    have hu : vs[i]? = some vs[i] := List.getElem?_eq_getElem (hlength ▸ hi)
    have hname := Number.arrayIndex?_decimalText (hi.trans_le hmax)
    exact ⟨vs[i], getElement_listed_of_getElem? ho hvs hu,
      gets_of_own? (own?_index ha hname (List.getElem?_toArray.trans hu))⟩
  case outside =>
    intro i hi
    rw [getElement_listed ho hvs]
    split_ifs with hneg
    · rfl
    · rw [List.getElem?_eq_none (by omega)]
  case absent =>
    intro name hname hindex
    exact gets_none (own?_listed_none ho hvs hname fun i hi => hindex i (hlength ▸ hi)) hend

theorem presentsFields (ho : e.object id = .filled ps) (hkeys : ps.map (·.1) = fields.map (·.1))
    (hnodup : (fields.map (·.1)).Nodup) : e.PresentsFields id fields := by
  rw [← hkeys] at hnodup
  have hend : (e.object id).prototype = none := by rw [ho, Object.prototype_filled]
  have hplain : (e.object id).payload = .plain := by rw [ho, Object.payload_filled]
  constructor
  case prototype => exact hend
  case plain => exact hplain
  case element =>
    intro i
    rw [getElement, elementsOf, Object.elements?, hplain]
    rfl
  case own =>
    have hpairs := congrArg (List.map fun name => (name, Flags.all)) hkeys
    rw [List.map_map, List.map_map] at hpairs
    rw [ho, Object.toList_filled hnodup, List.map_map]
    exact hpairs
  case field =>
    intro name hname
    rw [← hkeys] at hname
    have hsome : (ps.lookup name).isSome := by
      rw [List.lookup_isSome_iff]
      simpa using hname
    obtain ⟨u, hu⟩ := Option.isSome_iff_exists.mp hsome
    exact ⟨u, gets_filled ho hnodup hu⟩
  case absent =>
    intro name hname
    rw [← hkeys] at hname
    have hnone : (e.object id).own? name = none := by
      rw [ho, Object.own?_filled hnodup, Object.lookup_eq_none hname, Option.map_none]
    exact gets_none hnone hend

end Engine

end ValueEngine
