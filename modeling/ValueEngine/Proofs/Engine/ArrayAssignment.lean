import ValueEngine.Proofs.Engine.ElementRoutes

/-! Assigning the elements and the length of an array. An element below the length is replaced,
one behind it is stored after padding, and a length cuts the elements off or pads them; nothing
else changes. The length limit is compared with the index and the length that are asked for,
whether or not anything is padded: an array that is longer than the limit, as a document can
make it, refuses to have its elements behind the limit replaced and to be cut off there. -/

namespace ValueEngine

open Number (Denotes)

namespace Elements

variable {a : Array Value} {n i : ℕ} {v : Value}

theorem resized_eq_take (hn : n ≤ a.size) : resized a n = a.take n := by
  apply Array.ext_getElem?
  intro j
  rw [Array.take_eq_extract, Array.getElem?_extract, Nat.zero_add]
  by_cases hj : j < n
  · rw [getElem?_resized a hj, if_pos (by omega), Array.getElem?_eq_getElem (by omega),
      Option.getD_some]
  · rw [Array.getElem?_eq_none (by simpa using hj), if_neg (by omega)]

def padded (a : Array Value) (n : ℕ) : Array Value := a ++ Array.replicate (n - a.size) .undefined

theorem size_padded (hn : a.size ≤ n) : (padded a n).size = n := by
  rw [padded, Array.size_append, Array.size_replicate, Nat.add_sub_cancel' hn]

theorem padded_succ (hn : a.size ≤ n) : padded a (n + 1) = (padded a n).push .undefined := by
  rw [padded, Nat.sub_add_comm hn, Array.replicate_succ, Array.append_push]
  rfl

theorem resized_eq_padded (hn : a.size ≤ n) : resized a n = padded a n := by
  apply Array.ext_getElem?
  intro j
  by_cases hj : j < n
  · rw [getElem?_resized a hj, padded]
    by_cases hold : j < a.size
    · rw [Array.getElem?_append_left hold, Array.getElem?_eq_getElem hold, Option.getD_some]
    · rw [Array.getElem?_append_right (Nat.not_lt.mp hold), Array.getElem?_replicate,
        if_pos (by omega), Array.getElem?_eq_none (Nat.not_lt.mp hold), Option.getD_none]
  · rw [Array.getElem?_eq_none (by simpa using hj),
      Array.getElem?_eq_none (by rw [size_padded hn]; exact Nat.not_lt.mp hj)]

theorem stored_eq_set (hi : i < a.size) : stored a i v = a.setIfInBounds i v := by
  rw [stored, Nat.max_eq_left hi, resized_size]

/-- An element behind the length is put after the padding. -/
theorem stored_eq_push (hi : a.size ≤ i) : stored a i v = (padded a i).push v := by
  have hsucc := Nat.le_succ_of_le hi
  rw [stored, Nat.max_eq_right hsucc, resized_eq_padded hsucc, padded_succ hi]
  apply Array.ext_getElem?
  intro j
  rw [Array.getElem?_setIfInBounds, Array.getElem?_push, Array.getElem?_push, Array.size_push,
    size_padded hi]
  by_cases hij : j = i
  · rw [if_pos hij.symm, if_pos (Nat.lt_succ_self i), if_pos hij]
  · rw [if_neg (Ne.symm hij), if_neg hij, if_neg hij]

end Elements

namespace Engine

variable {e e' : Engine} {id : ObjectId} {a : Array Value} {i n : ℕ} {v : Value}

/-- An array has got other elements, and nothing else has changed. -/
structure Rewritten (e : Engine) (id : ObjectId) (elements : Array Value) (e' : Engine) : Prop where
  only : e.AltersOnly id e'
  array : e'.object id = (e.object id).withElements elements

theorem rewritten_withElements (ha : (e.object id).elements? = some a) (b : Array Value) :
    e.Rewritten id b (e.modify id (·.withElements b)) where
  only := altersOnly_modify e id _
  array := object_modify_self e _ (lt_size_of_elements? ha)

theorem assignIndex_over (h : e.config.lengthLimit < i + 1) :
    e.assignIndex id a i v = .error (.lengthOverLimit (i + 1) e.config.lengthLimit) := by
  rw [assignIndex, checkLength, if_pos h]
  rfl

theorem assignLength_over (hn : length? v = some n) (h : e.config.lengthLimit < n) :
    e.assignLength id a v = .error (.lengthOverLimit n e.config.lengthLimit) := by
  rw [assignLength, hn]
  dsimp only
  rw [checkLength, if_pos h]
  rfl

theorem assignLength_invalid (hnone : length? v = none) :
    e.assignLength id a v = .error .invalidLength := by
  rw [assignLength, hnone]

end Engine

namespace World

variable {H : Type}

/-- How a request comes out that is refused by a fault of the class and changes nothing. -/
def Refused (w : World H) (kind : FaultClass) (result : Except Fault Unit × World H) : Prop :=
  ∃ f : Fault, f.kind = kind ∧ result = (.error f, w)

/-- How a request comes out that gives other elements to an array and changes nothing else. -/
def Rewrote (w : World H) (id : ObjectId) (elements : Array Value)
    (result : Except Fault Unit × World H) : Prop :=
  ∃ e, result = (.ok (), { w with engine := e }) ∧ w.engine.Rewritten id elements e

end World

variable {H : Type} {host : Host H} {w : World H} {receiver v : Box} {id : ObjectId}
variable {a : Array Value} {i n : ℕ}

namespace Request

variable [Library]

theorem outcome_setLength (hr : receiver.value = .object id)
    (ha : (w.engine.object id).elements? = some a) :
    (run host (.setProperty receiver "length" v)).outcome w =
      match w.engine.assignLength id a v.value with
      | .ok e => (.ok (), { w with engine := e })
      | .error f => (.error f, w) := by
  rw [run, Operation.setProperty_eq, Action.outcome_bind, Operation.outcome_ask, hr,
    Engine.assign_length ha]
  cases w.engine.assignLength id a v.value <;> rfl

theorem rewrote_setElement (hr : receiver.value = .object id)
    (ha : (w.engine.object id).elements? = some a) (hi : i < w.engine.config.lengthLimit) :
    w.Rewrote id (Elements.stored a i v.value)
      ((run host (.setElement receiver i v)).outcome w) := by
  refine ⟨_, ?_, Engine.rewritten_withElements ha _⟩
  rw [outcome_setElement hr ha, Engine.assignIndex_eq (hi.trans_le (Engine.lengthLimit_le _)) hi]

theorem rewrote_setLength (hr : receiver.value = .object id)
    (ha : (w.engine.object id).elements? = some a) {x : Float} (hv : v.value = .number x)
    (hx : Denotes x n) (hn : n ≤ w.engine.config.lengthLimit) :
    w.Rewrote id (Elements.resized a n)
      ((run host (.setProperty receiver "length" v)).outcome w) := by
  refine ⟨_, ?_, Engine.rewritten_withElements ha _⟩
  rw [outcome_setLength hr ha, hv, Engine.assignLength_eq hx hn]

theorem refused_setElement_negative (hr : receiver.value = .object id)
    (ha : (w.engine.object id).elements? = some a) {i : ℤ} (hi : i < 0) :
    w.Refused .typeError ((run host (.setElement receiver i v)).outcome w) := by
  refine ⟨.negativeIndex, rfl, ?_⟩
  rw [run, Operation.update_setElement, Operation.outcome_attempt, hr, Engine.setElement_object ha,
    if_pos hi]
  rfl

theorem refused_setElement (hr : receiver.value = .object id)
    (ha : (w.engine.object id).elements? = some a) (hi : w.engine.config.lengthLimit ≤ i) :
    w.Refused .exception ((run host (.setElement receiver i v)).outcome w) := by
  refine ⟨.lengthOverLimit (i + 1) w.engine.config.lengthLimit, rfl, ?_⟩
  rw [outcome_setElement hr ha, Engine.assignIndex_over (Nat.lt_succ_of_le hi)]

theorem refused_setLength (hr : receiver.value = .object id)
    (ha : (w.engine.object id).elements? = some a)
    (hnone : ∀ x (n : ℕ), v.value = .number x → Denotes x n → w.engine.config.lengthLimit < n) :
    w.Refused .exception ((run host (.setProperty receiver "length" v)).outcome w) := by
  cases hn : Engine.length? v.value with
  | none =>
    refine ⟨.invalidLength, rfl, ?_⟩
    rw [outcome_setLength hr ha, Engine.assignLength_invalid hn]
  | some n =>
    obtain ⟨x, hv, hx, -⟩ := Engine.length?_eq_some_iff.mp hn
    refine ⟨.lengthOverLimit n w.engine.config.lengthLimit, rfl, ?_⟩
    rw [outcome_setLength hr ha, Engine.assignLength_over hn (hnone x n hv hx)]

end Request

open Request (run)

/-- **The law of array assignment.** Storing an element of an array is a type error at a negative
index and refused at an index that is not below the length limit; else it replaces the
element, or pads the array with undefined and puts the element behind. Assigning the length is
refused if it is no natural number up to the limit; else it keeps the first elements, or pads
them with undefined. Nothing but the elements changes, and nothing at all when it is refused. -/
theorem array_assignment_law [Library] (hr : receiver.value = .object id)
    (ha : (w.engine.object id).elements? = some a) (v : Box) :
    let limit := w.engine.config.lengthLimit
    let store (i : ℤ) := (run host (.setElement receiver i v)).outcome w
    let resize := (run host (.setProperty receiver "length" v)).outcome w
    ((∀ i : ℤ, i < 0 → w.Refused .typeError (store i)) ∧
      (∀ i : ℕ, limit ≤ i → w.Refused .exception (store i)) ∧
      (∀ i : ℕ, i < limit → i < a.size → w.Rewrote id (a.setIfInBounds i v.value) (store i)) ∧
      ∀ i : ℕ, i < limit → a.size ≤ i →
        w.Rewrote id ((Elements.padded a i).push v.value) (store i)) ∧
      (∀ x (n : ℕ), v.value = .number x → Denotes x n → n ≤ limit →
        (n ≤ a.size → w.Rewrote id (a.take n) resize) ∧
          (a.size ≤ n → w.Rewrote id (Elements.padded a n) resize)) ∧
      ((∀ x (n : ℕ), v.value = .number x → Denotes x n → limit < n) →
        w.Refused .exception resize) := by
  intro limit store resize
  refine ⟨⟨fun i hi => Request.refused_setElement_negative hr ha hi,
    fun i hi => Request.refused_setElement hr ha hi, fun i hi hold => ?_, fun i hi hnew => ?_⟩,
    fun x n hv hx hn => ⟨fun hcut => ?_, fun hpad => ?_⟩, Request.refused_setLength hr ha⟩
  · rw [← Elements.stored_eq_set hold]
    exact Request.rewrote_setElement hr ha hi
  · rw [← Elements.stored_eq_push hnew]
    exact Request.rewrote_setElement hr ha hi
  · rw [← Elements.resized_eq_take hcut]
    exact Request.rewrote_setLength hr ha hv hx hn
  · rw [← Elements.resized_eq_padded hpad]
    exact Request.rewrote_setLength hr ha hv hx hn

/-- An array of three elements made from a document, under a length limit of one. -/
def World.overlong : World Unit :=
  Request.runAll Host.idle [.parse "[null,true,false]"]
    ⟨Engine.new { Config.standard with maxArrayLength := 1 }, Store.empty, ()⟩

theorem World.overlong_elements :
    (overlong.engine.object 0).elements? = some #[.null, .bool true, .bool false] := by
  decide +kernel

theorem World.overlong_limit : overlong.engine.config.lengthLimit = 1 := by decide +kernel

/-- Its first element is replaced, the index being below the limit. -/
theorem array_assignment_law_overlong :
    World.overlong.Rewrote 0 #[.bool true, .bool true, .bool false]
      ((run Host.idle (.setElement ⟨2, .object 0⟩ 0 ⟨3, .bool true⟩)).outcome World.overlong) := by
  have hlimit : 0 < World.overlong.engine.config.lengthLimit := by
    rw [World.overlong_limit]
    exact Nat.one_pos
  obtain ⟨⟨-, -, hset, -⟩, -⟩ :=
    @array_assignment_law Unit Host.idle _ ⟨2, .object 0⟩ 0 _ .standard rfl
    World.overlong_elements ⟨3, .bool true⟩
  exact hset 0 hlimit (by decide)

/-- Its second element is refused to be replaced, and the array to be cut off behind it, although
nothing would be padded. -/
theorem overlong_element_refused :
    let array : Box := ⟨2, .object 0⟩
    let two : Box := ⟨3, .number (Number.ofNat 2)⟩
    World.overlong.engine.Reachable ∧ World.overlong.engine.config.lengthLimit = 1 ∧
      (World.overlong.engine.object 0).elements? = some #[.null, .bool true, .bool false] ∧
      (run Host.idle (.setElement array 1 two)).outcome World.overlong =
        (.error (.lengthOverLimit 2 1), World.overlong) ∧
      (run Host.idle (.setProperty array "length" two)).outcome World.overlong =
        (.error (.lengthOverLimit 2 1), World.overlong) := by
  intro array two
  have hsteps := Request.runAll_steps (H := Unit) Host.idle_conforms [.parse "[null,true,false]"]
    ⟨Engine.new { Config.standard with maxArrayLength := 1 }, Store.empty, ()⟩
  have hover : World.overlong.engine.config.lengthLimit < 1 + 1 := by
    rw [World.overlong_limit]
    exact Nat.lt_succ_self 1
  have hlength : Engine.length? two.value = some 2 := by decide +kernel
  have hstore := @Request.outcome_setElement Unit Host.idle _ array two 0 _ 1 .standard .boundless rfl
    World.overlong_elements
  have hresize := @Request.outcome_setLength Unit Host.idle _ array two 0 _ .standard rfl
    World.overlong_elements
  rw [Engine.assignIndex_over hover, World.overlong_limit] at hstore
  rw [Engine.assignLength_over hlength hover, World.overlong_limit] at hresize
  exact ⟨⟨_, hsteps⟩, World.overlong_limit, World.overlong_elements, hstore, hresize⟩

end ValueEngine
