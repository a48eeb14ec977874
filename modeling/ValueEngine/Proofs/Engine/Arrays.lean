import ValueEngine.Proofs.Engine.Assignment
import ValueEngine.Proofs.Number.Decimal

/-! The elements of arrays. Every step keeps the elements of all arrays, adds arrays within the
limit, cuts or pads one array, or stores one element in it; so an array never gets longer than
the limit, its own properties are its length and its elements, and a position that it has
gained reads undefined until a value is stored there. What an array held at a position before
it was cut off is not kept anywhere that a longer array could show again, and the table of an
array has neither the length nor an index, so the two sources of names never disagree. -/

namespace ValueEngine

namespace Elements

variable {a : Array Value} {i j n : ℕ} {u v : Value}

theorem size_stored (a : Array Value) (i : ℕ) (v : Value) :
    (stored a i v).size = max a.size (i + 1) := by
  rw [stored, Array.size_setIfInBounds, size_resized]

/-- What cutting or padding leaves at a position has been there, or pads. -/
theorem getElem?_of_resized (h : (resized a n)[j]? = some v) :
    a[j]? = some v ∨ a[j]? = none ∧ v = .undefined := by
  by_cases hj : j < n
  · rw [getElem?_resized a hj, Option.some.injEq] at h
    cases hold : a[j]? with
    | none => exact .inr ⟨rfl, by rw [← h, hold, Option.getD_none]⟩
    | some u => exact .inl (by rw [← h, hold, Option.getD_some])
  · rw [Array.getElem?_eq_none (by rw [size_resized]; exact Nat.not_lt.mp hj)] at h
    cases h

theorem getElem?_of_stored (h : (stored a i u)[j]? = some v) :
    a[j]? = some v ∨ a[j]? = none ∧ v = .undefined ∨ i = j ∧ u = v := by
  by_cases hij : i = j
  · subst hij
    rw [getElem?_stored_self, Option.some.injEq] at h
    exact .inr (.inr ⟨rfl, h⟩)
  · rw [stored, Array.getElem?_setIfInBounds_ne hij] at h
    obtain hold | hpad := getElem?_of_resized h
    · exact .inl hold
    · exact .inr (.inl hpad)

end Elements

namespace Object

variable [Library]

theorem elements?_set (name : String) (v : Value) (o : Object) :
    (o.set name v).elements? = o.elements? :=
  rfl

theorem elements?_define (name : String) (slot : Slot) (flags : Flags) (o : Object) :
    (o.define name slot flags).elements? = o.elements? :=
  rfl

theorem elements?_erase (name : String) (o : Object) : (o.erase name).elements? = o.elements? := rfl

end Object

namespace Engine

variable {e e' : Engine} {id : ObjectId} {name : String} {v : Value} {a a' : Array Value} {i j n : ℕ}

/-- No array is longer than the limit. -/
def Bounded (e : Engine) : Prop :=
  ∀ id a, (e.object id).elements? = some a → a.size ≤ maxArrayLength

/-- What a step can do to the elements of arrays. -/
inductive Reshape (e e' : Engine) : Prop
  | kept (h : ∀ id, (e'.object id).elements? = (e.object id).elements?)
  | added (hold : ∀ id, id < e.objects.size → e'.object id = e.object id)
    (hnew : e.Bounded → e'.Bounded)
  | resized (id : ObjectId) (a : Array Value) (n : ℕ) (ha : (e.object id).elements? = some a)
    (hn : n ≤ maxArrayLength) (h : e' = e.modify id (·.withElements (Elements.resized a n)))
  | stored (id : ObjectId) (a : Array Value) (i : ℕ) (v : Value)
    (ha : (e.object id).elements? = some a) (hi : i < maxArrayLength)
    (hassign : e.assignIndex id a i v = .ok e')
    (h : e' = e.modify id (·.withElements (Elements.stored a i v)))

/-! ### Steps and the elements of arrays -/

section Steps

theorem elements?_modify {f : Object → Object} (h : ∀ o, (f o).elements? = o.elements?)
    (target id : ObjectId) : ((e.modify target f).object id).elements? = (e.object id).elements? := by
  obtain hsame | ⟨-, hchanged⟩ := object_modify_cases e target f id
  · rw [hsame]
  · rw [hchanged, h]

theorem reshape_modify {f : Object → Object} (h : ∀ o, (f o).elements? = o.elements?)
    (target : ObjectId) : Reshape e (e.modify target f) :=
  .kept (elements?_modify h target)

theorem reshape_refl (e : Engine) : Reshape e e := .kept fun _ => rfl

theorem reshape_of_objects (h : e'.objects = e.objects) : Reshape e e' :=
  .kept fun id => by rw [object, h, object]

theorem Bounded.push (hbounded : e.Bounded) {o : Object} (h : e'.objects = e.objects.push o)
    (ho : ∀ a, o.elements? = some a → a.size ≤ maxArrayLength) : e'.Bounded := by
  intro id a ha
  rw [object, h, Array.getElem?_push] at ha
  split_ifs at ha with hnew
  · exact ho a ha
  · exact hbounded id a ha

theorem reshape_push {o : Object} (h : e'.objects = e.objects.push o)
    (ho : ∀ a, o.elements? = some a → a.size ≤ maxArrayLength) : Reshape e e' := by
  refine .added (fun id hid => ?_) fun hbounded => hbounded.push h ho
  have hmade : e'.objects = e.objects ++ [o].toArray := h.trans Array.push_eq_append
  exact object_made hmade hid

theorem reshape_push_plain {o : Object} (h : e'.objects = e.objects.push o)
    (ho : o.elements? = none) : Reshape e e' :=
  reshape_push h fun a ha => absurd (ho.symm.trans ha) (Option.some_ne_none a).symm

theorem reshape_assignIndex (ha : (e.object id).elements? = some a)
    (h : e.assignIndex id a i v = .ok e') : Reshape e e' := by
  by_cases hi : i + 1 ≤ e.config.lengthLimit
  · have hmax : i < maxArrayLength := hi.trans (lengthLimit_le _)
    have heq : e.assignIndex id a i v = .ok _ := assignIndex_eq hmax hi
    exact .stored id a i v ha hmax h (Except.ok.inj (h.symm.trans heq))
  · have hrefused : ∃ f, e.assignIndex id a i v = .error f := assignIndex_refused (Nat.not_le.mp hi)
    obtain ⟨f, hf⟩ := hrefused
    cases h.symm.trans hf

theorem reshape_assignLength (ha : (e.object id).elements? = some a)
    (h : e.assignLength id a v = .ok e') : Reshape e e' := by
  by_cases hlength : ∃ x, ∃ n : ℕ, v = .number x ∧ Number.Denotes x n ∧ n ≤ e.config.lengthLimit
  · obtain ⟨x, n, rfl, hx, hn⟩ := hlength
    have heq : e.assignLength id a (.number x) = .ok _ := assignLength_eq hx hn
    exact .resized id a n ha (hn.trans (lengthLimit_le _)) (Except.ok.inj (h.symm.trans heq))
  · have hrefused : ∃ f, e.assignLength id a v = .error f :=
      assignLength_refused fun x n hv hx => Nat.not_le.mp fun hn => hlength ⟨x, n, hv, hx, hn⟩
    obtain ⟨f, hf⟩ := hrefused
    cases h.symm.trans hf

theorem reshape_assignVirtual (h : e.assignVirtual? id name v = some (.ok e')) : Reshape e e' := by
  rw [assignVirtual?] at h
  cases ha : (e.object id).elements? with
  | none =>
    rw [ha] at h
    cases h
  | some a =>
    rw [ha] at h
    by_cases hlength : name = "length"
    · simp only [hlength, if_true, Option.some.injEq] at h
      exact reshape_assignLength ha h
    · simp only [hlength, if_false, Option.map_eq_some_iff] at h
      obtain ⟨i, -, h⟩ := h
      exact reshape_assignIndex ha h

theorem reshape_setElement {receiver : Value} {index : Int}
    (h : e.setElement receiver index v = .ok e') : Reshape e e' := by
  obtain ⟨id, a, ha, h⟩ := setElement_eq_ok h
  exact reshape_assignIndex ha h

theorem reshape_setPrototype {proto : Value} (h : e.setPrototype v proto = .ok e') :
    Reshape e e' := by
  obtain rfl | ⟨id, target, -, -, rfl⟩ := setPrototype_eq_ok h
  · exact reshape_refl e'
  · refine reshape_modify (f := fun o => { o with prototype := target }) (fun o => ?_) id
    rfl

theorem reshape_createArray {b : Box} (h : e.createArray n = .ok (b, e')) : Reshape e e' := by
  rw [createArray_eq] at h
  obtain ⟨⟨⟩, hcheck, h⟩ := bind_eq_ok h
  obtain ⟨a, ha, h⟩ := bind_eq_ok h
  cases h
  refine reshape_push rfl fun a' ha' => ?_
  cases ha'
  rw [checkLength] at hcheck
  split_ifs at hcheck with hn
  rw [Elements.size_of_setLength ha]
  exact (Nat.not_lt.mp hn).trans (lengthLimit_le _)

variable [Library]

theorem reshape_assign {receiver : Value} (h : e.assign receiver name v = .ok (.stored e')) :
    Reshape e e' := by
  obtain ⟨id, hvirtual | ⟨-, hnamed⟩⟩ := assign_eq_stored h
  · exact reshape_assignVirtual hvirtual
  · obtain ⟨rfl, -⟩ := assignNamed_eq_stored hnamed
    exact reshape_modify (Object.elements?_set name v) id

theorem reshape_defineNamed {d : Descriptor} (h : e.defineNamed id name d = .ok e') :
    Reshape e e' := by
  rw [defineNamed] at h
  cases hp : (e.object id).named? name with
  | none =>
    rw [hp] at h
    cases h
    exact reshape_modify (Object.elements?_define name _ _) id
  | some p =>
    rw [hp] at h
    dsimp only at h
    split_ifs at h
    cases h
    exact reshape_modify (Object.elements?_define name _ _) id

theorem reshape_defineOwn {d : Descriptor} (h : e.defineOwn id name d = .ok e') : Reshape e e' := by
  obtain ⟨-, hvirtual | ⟨-, hnamed⟩⟩ := defineOwn_eq_ok h
  · obtain rfl | ⟨v, -, hv⟩ := defineVirtual_eq_ok hvirtual
    · exact reshape_refl e'
    · exact reshape_assignVirtual hv
  · exact reshape_defineNamed hnamed

theorem reshape_delete {receiver : Value} {answer : Bool}
    (h : e.delete receiver name = .ok (answer, e')) : Reshape e e' := by
  obtain rfl | ⟨id, p, -, -, rfl⟩ := delete_eq_ok h
  · exact reshape_refl e'
  · exact reshape_modify (Object.elements?_erase name) id

theorem keptByBuilding_bounded : KeptByBuilding Bounded where
  list e vs he := by
    refine he.push rfl fun a ha => ?_
    cases ha
    exact List.length_take_le _ _
  object e ps he := by
    refine he.push rfl fun a ha => ?_
    rw [Object.elements?, (payload_foldl_set ps _).1] at ha
    cases ha

theorem reshape_parse {text : String} {b : Box} (h : e.parse text = .ok (b, e')) :
    Reshape e e' := by
  rw [parse_eq] at h
  cases hd : Library.document? text with
  | none =>
    rw [hd] at h
    cases h
  | some d =>
    rw [hd] at h
    cases h
    obtain ⟨os, hos, -⟩ := adds_build e d
    exact .added (fun id hid => object_made hos hid) fun he => build_keeps keptByBuilding_bounded he d

theorem Step.reshape (h : Step e e') : Reshape e e' := by
  cases h with
  | assign h => exact reshape_assign h
  | define h => exact reshape_defineOwn h
  | delete h => exact reshape_delete h
  | setElement h => exact reshape_setElement h
  | setPrototype h => exact reshape_setPrototype h
  | newObject => exact reshape_push_plain rfl rfl
  | newArray =>
    refine reshape_push rfl fun a ha => ?_
    cases ha
    exact Nat.zero_le _
  | createArray h => exact reshape_createArray h
  | createWithPrototype h =>
    obtain ⟨target, -, hpair⟩ := createWithPrototype_eq_ok h
    cases hpair
    exact reshape_push_plain rfl rfl
  | createReference h =>
    obtain ⟨kind, -, hpair⟩ := createReference_eq_ok h
    cases hpair
    exact reshape_push_plain rfl (elements?_referenceObject kind _ _)
  | createNative name => exact reshape_push_plain rfl rfl
  | createSymbol description => exact reshape_of_objects rfl
  | createText bytes length => exact reshape_of_objects rfl
  | parse h => exact reshape_parse h
  | box v => exact reshape_of_objects rfl
  | throwException b => exact reshape_of_objects rfl
  | takeException => exact reshape_of_objects rfl
  | registerDispatcher => exact reshape_of_objects rfl

end Steps

/-! ### The limit -/

section Bounds

theorem elements?_withElements (e : Engine) (target : ObjectId) (b : Array Value) (id : ObjectId) :
    ((e.modify target (·.withElements b)).object id).elements? = (e.object id).elements? ∨
      target = id ∧ ((e.modify target (·.withElements b)).object id).elements? = some b := by
  obtain hsame | ⟨htarget, hchanged⟩ := object_modify_cases e target (·.withElements b) id
  · exact .inl (by rw [hsame])
  · exact .inr ⟨htarget, by rw [hchanged]; rfl⟩

theorem Bounded.withElements (he : e.Bounded) {target : ObjectId} {b : Array Value}
    (hb : b.size ≤ maxArrayLength) : (e.modify target (·.withElements b)).Bounded := by
  intro id a ha
  obtain hsame | ⟨-, hchanged⟩ := elements?_withElements e target b id
  · exact he id a (hsame.symm.trans ha)
  · cases hchanged.symm.trans ha
    exact hb

theorem Reshape.bounded (h : Reshape e e') (he : e.Bounded) : e'.Bounded := by
  cases h with
  | kept h => exact fun id a ha => he id a ((h id).symm.trans ha)
  | added _ hnew => exact hnew he
  | resized id a n _ hn h =>
    rw [h]
    exact he.withElements (by rwa [Elements.size_resized])
  | stored id a i v ha hi _ h =>
    rw [h]
    exact he.withElements (by rw [Elements.size_stored]; exact Nat.max_le.mpr ⟨he id a ha, hi⟩)

variable [Library]

theorem Steps.bounded (h : Steps e e') (he : e.Bounded) : e'.Bounded := by
  induction h with
  | refl => exact he
  | tail _ hstep ih => exact hstep.reshape.bounded ih

theorem Reachable.bounded (he : e.Reachable) : e.Bounded := by
  obtain ⟨config, h⟩ := he
  refine Steps.bounded h fun id a ha => ?_
  cases ha

end Bounds

/-! ### Positions along a run -/

section Positions

def element? (e : Engine) (id : ObjectId) (j : ℕ) : Option Value :=
  (e.object id).elements?.bind (·[j]?)

/-- The step stores a value at a position of an array. -/
def StoresAt (id : ObjectId) (j : ℕ) (v : Value) (e e' : Engine) : Prop :=
  ∃ a, (e.object id).elements? = some a ∧ e.assignIndex id a j v = .ok e'

theorem lt_size_of_elements? (ha : (e.object id).elements? = some a) : id < e.objects.size := by
  by_contra hid
  rw [object, Array.getElem?_eq_none (Nat.not_lt.mp hid)] at ha
  cases ha

/-- An array remains one, and what a step leaves at a position of it has been there, pads the
array, or is stored there by the step. -/
theorem Reshape.position (h : Reshape e e') (ha : (e.object id).elements? = some a) :
    ∃ a', (e'.object id).elements? = some a' ∧ ∀ j v, a'[j]? = some v →
      a[j]? = some v ∨ a[j]? = none ∧ v = .undefined ∨ StoresAt id j v e e' := by
  cases h with
  | kept h => exact ⟨a, (h id).trans ha, fun j v hv => .inl hv⟩
  | added hold _ =>
    refine ⟨a, ?_, fun j v hv => .inl hv⟩
    rw [hold id (lt_size_of_elements? ha), ha]
  | resized target b n hb hn h =>
    subst h
    obtain hsame | ⟨rfl, hchanged⟩ := elements?_withElements e target (Elements.resized b n) id
    · exact ⟨a, hsame.trans ha, fun j v hv => .inl hv⟩
    · cases ha.symm.trans hb
      exact ⟨_, hchanged, fun j v hv => (Elements.getElem?_of_resized hv).imp_right .inl⟩
  | stored target b i u hb _ hassign h =>
    obtain hsame | ⟨rfl, hchanged⟩ := elements?_withElements e target (Elements.stored b i u) id
    · exact ⟨a, by rw [h, hsame, ha], fun j v hv => .inl hv⟩
    · cases ha.symm.trans hb
      refine ⟨_, by rw [h, hchanged], fun j v hv => ?_⟩
      obtain hold | hpad | ⟨rfl, rfl⟩ := Elements.getElem?_of_stored hv
      · exact .inl hold
      · exact .inr (.inl hpad)
      · exact .inr (.inr ⟨a, ha, hassign⟩)

/-- From some step on a value has been at a position of an array, and that step stored it. -/
def StoredSince (es : ℕ → Engine) (n : ℕ) (id : ObjectId) (j : ℕ) (v : Value) : Prop :=
  ∃ k < n, StoresAt id j v (es k) (es (k + 1)) ∧
    ∀ i, k < i → i ≤ n → (es i).element? id j = some v

theorem StoredSince.succ {es : ℕ → Engine} (h : StoredSince es n id j v)
    (hv : (es (n + 1)).element? id j = some v) : StoredSince es (n + 1) id j v := by
  obtain ⟨k, hk, hstores, hsince⟩ := h
  refine ⟨k, Nat.lt_succ_of_lt hk, hstores, fun i hki hi => ?_⟩
  obtain hi | rfl := Nat.le_succ_iff.mp hi
  · exact hsince i hki hi
  · exact hv

/-- Along any run of steps, what is at a position that an array did not have at first is
undefined, or has been there since a step stored it. -/
theorem position_gained [Library] {es : ℕ → Engine} (hsteps : ∀ k < n, Step (es k) (es (k + 1)))
    (ha : ((es 0).object id).elements? = some a) (hj : a.size ≤ j) :
    ∃ a', ((es n).object id).elements? = some a' ∧
      ∀ v, a'[j]? = some v → v = .undefined ∨ StoredSince es n id j v := by
  induction n with
  | zero =>
    refine ⟨a, ha, fun v hv => ?_⟩
    rw [Array.getElem?_eq_none hj] at hv
    cases hv
  | succ n ih =>
    obtain ⟨b, hb, hbefore⟩ := ih fun k hk => hsteps k (Nat.lt_succ_of_lt hk)
    obtain ⟨a', ha', hposition⟩ := (hsteps n (Nat.lt_succ_self n)).reshape.position hb
    refine ⟨a', ha', fun v hv => ?_⟩
    have hafter : (es (n + 1)).element? id j = some v := by
      rw [element?, ha', Option.bind_some, hv]
    obtain hold | ⟨-, hpad⟩ | hstores := hposition j v hv
    · exact (hbefore v hold).imp_right (·.succ hafter)
    · exact .inl hpad
    · refine .inr ⟨n, Nat.lt_succ_self n, hstores, fun i hi hin => ?_⟩
      rw [Nat.le_antisymm hin hi]
      exact hafter

end Positions

end Engine

/-- An object shows the elements of an array: its own length and its own indices are those of
the elements, and its table has none of these names. -/
structure Object.Shows [Library] (o : Object) (a : Array Value) : Prop where
  size_le : a.size ≤ maxArrayLength
  length : ∃ x, Number.Denotes x a.size ∧
    o.own? "length" = some ⟨"length", .data (.number x), ⟨true, false, false⟩⟩
  index : ∀ i < maxArrayLength, o.own? (Number.decimalText i) =
    (a[i]?).map fun v => ⟨Number.decimalText i, .data v, Flags.all⟩
  noLength : o.named? "length" = none
  noIndex : ∀ i < maxArrayLength, o.named? (Number.decimalText i) = none

theorem Object.Sound.shows [Library] {o : Object} (ho : o.Sound) {a : Array Value}
    (ha : o.elements? = some a) (hsize : a.size ≤ maxArrayLength) : o.Shows a where
  size_le := hsize
  length := by
    refine ⟨Number.ofNat a.size, Number.denotes_ofNat ?_, Engine.own?_length ha⟩
    exact hsize.trans_lt (by decide)
  index i hi := by
    have hname := Number.arrayIndex?_decimalText hi
    cases hv : a[i]? with
    | some v => rw [Engine.own?_index ha hname hv, Option.map_some]
    | none => rw [Engine.own?_index_none ho ha hname hv, Option.map_none]
  noLength := ho.named?_of_isVirtual (Engine.isVirtual_length ha)
  noIndex i hi :=
    ho.named?_of_isVirtual (Engine.isVirtual_of_arrayIndex? ha (Number.arrayIndex?_decimalText hi))

variable {H : Type} {host : Host H} {w : World H}

/-- **Arrays show their elements, and nothing stale comes back.** After any run of requests every
array has as own properties its length and its indices, which are those of its elements, and none
of these names in its table. In whatever steps then follow, what is at a position that an array
did not have is undefined, or has been there since one of these steps stored it. -/
theorem arrays_show_elements [Library] [Memory] (hhost : host.Conforms) (hw : w.engine.Reachable)
    (rs : List Request) :
    let e := (Request.runAll host rs w).engine
    ∀ id a, (e.object id).elements? = some a → (e.object id).Shows a ∧
      ∀ (es : ℕ → Engine) (n : ℕ), es 0 = e → (∀ k < n, Engine.Step (es k) (es (k + 1))) →
        ∀ j, a.size ≤ j → ∀ v, (es n).element? id j = some v →
          v = .undefined ∨ Engine.StoredSince es n id j v := by
  intro e id a ha
  have he : e.Reachable := hw.steps (Request.runAll_steps hhost rs w)
  have hsound := he.sound id (Engine.lt_size_of_elements? ha)
  refine ⟨hsound.shows ha (he.bounded id a ha), fun es n hstart hsteps j hj v hv => ?_⟩
  rw [← hstart] at ha
  obtain ⟨a', ha', hgained⟩ := Engine.position_gained hsteps ha hj
  rw [Engine.element?, ha', Option.bind_some] at hv
  exact hgained v hv

/-- An array that has been cut to nothing and has grown again shows no element from before. -/
theorem arrays_show_elements_regrown :
    let b : Box := ⟨2, .object 0⟩
    let rs : List Request := [.newArray, .setElement b 1 ⟨3, .bool true⟩,
      .setProperty b "length" ⟨4, .number (Number.ofNat 0)⟩, .setElement b 2 ⟨5, .bool false⟩]
    let e := (Request.runAll Host.idle rs ⟨Engine.new .standard, Store.empty, ()⟩).engine
    (e.object 0).Shows #[.undefined, .undefined, .bool false] := by
  intro b rs e
  have ha : (e.object 0).elements? = some #[.undefined, .undefined, .bool false] := rfl
  exact (arrays_show_elements Host.idle_conforms (w := ⟨Engine.new .standard, Store.empty, ()⟩)
    ⟨.standard, .refl⟩ rs 0 _ ha).1

end ValueEngine
