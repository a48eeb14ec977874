import ValueEngine.Proofs.Engine.Requests
import ValueEngine.Proofs.Engine.Search
import ValueEngine.Proofs.Engine.Soundness
import ValueEngine.Proofs.Number.Denotation

/-! The law of assignment. Where the nearest property of a name is not an accessor, assigning it
either fails and changes nothing, or gives the object itself the value under the name and
changes nothing else; reading it back then answers the value. The length and the elements of
an array are assigned whatever its prototypes hold, and their assignment truncates the
elements or pads them. The reasons to refuse are listed, each with what it is about, and there
are no others: which of them holds can be told from the engine before the assignment. Memory
refuses nothing here. -/

namespace ValueEngine

open Number (Denotes hiddenBit)

/-! ### Elements of an array after an assignment -/

namespace Elements

variable {a : Array Value} {n i : ℕ} {v : Value}

/-- Elements cut off or padded with undefined to a length. -/
def resized (a : Array Value) (n : ℕ) : Array Value :=
  Array.ofFn fun j : Fin n => (a[(j : ℕ)]?).getD .undefined

@[simp] theorem size_resized (a : Array Value) (n : ℕ) : (resized a n).size = n := Array.size_ofFn

theorem getElem?_resized (a : Array Value) {n j : ℕ} (hj : j < n) :
    (resized a n)[j]? = some ((a[j]?).getD .undefined) := by
  rw [resized, Array.getElem?_ofFn, dif_pos hj]

theorem resized_size (a : Array Value) : resized a a.size = a := by
  apply Array.ext_getElem?
  intro j
  by_cases hj : j < a.size
  · rw [getElem?_resized a hj, Array.getElem?_eq_getElem hj, Option.getD_some]
  · rw [Array.getElem?_eq_none (by simpa using hj), Array.getElem?_eq_none (by simpa using hj)]

theorem setLength_eq_resized (hn : n ≤ maxArrayLength) : setLength a n = .ok (resized a n) := by
  have hcut : setLength a n = .ok (if n ≤ a.size then a.extract 0 n
      else a ++ Array.replicate (n - a.size) .undefined) := by
    rw [setLength_eq, if_neg (Nat.not_lt.mpr hn), Memory.grants_boundless, if_pos rfl]
    split_ifs <;> rfl
  rw [hcut]
  congr 1
  apply Array.ext_getElem?
  intro j
  by_cases hj : j < n
  · rw [getElem?_resized a hj]
    split_ifs with hsize
    · rw [Array.getElem?_extract, if_pos (by omega), Nat.zero_add,
        Array.getElem?_eq_getElem (by omega), Option.getD_some]
    · by_cases hold : j < a.size
      · rw [Array.getElem?_append_left hold, Array.getElem?_eq_getElem hold, Option.getD_some]
      · rw [Array.getElem?_append_right (Nat.not_lt.mp hold), Array.getElem?_replicate,
          if_pos (by omega), Array.getElem?_eq_none (Nat.not_lt.mp hold), Option.getD_none]
  · rw [Array.getElem?_eq_none, Array.getElem?_eq_none]
    · simpa using hj
    · split_ifs with hsize
      · rw [Array.size_extract]
        omega
      · rw [Array.size_append, Array.size_replicate]
        omega

/-- Elements with one of them stored, padded up to it. -/
def stored (a : Array Value) (i : ℕ) (v : Value) : Array Value :=
  (resized a (max a.size (i + 1))).setIfInBounds i v

theorem getElem?_stored_self (a : Array Value) (i : ℕ) (v : Value) :
    (stored a i v)[i]? = some v := by
  rw [stored, Array.getElem?_setIfInBounds_self_of_lt]
  rw [size_resized]
  omega

theorem set_eq_stored (hi : i < maxArrayLength) : set a i v = .ok (stored a i v) := by
  rw [set_eq, if_neg (Nat.not_le.mpr hi), stored]
  split_ifs with hsize
  · rw [Nat.max_eq_left hsize, resized_size]
  · rw [setLength_eq_resized hi, Nat.max_eq_right (by omega)]
    rfl

end Elements

namespace Engine

variable {e e' : Engine} {id : ObjectId} {name : String} {v : Value} {a : Array Value} {i : ℕ}

/-- What a value reads when it has been assigned: itself, but a length of -0 reads 0. -/
def readBack (o : Object) (name : String) : Value → Value
  | .number x =>
    if o.elements?.isSome ∧ name = "length" ∧ Number.isZero x then .number (Number.ofNat 0)
    else .number x
  | v => v

theorem readBack_eq_self {o : Object} (h : ¬ (o.elements?.isSome ∧ name = "length")) (v : Value) :
    readBack o name v = v := by
  cases v with
  | number x =>
    rw [readBack, if_neg]
    exact fun hzero => h ⟨hzero.1, hzero.2.1⟩
  | _ => rfl

theorem lengthLimit_le (c : Config) : c.lengthLimit ≤ maxArrayLength := Nat.min_le_right _ _

theorem isVirtual_length {o : Object} (ha : o.elements? = some a) :
    o.isVirtual "length" = true := by
  rw [Object.isVirtual, ha]
  rfl

theorem isVirtual_of_arrayIndex? {o : Object} (ha : o.elements? = some a)
    (hname : Number.arrayIndex? name = some i) : o.isVirtual name = true := by
  rw [Object.isVirtual, Object.isElementName, ha, hname]
  exact Bool.or_true _

theorem arrayIndex?_lt (hname : Number.arrayIndex? name = some i) : i < maxArrayLength := by
  rw [Number.arrayIndex?] at hname
  split_ifs at hname with h
  cases hname
  exact h.2.2

theorem ne_length_of_arrayIndex? (hname : Number.arrayIndex? name = some i) : name ≠ "length" := by
  rintro rfl
  have hnone : Number.arrayIndex? "length" = none := by decide
  rw [hnone] at hname
  cases hname

theorem checkLength_eq {n : ℕ} (hn : n ≤ e.config.lengthLimit) : e.checkLength n = .ok () := by
  rw [checkLength, if_neg (Nat.not_lt.mpr hn)]

theorem length?_eq_some_iff {n : ℕ} :
    length? v = some n ↔ ∃ x, v = .number x ∧ Denotes x n ∧ n ≤ maxArrayLength := by
  rw [length?, Option.filter_eq_some_iff, decide_eq_true_iff]
  cases v with
  | number x =>
    change Number.natural? x = some n ∧ _ ↔ _
    rw [Number.natural?_eq_some_iff]
    constructor
    · rintro ⟨hx, hn⟩
      exact ⟨x, rfl, hx, hn⟩
    · rintro ⟨x', hx', hx, hn⟩
      cases hx'
      exact ⟨hx, hn⟩
  | _ => exact ⟨nofun, nofun⟩

theorem assignIndex_refused (h : e.config.lengthLimit < i + 1) :
    ∃ f, e.assignIndex id a i v = .error f := by
  rw [assignIndex, checkLength, if_pos h]
  exact ⟨_, rfl⟩

theorem assignLength_eq {x : Float} {n : ℕ} (hx : Denotes x n) (hn : n ≤ e.config.lengthLimit) :
    e.assignLength id a (.number x) = .ok (e.modify id (·.withElements (Elements.resized a n))) := by
  have hmax := hn.trans (lengthLimit_le _)
  rw [assignLength, length?_eq_some_iff.mpr ⟨x, rfl, hx, hmax⟩]
  dsimp only
  rw [checkLength_eq hn, Elements.setLength_eq_resized hmax]
  rfl

theorem assignLength_refused
    (h : ∀ x (n : ℕ), v = .number x → Denotes x n → e.config.lengthLimit < n) :
    ∃ f, e.assignLength id a v = .error f := by
  rw [assignLength]
  cases hlength : length? v with
  | none => exact ⟨_, rfl⟩
  | some n =>
    obtain ⟨x, hv, hx, -⟩ := length?_eq_some_iff.mp hlength
    dsimp only
    rw [checkLength, if_pos (h x n hv hx)]
    exact ⟨_, rfl⟩

theorem assignIndex_eq (hmax : i < maxArrayLength) (hi : i + 1 ≤ e.config.lengthLimit) :
    e.assignIndex id a i v = .ok (e.modify id (·.withElements (Elements.stored a i v))) := by
  rw [assignIndex, checkLength_eq hi, Elements.set_eq_stored hmax]
  rfl

variable [Library]

/-- Why an assignment is refused. -/
inductive Refuses (e : Engine) (id : ObjectId) (name : String) (v : Value) : Prop
  /-- The length of an array is no natural number up to the limit. -/
  | length (harray : (e.object id).elements?.isSome) (hname : name = "length")
    (h : ∀ x (n : ℕ), v = .number x → Denotes x n → e.config.lengthLimit < n)
  /-- With an element of the index an array would be longer than the limit. -/
  | index (i : ℕ) (harray : (e.object id).elements?.isSome) (hname : Number.arrayIndex? name = some i)
    (h : e.config.lengthLimit < i + 1)
  | readOnly (hvirtual : (e.object id).isVirtual name = false) (p : Property)
    (hp : e.Nearest name id p) (h : p.flags.writable = false)
  | tooDeep (hvirtual : (e.object id).isVirtual name = false) (h : e.TooDeep name id)

structure Assigned (e : Engine) (id : ObjectId) (name : String) (v : Value) (e' : Engine) :
    Prop where
  /-- Nothing of the engine changes but its objects, and these stay as many. -/
  rest : e' = { e with objects := e'.objects } ∧ e'.objects.size = e.objects.size
  others : ∀ other, other ≠ id → e'.object other = e.object other
  prototype : (e'.object id).prototype = (e.object id).prototype
  /-- The object has the value under the name, with the flags that it has had there. -/
  own : (e'.object id).own? name = some ⟨name, .data (readBack (e.object id) name v),
    (((e.object id).own? name).map (·.flags)).getD Flags.all⟩
  named : ∀ n, n ≠ name → (e'.object id).named? n = (e.object id).named? n
  payload : (e.object id).isVirtual name = false → (e'.object id).payload = (e.object id).payload
  /-- A length truncates the elements or pads them. -/
  length : ∀ a, (e.object id).elements? = some a → name = "length" → ∃ x, ∃ n : ℕ,
    v = .number x ∧ Denotes x n ∧
      e'.object id = (e.object id).withElements (Elements.resized a n)
  /-- An element is stored, and the elements are padded up to it. -/
  index : ∀ a i, (e.object id).elements? = some a → Number.arrayIndex? name = some i →
    e'.object id = (e.object id).withElements (Elements.stored a i v)

section Virtual

theorem assign_object [Memory] (e : Engine) (id : ObjectId) (name : String) (v : Value) :
    e.assign (.object id) name v =
      match e.assignVirtual? id name v with
      | some r => r.map Assignment.stored
      | none => e.assignNamed id name v := by
  rw [assign_eq, Value.toObject]
  dsimp only [bind, Except.bind]
  rcases e.assignVirtual? id name v with _ | r
  · rfl
  · cases r <;> rfl

theorem assign_length [Memory] (ha : (e.object id).elements? = some a) :
    e.assign (.object id) "length" v = (e.assignLength id a v).map .stored := by
  rw [assign_object, assignVirtual?, ha]
  rfl

theorem assign_index [Memory] (ha : (e.object id).elements? = some a)
    (hname : Number.arrayIndex? name = some i) :
    e.assign (.object id) name v = (e.assignIndex id a i v).map .stored := by
  rw [assign_object, assignVirtual?, ha]
  dsimp only
  rw [if_neg (ne_length_of_arrayIndex? hname), hname]
  rfl

theorem assign_named [Memory] (hvirtual : (e.object id).isVirtual name = false) :
    e.assign (.object id) name v = e.assignNamed id name v := by
  rw [assign_object, assignVirtual?_eq_none_iff.mpr hvirtual]

end Virtual

/-! ### What an assignment does -/

section Effects

theorem own?_length {o : Object} (ha : o.elements? = some a) :
    o.own? "length" =
      some ⟨"length", .data (.number (Number.ofNat a.size)), ⟨true, false, false⟩⟩ := by
  rw [Object.own?, ha]
  rfl

theorem own?_index {o : Object} (ha : o.elements? = some a)
    (hname : Number.arrayIndex? name = some i)
    (hv : a[i]? = some v) : o.own? name = some ⟨name, .data v, Flags.all⟩ := by
  rw [Object.own?, ha]
  dsimp only
  rw [if_neg (ne_length_of_arrayIndex? hname), hname, Option.bind_some, hv]

theorem own?_index_none {o : Object} (ho : o.Sound) (ha : o.elements? = some a)
    (hname : Number.arrayIndex? name = some i) (hv : a[i]? = none) : o.own? name = none := by
  rw [Object.own?, ha]
  dsimp only
  rw [if_neg (ne_length_of_arrayIndex? hname), hname, Option.bind_some, hv]
  exact ho.named?_of_isVirtual (isVirtual_of_arrayIndex? ha hname)

theorem flags_index (ho : (e.object id).Sound) (ha : (e.object id).elements? = some a)
    (hname : Number.arrayIndex? name = some i) :
    (((e.object id).own? name).map (·.flags)).getD Flags.all = Flags.all := by
  cases hv : a[i]? with
  | some v =>
    rw [own?_index ha hname hv]
    rfl
  | none =>
    rw [own?_index_none ho ha hname hv]
    rfl

theorem assigned_length (hid : id < e.objects.size) (ha : (e.object id).elements? = some a)
    {x : Float} {n : ℕ} (hx : Denotes x n) (hn : n ≤ maxArrayLength) :
    e.Assigned id "length" (.number x) (e.modify id (·.withElements (Elements.resized a n))) := by
  have hself := object_modify_self e (·.withElements (Elements.resized a n)) hid
  have hvirtual := isVirtual_length ha
  refine ⟨⟨rfl, Array.size_modify⟩, fun other h => object_modify_of_ne e _ (Ne.symm h), ?_, ?_,
    fun m _ => by rw [hself]; rfl, ?_, ?_, ?_⟩
  · rw [hself]
    rfl
  · have hprecision : n < 2 * hiddenBit := lt_of_le_of_lt hn (by decide)
    have hnew : ((e.object id).withElements (Elements.resized a n)).own? "length" =
        some ⟨"length", .data (.number (Number.ofNat n)), ⟨true, false, false⟩⟩ := by
      rw [own?_length rfl, Elements.size_resized]
    rw [hself, hnew, own?_length ha, Number.ofNat_of_denotes hx hprecision, readBack, ha]
    by_cases hzero : Number.isZero x = true
    · simp only [hzero, Option.isSome_some, and_self, if_true]
      rfl
    · simp only [hzero]
      rfl
  · rw [hvirtual]
    exact nofun
  · intro a' ha' _
    rw [ha, Option.some.injEq] at ha'
    subst ha'
    exact ⟨x, n, rfl, hx, hself⟩
  · intro a' i' _ hname
    exact absurd rfl (ne_length_of_arrayIndex? hname)

theorem assigned_index (ho : (e.object id).Sound) (hid : id < e.objects.size)
    (ha : (e.object id).elements? = some a) (hname : Number.arrayIndex? name = some i) :
    e.Assigned id name v (e.modify id (·.withElements (Elements.stored a i v))) := by
  have hself := object_modify_self e (·.withElements (Elements.stored a i v)) hid
  have hlength := ne_length_of_arrayIndex? hname
  have hvirtual := isVirtual_of_arrayIndex? ha hname
  refine ⟨⟨rfl, Array.size_modify⟩, fun other h => object_modify_of_ne e _ (Ne.symm h), ?_, ?_,
    fun m _ => by rw [hself]; rfl, ?_, ?_, ?_⟩
  · rw [hself]
    rfl
  · rw [hself, own?_index rfl hname (Elements.getElem?_stored_self a i v), flags_index ho ha hname,
      readBack_eq_self fun h => hlength h.2]
  · rw [hvirtual]
    exact nofun
  · exact fun a' _ h => absurd h hlength
  · intro a' i' ha' hname'
    rw [ha, Option.some.injEq] at ha'
    rw [hname, Option.some.injEq] at hname'
    subst ha' hname'
    exact hself

theorem assigned_named (ho : (e.object id).Sound) (hid : id < e.objects.size)
    (hvirtual : (e.object id).isVirtual name = false) :
    e.Assigned id name v (e.modify id (·.set name v)) := by
  have hself := object_modify_self e (·.set name v) hid
  refine ⟨⟨rfl, Array.size_modify⟩, fun other h => object_modify_of_ne e _ (Ne.symm h), ?_, ?_,
    ?_, ?_, ?_, ?_⟩
  · rw [hself]
    rfl
  · have hplain : ((e.object id).set name v).isVirtual name = false := hvirtual
    have hread : readBack (e.object id) name v = v := by
      apply readBack_eq_self
      rintro ⟨harray, rfl⟩
      rw [Object.isVirtual, harray] at hvirtual
      cases hvirtual
    rw [hself, Object.own?_eq_named? hplain, Object.own?_eq_named? hvirtual, ho.named?_set,
      if_pos rfl, hread]
  · intro m hm
    rw [hself, ho.named?_set, if_neg hm]
  · intro _
    rw [hself]
    rfl
  · rintro a ha rfl
    rw [isVirtual_length ha] at hvirtual
    cases hvirtual
  · intro a i ha hname
    rw [isVirtual_of_arrayIndex? ha hname] at hvirtual
    cases hvirtual

end Effects

/-! ### The two ways to come out -/

section Law

theorem not_refuses_length (ha : (e.object id).elements? = some a) {x : Float} {n : ℕ}
    (hx : Denotes x n) (hn : n ≤ e.config.lengthLimit) : ¬ e.Refuses id "length" (.number x) := by
  have hvirtual := isVirtual_length ha
  rintro (⟨-, -, h⟩ | ⟨i, -, hname, -⟩ | ⟨hplain, -⟩ | ⟨hplain, -⟩)
  · exact absurd (h x n rfl hx) (Nat.not_lt.mpr hn)
  · exact ne_length_of_arrayIndex? hname rfl
  · cases hplain.symm.trans hvirtual
  · cases hplain.symm.trans hvirtual

theorem not_refuses_index (ha : (e.object id).elements? = some a)
    (hname : Number.arrayIndex? name = some i) (hi : i + 1 ≤ e.config.lengthLimit) :
    ¬ e.Refuses id name v := by
  have hvirtual := isVirtual_of_arrayIndex? ha hname
  rintro (⟨-, hlength, -⟩ | ⟨i', -, hname', h⟩ | ⟨hplain, -⟩ | ⟨hplain, -⟩)
  · exact ne_length_of_arrayIndex? hname hlength
  · cases hname.symm.trans hname'
    exact absurd h (Nat.not_lt.mpr hi)
  · cases hplain.symm.trans hvirtual
  · cases hplain.symm.trans hvirtual

theorem not_refuses_named (hvirtual : (e.object id).isVirtual name = false)
    (hwritable : ∀ p, e.Nearest name id p → p.flags.writable = true)
    (hdeep : ¬ e.TooDeep name id) : ¬ e.Refuses id name v := by
  rintro (⟨harray, rfl, -⟩ | ⟨i, harray, hname, -⟩ | ⟨-, p, hp, h⟩ | ⟨-, h⟩)
  · obtain ⟨a, ha⟩ := Option.isSome_iff_exists.mp harray
    cases hvirtual.symm.trans (isVirtual_length ha)
  · obtain ⟨a, ha⟩ := Option.isSome_iff_exists.mp harray
    cases hvirtual.symm.trans (isVirtual_of_arrayIndex? ha hname)
  · cases h.symm.trans (hwritable p hp)
  · exact hdeep h

/-- How an assignment comes out if the law holds of it. -/
def Lawful (e : Engine) (id : ObjectId) (name : String) (v : Value) : Prop :=
  (e.Refuses id name v ∧ ∃ f, e.assign (.object id) name v = .error f) ∨
    ¬ e.Refuses id name v ∧
      ∃ e', e.assign (.object id) name v = .ok (.stored e') ∧ e.Assigned id name v e'

theorem lawful_length (hid : id < e.objects.size) (ha : (e.object id).elements? = some a)
    (v : Value) :
    e.Lawful id "length" v := by
  rw [Lawful, assign_length ha]
  by_cases h : ∃ x, ∃ n : ℕ, v = .number x ∧ Denotes x n ∧ n ≤ e.config.lengthLimit
  · obtain ⟨x, n, rfl, hx, hn⟩ := h
    rw [assignLength_eq hx hn]
    exact Or.inr ⟨not_refuses_length ha hx hn, _, rfl,
      assigned_length hid ha hx (hn.trans (lengthLimit_le _))⟩
  · have hinvalid : ∀ x (n : ℕ), v = .number x → Denotes x n → e.config.lengthLimit < n :=
      fun x n hv hx => Nat.not_le.mp fun hn => h ⟨x, n, hv, hx, hn⟩
    obtain ⟨f, hf⟩ : ∃ f, e.assignLength id a v = .error f := assignLength_refused hinvalid
    rw [hf]
    exact Or.inl ⟨.length (by rw [ha]; rfl) rfl hinvalid, f, rfl⟩

theorem lawful_index (ho : (e.object id).Sound) (hid : id < e.objects.size)
    (ha : (e.object id).elements? = some a) (hname : Number.arrayIndex? name = some i) (v : Value) :
    e.Lawful id name v := by
  rw [Lawful, assign_index ha hname]
  by_cases hi : i + 1 ≤ e.config.lengthLimit
  · rw [assignIndex_eq (arrayIndex?_lt hname) hi]
    exact Or.inr ⟨not_refuses_index ha hname hi, _, rfl, assigned_index ho hid ha hname⟩
  · obtain ⟨f, hf⟩ : ∃ f, e.assignIndex id a i v = .error f :=
      assignIndex_refused (Nat.not_le.mp hi)
    rw [hf]
    exact Or.inl ⟨.index i (by rw [ha]; rfl) hname (Nat.not_le.mp hi), f, rfl⟩

theorem lawful_named (ho : (e.object id).Sound) (hid : id < e.objects.size)
    (hvirtual : (e.object id).isVirtual name = false)
    (hdata : ∀ p, e.Nearest name id p → ∃ u, p.slot = .data u) (v : Value) :
    e.Lawful id name v := by
  have hassigned := assigned_named (v := v) ho hid hvirtual
  rw [Lawful, assign_named hvirtual, assignNamed]
  by_cases hdeep : e.TooDeep name id
  · rw [lookup_of_tooDeep hdeep]
    exact Or.inl ⟨.tooDeep hvirtual hdeep, _, rfl⟩
  · obtain ⟨p, hnearest, hfound⟩ | ⟨hnone, hfound⟩ := lookup_of_not_tooDeep hdeep
    · obtain ⟨key, slot, flags⟩ := p
      obtain ⟨u, rfl : slot = .data u⟩ := hdata _ hnearest
      rw [hfound]
      cases hw : flags.writable with
      | false =>
        refine Or.inl ⟨.readOnly hvirtual _ hnearest hw, .readOnly name, ?_⟩
        change (if flags.writable then _ else _) = _
        rw [hw]
        rfl
      | true =>
        refine Or.inr ⟨not_refuses_named hvirtual ?_ hdeep, _, ?_, hassigned⟩
        · intro q hq
          rw [hq.unique hnearest]
          exact hw
        · change (if flags.writable then _ else _) = _
          rw [hw]
          rfl
    · rw [hfound]
      exact Or.inr ⟨not_refuses_named hvirtual (fun p hp => absurd hp (hnone p)) hdeep, _, rfl,
        hassigned⟩

/-- A name of an array is its length, an index or the name of a property of the table. -/
theorem lawful (ho : (e.object id).Sound) (hid : id < e.objects.size)
    (hdata : (e.object id).isVirtual name = false →
      ∀ p, e.Nearest name id p → ∃ u, p.slot = .data u) (v : Value) : e.Lawful id name v := by
  cases hvirtual : (e.object id).isVirtual name with
  | false => exact lawful_named ho hid hvirtual (hdata hvirtual) v
  | true =>
    rw [Object.isVirtual, Bool.and_eq_true, Option.isSome_iff_exists] at hvirtual
    obtain ⟨⟨a, ha⟩, hname⟩ := hvirtual
    rw [Object.isElementName, Bool.or_eq_true, decide_eq_true_iff, Option.isSome_iff_exists] at hname
    obtain rfl | ⟨i, hi⟩ := hname
    · exact lawful_length hid ha v
    · exact lawful_index ho hid ha hi v

end Law

theorem read_object : e.read (.object id) name =
    (e.lookup id name).map fun found => found.elim .absent fun p => .ofSlot p.slot := by
  rw [read, Value.toObject]
  change (e.lookup id name >>= _) = _
  rcases e.lookup id name with f | _ | p <;> rfl

theorem read_absent (h : e.lookup id name = .ok none) : e.read (.object id) name = .ok .absent := by
  rw [read_object, h]
  rfl

theorem read_met {p : Property} (h : e.lookup id name = .ok (some p)) :
    e.read (.object id) name = .ok (.ofSlot p.slot) := by
  rw [read_object, h]
  rfl

end Engine

variable {H : Type} {host : Host H} {w : World H} {receiver : Box} {id : ObjectId} {name : String}

/-- A name of an object is answered by a value in every way of asking. -/
structure Answers [Library] (host : Host H) (w : World H) (receiver : Box) (name : String)
    (v : Value) : Prop where
  own : w.engine.readOwn receiver.value name = .ok (some (.data v))
  has : w.engine.has receiver.value name = .ok true
  get : ∃ b t, (Operation.getProperty host receiver name).outcome w = (.ok (some b), t) ∧ b.value = v

theorem answers_of_own? [Library] {key : String} {v : Value} {flags : Flags}
    (hr : receiver.value = .object id)
    (hown : (w.engine.object id).own? name = some ⟨key, .data v, flags⟩) :
    Answers host w receiver name v := by
  have hlookup := Engine.lookup_of_own? hown
  refine ⟨?_, ?_, ⟨w.engine.boxes, v⟩, ((Operation.box v).outcome w).2, ?_, rfl⟩
  · rw [Engine.readOwn, hr, Value.toObject]
    change Except.ok (((w.engine.object id).own? name).map (·.slot)) = _
    rw [hown]
    rfl
  · rw [hr, Engine.has_object, hlookup]
    rfl
  · rw [Operation.getProperty, Action.outcome_bind, Operation.outcome_ask, hr,
      Engine.read_met hlookup]
    rfl

/-- **The law of assignment.** In every reachable engine, assigning a name of an object whose
nearest property of that name is not an accessor is refused, and then nothing changes, or
the object gets the value, and then nothing else changes and the value is read back. -/
theorem assignment_law [Library] (hw : w.engine.Reachable) (hr : receiver.value = .object id)
    (hid : id < w.engine.objects.size)
    (hdata : (w.engine.object id).isVirtual name = false →
      ∀ p, w.engine.Nearest name id p → ∃ u, p.slot = .data u) (v : Box) :
    let outcome := (Operation.setProperty host receiver name v).outcome w
    (w.engine.Refuses id name v.value → ∃ f, outcome = (.error f, w)) ∧
      (¬ w.engine.Refuses id name v.value → ∃ e', outcome = (.ok (), { w with engine := e' }) ∧
        w.engine.Assigned id name v.value e' ∧
        Answers host { w with engine := e' } receiver name
          (Engine.readBack (w.engine.object id) name v.value)) := by
  intro outcome
  have hoccurs : outcome = (Operation.setProperty host receiver name v).outcome w := rfl
  rw [Operation.setProperty_eq, Action.outcome_bind, Operation.outcome_ask, hr] at hoccurs
  obtain ⟨hrefuses, f, hf⟩ | ⟨hadmits, e', he', hassigned⟩ :=
    Engine.lawful (hw.sound id hid) hid hdata v.value
  · rw [hf] at hoccurs
    exact ⟨fun _ => ⟨f, hoccurs⟩, fun h => absurd hrefuses h⟩
  · rw [he'] at hoccurs
    exact ⟨fun h => absurd h hadmits, fun _ =>
      ⟨e', hoccurs, hassigned, answers_of_own? hr hassigned.own⟩⟩

/-- An object with a property, and an object that inherits it. -/
def Engine.heir : Engine :=
  let parent :=
    ((Engine.new .standard).create (.ofClass .plain)).2.modify 0 (·.set "x" (.bool false))
  (parent.create { Object.ofClass .plain with prototype := some 0 }).2

theorem Engine.heir_reachable : Engine.heir.Reachable := by
  let parent := ((Engine.new .standard).create (.ofClass .plain)).2
  have hassigned : parent.assign (.object 0) "x" (.bool false) =
      .ok (.stored (parent.modify 0 (·.set "x" (.bool false)))) := rfl
  have hderived : (parent.modify 0 (·.set "x" (.bool false))).createWithPrototype (.object 0) =
      .ok (⟨3, .object 1⟩, Engine.heir) := rfl
  have hmade := Engine.Step.newObject (e := Engine.new .standard)
  exact ⟨.standard, hmade.steps.trans ((Engine.Step.assign hassigned).steps.trans
    (Engine.Step.createWithPrototype hderived).steps)⟩

theorem Engine.heir_inherits : Engine.heir.Passes "x" 1 1 0 ∧
    (Engine.heir.object 0).own? "x" = some ⟨"x", .data (.bool false), Flags.all⟩ := by
  have hset := (Object.sound_ofClass .plain none).named?_set "x" (.bool false) "x"
  rw [if_pos rfl] at hset
  exact ⟨.on rfl rfl (.here 0), hset⟩

/-- The heir gets a property of its own and leaves the inherited one alone. -/
theorem assignment_law_inherited :
    let w : World Unit := ⟨Engine.heir, Store.empty, ()⟩
    let b : Box := ⟨3, .object 1⟩
    let v : Box := ⟨4, .bool true⟩
    ∃ e', (Operation.setProperty Host.idle b "x" v).outcome w = (.ok (), { w with engine := e' }) ∧
      Engine.heir.Assigned 1 "x" (.bool true) e' ∧
      Answers Host.idle { w with engine := e' } b "x" (.bool true) := by
  intro w b v
  obtain ⟨hpasses, hown⟩ := Engine.heir_inherits
  have hnearest : ∀ p, Engine.heir.Nearest "x" 1 p → p = ⟨"x", .data (.bool false), Flags.all⟩ :=
    fun p hp => hp.unique ⟨1, 0, hpasses, hown⟩
  have hdata : ∀ p, Engine.heir.Nearest "x" 1 p → ∃ u, p.slot = .data u :=
    fun p hp => ⟨.bool false, by rw [hnearest p hp]⟩
  have hwritable : ∀ p, Engine.heir.Nearest "x" 1 p → p.flags.writable = true :=
    fun p hp => by rw [hnearest p hp]; rfl
  have hdeep : ¬ Engine.heir.TooDeep "x" 1 := by
    intro h
    have hfound : Engine.heir.lookup 1 "x" = .ok (some _) :=
      Engine.lookupWithin_eq_some_iff.mpr ⟨1, 0, by decide, hpasses, hown⟩
    cases (Engine.lookup_of_tooDeep h).symm.trans hfound
  have hlaw :=
    @assignment_law Unit Host.idle w b 1 "x" .standard Engine.heir_reachable rfl (by decide)
    (fun _ => hdata) v
  exact hlaw.2 (Engine.not_refuses_named rfl hwritable hdeep)

end ValueEngine
