import ValueEngine.Proofs.Engine.Containers

/-! Documents read back. The parts of a container are built one after the other before the
container itself, each in an engine that the next one only adds objects to. So the container
refers to what each part has become, a path leads through the values as it leads through the
document, and two places of a document never share an object, as the objects of one part have
been there before the next part is begun. The document is given as such here: which texts are
documents, and what each one says, is the reader's business. Keys are distinct and lists are
short enough to be arrays in every document that is spoken of. -/

namespace ValueEngine

/-! ### Paths in a document -/

namespace Json

/-- A step into a list or an object. -/
inductive Hop
  | index (i : ℕ)
  | key (name : String)

namespace Document

def part? : Document → Hop → Option Document
  | .list items, .index i => items[i]?
  | .object fields, .key name => fields.lookup name
  | _, _ => none

def at? (d : Document) : List Hop → Option Document
  | [] => some d
  | hop :: path => (d.part? hop).bind (·.at? path)

/-- No list is longer than an array can be, and the keys of every object are distinct. -/
inductive Storable : Document → Prop
  | null : Storable .null
  | bool (b : Bool) : Storable (.bool b)
  | number (x : Float) : Storable (.number x)
  | text (s : String) : Storable (.text s)
  | list {items : List Document} (hlength : items.length ≤ maxArrayLength)
    (h : ∀ d ∈ items, Storable d) : Storable (.list items)
  | object {fields : List (String × Document)} (hkeys : (fields.map (·.1)).Nodup)
    (h : ∀ d ∈ fields.map (·.2), Storable d) : Storable (.object fields)

/-- The parts of a container in the order in which they are built. -/
def parts : Document → List Document
  | .list items => items
  | .object fields => fields.map (·.2)
  | _ => []

/-- The step that leads to a part. -/
def hop? : Document → ℕ → Option Hop
  | .list _, i => some (.index i)
  | .object fields, i => (fields[i]?).map fun f => .key f.1
  | _, _ => none

/-- What a container becomes when its parts have become these values. -/
def container? [Library] (vs : List Value) : Document → Option Object
  | .list _ => some (.listed vs)
  | .object fields => some (.filled ((fields.map (·.1)).zip vs))
  | _ => none

variable {d part : Document} {hop : Hop} {i : ℕ}

theorem Storable.of_mem_parts (hd : d.Storable) (h : part ∈ d.parts) : part.Storable := by
  cases hd with
  | list _ hall => exact hall part h
  | object _ hall => exact hall part h
  | _ => cases h

theorem hop?_of_part? (h : d.part? hop = some part) :
    ∃ i, d.hop? i = some hop ∧ d.parts[i]? = some part := by
  cases d with
  | list items =>
    cases hop with
    | index i => exact ⟨i, rfl, h⟩
    | key name => cases h
  | object fields =>
    cases hop with
    | index i => cases h
    | key name =>
      obtain ⟨before, after, rfl, -⟩ := List.lookup_eq_some_iff.mp h
      refine ⟨before.length, ?_, ?_⟩ <;> simp [hop?, parts]
  | _ => cases h

end Document

end Json

open Json (Document Hop)

namespace Engine

variable {e e' t : Engine} {d part : Document} {ds ds' : List Document} {hop : Hop} {i j : ℕ}

/-- An engine with all objects of another one, and perhaps more behind them. -/
structure Extends (t e : Engine) : Prop where
  size_le : e.objects.size ≤ t.objects.size
  object : ∀ id < e.objects.size, t.object id = e.object id

theorem Extends.refl (e : Engine) : e.Extends e := ⟨Nat.le_refl _, fun _ _ => rfl⟩

theorem Extends.trans (h : t.Extends e') (h' : e'.Extends e) : t.Extends e where
  size_le := h'.size_le.trans h.size_le
  object id hid := (h.object id (hid.trans_le h'.size_le)).trans (h'.object id hid)

theorem extends_createValue (e : Engine) (o : Object) : (e.createValue o).2.Extends e where
  size_le := by
    rw [createValue, Array.size_push]
    exact Nat.le_succ _
  object _ hid := object_made Array.push_eq_append hid

theorem object_createValue (e : Engine) (o : Object) :
    (e.createValue o).2.object e.objects.size = o := by
  simp [Engine.object, createValue]

variable [Library]

theorem keptByBuilding_extends (e : Engine) : KeptByBuilding (·.Extends e) where
  list _ _ h := (extends_createValue _ _).trans h
  object _ _ h := (extends_createValue _ _).trans h

theorem extends_build (e : Engine) (d : Document) : (e.build d).2.Extends e :=
  build_keeps (keptByBuilding_extends e) (.refl e) d

theorem extends_buildItems (e : Engine) (ds : List Document) : (e.buildItems ds).2.Extends e :=
  buildItems_keeps (keptByBuilding_extends e) (.refl e) ds

/-! ### Items in their order -/

section Items

theorem buildItems_cons (e : Engine) (d : Document) (ds : List Document) :
    e.buildItems (d :: ds) =
      ((e.build d).1 :: ((e.build d).2.buildItems ds).1, ((e.build d).2.buildItems ds).2) := by
  rw [buildItems]

theorem buildFields_cons (e : Engine) (f : String × Document) (fs : List (String × Document)) :
    e.buildFields (f :: fs) = ((f.1, (e.build f.2).1) :: ((e.build f.2).2.buildFields fs).1,
      ((e.build f.2).2.buildFields fs).2) := by
  rw [buildFields, buildField]

/-- The fields of an object are built as the list of their values is. -/
theorem buildFields_eq (e : Engine) (fields : List (String × Document)) :
    e.buildFields fields = ((fields.map (·.1)).zip (e.buildItems (fields.map (·.2))).1,
      (e.buildItems (fields.map (·.2))).2) := by
  induction fields generalizing e with
  | nil => simp [buildFields, buildItems]
  | cons f fields ih =>
    rw [buildFields_cons, ih, List.map_cons, List.map_cons, buildItems_cons, List.zip_cons_cons]

theorem buildItems_append (e : Engine) (ds ds' : List Document) :
    e.buildItems (ds ++ ds') =
      ((e.buildItems ds).1 ++ ((e.buildItems ds).2.buildItems ds').1,
        ((e.buildItems ds).2.buildItems ds').2) := by
  induction ds generalizing e with
  | nil => simp [buildItems]
  | cons d ds ih => rw [List.cons_append, buildItems_cons, ih, buildItems_cons, List.cons_append]

theorem length_buildItems (e : Engine) (ds : List Document) :
    (e.buildItems ds).1.length = ds.length := by
  induction ds generalizing e with
  | nil => simp [buildItems]
  | cons d ds ih => rw [buildItems_cons, List.length_cons, ih, List.length_cons]

/-- The engine in which an item is built: the items before it have been built already. -/
def before (e : Engine) (ds : List Document) (i : ℕ) : Engine := (e.buildItems (ds.take i)).2

theorem before_succ (hd : ds[i]? = some d) :
    e.before ds (i + 1) = ((e.before ds i).build d).2 := by
  rw [before, List.take_add_one, hd, Option.toList_some, buildItems_append, buildItems_cons]
  simp [buildItems, before]

theorem getElem?_buildItems (hd : ds[i]? = some d) :
    (e.buildItems ds).1[i]? = some ((e.before ds i).build d).1 := by
  induction ds generalizing e i with
  | nil => cases hd
  | cons d' ds ih =>
    rw [buildItems_cons]
    cases i with
    | zero =>
      cases hd
      simp [before, buildItems]
    | succ i =>
      rw [List.getElem?_cons_succ, ih hd, before, before, List.take_succ_cons, buildItems_cons]

theorem extends_before (e : Engine) (ds : List Document) (hij : i ≤ j) :
    (e.before ds j).Extends (e.before ds i) := by
  have htake : ds.take j = ds.take i ++ (ds.drop i).take (j - i) := by
    rw [← List.take_add, Nat.add_sub_cancel' hij]
  rw [before, htake, buildItems_append]
  exact extends_buildItems _ _

theorem extends_before_all (e : Engine) (ds : List Document) (i : ℕ) :
    (e.buildItems ds).2.Extends (e.before ds i) := by
  have hall : ds.take (max i ds.length) = ds := List.take_of_length_le (Nat.le_max_right _ _)
  have hextends := e.extends_before ds (Nat.le_max_left i ds.length)
  rwa [before, hall] at hextends

end Items

/-- The value answers a step with another value: a key as the property of the name, an index as the
element there. -/
def Part (e : Engine) (v : Value) : Hop → Value → Prop
  | .key name, u => e.Gets v name (some u)
  | .index i, u => e.getElement v i = .ok (some u)

/-- From a value the answers along a path lead to another value. -/
inductive Follows (e : Engine) : Value → List Hop → Value → Prop
  | here (v : Value) : Follows e v [] v
  | on {v u last : Value} {hop : Hop} {path : List Hop} (h : e.Part v hop u)
    (hrest : Follows e u path last) : Follows e v (hop :: path) last

variable {v u u' : Value} {id : ObjectId} {path : List Hop}

theorem Part.unique (h : e.Part v hop u) (h' : e.Part v hop u') : u = u' := by
  cases hop with
  | key name => exact Option.some.inj (Gets.unique h h')
  | index i => exact Option.some.inj (Except.ok.inj (Eq.trans (Eq.symm h) h'))

theorem Follows.unique (h : e.Follows v path u) (h' : e.Follows v path u') : u = u' := by
  induction h with
  | here v =>
    cases h'
    rfl
  | on hpart _ ih =>
    obtain _ | ⟨hpart', hrest'⟩ := h'
    exact ih (hpart.unique hpart' ▸ hrest')

/-! ### One container and its parts -/

section Nodes

theorem build_container {o : Object} (h : d.container? (e.buildItems d.parts).1 = some o) :
    e.build d = (e.buildItems d.parts).2.createValue o := by
  cases d with
  | list items =>
    cases h
    rw [build]
    rfl
  | object fields =>
    cases h
    rw [build, buildFields_eq]
    rfl
  | _ => cases h

theorem build_scalar (h : d.container? (e.buildItems d.parts).1 = none) :
    (e.build d).2 = e ∧ ∀ id, (e.build d).1 ≠ .object id := by
  cases d with
  | list items => cases h
  | object fields => cases h
  | _ =>
    rw [build]
    exact ⟨rfl, nofun⟩

/-- A container comes behind everything that its parts need, as the last object. -/
theorem object_of_build {o : Object} (h : d.container? (e.buildItems d.parts).1 = some o)
    (ht : t.Extends (e.build d).2) :
    ∃ id, (e.build d).1 = .object id ∧ t.object id = o ∧
      id = (e.buildItems d.parts).2.objects.size ∧ id + 1 = (e.build d).2.objects.size := by
  rw [build_container h] at ht ⊢
  have hsize : ((e.buildItems d.parts).2.createValue o).2.objects.size =
      (e.buildItems d.parts).2.objects.size + 1 := Array.size_push _
  refine ⟨_, rfl, ?_, rfl, hsize.symm⟩
  rw [ht.object _ (hsize ▸ Nat.lt_succ_self _), object_createValue]

theorem zip_keys (e : Engine) (fields : List (String × Document)) :
    ((fields.map (·.1)).zip (e.buildItems (fields.map (·.2))).1).map (·.1) = fields.map (·.1) := by
  rw [List.map_fst_zip]
  simp [length_buildItems]

theorem presents_build (hd : d.Storable) (ht : t.Extends (e.build d).2) :
    t.Presents (e.build d).1 d := by
  cases hd with
  | list hlength _ =>
    obtain ⟨id, hid, ho, -⟩ := object_of_build (d := .list _) rfl ht
    rw [hid]
    exact .list (presentsItems ho (length_buildItems _ _) hlength)
  | object hkeys _ =>
    obtain ⟨id, hid, ho, -⟩ := object_of_build (d := .object _) rfl ht
    rw [hid]
    exact .object (presentsFields ho (zip_keys _ _) hkeys)
  | _ =>
    rw [build]
    constructor

/-- A container answers the step to a part with the value of the part. -/
theorem part_build (hd : d.Storable) (ht : t.Extends (e.build d).2) (hhop : d.hop? i = some hop)
    (hpart : d.parts[i]? = some part) :
    t.Part (e.build d).1 hop ((e.before d.parts i).build part).1 := by
  have hu := getElem?_buildItems (e := e) hpart
  cases hd with
  | list hlength _ =>
    obtain ⟨id, hid, ho, -⟩ := object_of_build (d := .list _) rfl ht
    cases hhop
    rw [hid]
    exact getElement_listed_of_getElem? ho ((length_buildItems _ _).trans_le hlength) hu
  | object hkeys _ =>
    obtain ⟨id, hid, ho, -⟩ := object_of_build (d := .object _) rfl ht
    obtain ⟨f, hf, rfl⟩ := Option.map_eq_some_iff.mp hhop
    have hnodup := (zip_keys e _).symm ▸ hkeys
    rw [hid]
    refine gets_filled ho hnodup (Object.lookup_of_mem hnodup (List.mem_of_getElem? (i := i) ?_))
    rw [List.getElem?_zip_eq_some]
    exact ⟨by rw [List.getElem?_map, hf, Option.map_some], hu⟩
  | _ => cases hhop

/-- Objects are referred to by containers only, and these come last. -/
theorem value_build (h : (e.build d).1 = .object id) :
    e.objects.size ≤ id ∧ id + 1 = (e.build d).2.objects.size := by
  cases hcontainer : d.container? (e.buildItems d.parts).1 with
  | none => cases (build_scalar hcontainer).2 id h
  | some o =>
    obtain ⟨id', hid', -, hlast, hsize⟩ := object_of_build hcontainer (.refl _)
    cases h.symm.trans hid'
    exact ⟨hlast ▸ (extends_buildItems e d.parts).size_le, hsize⟩

/-- Something with parts has been built after all of them. -/
theorem extends_parts (hpart : d.parts[i]? = some part) :
    (e.build d).2.Extends ((e.before d.parts i).build part).2 ∧
      ((e.before d.parts i).build part).2.objects.size < (e.build d).2.objects.size := by
  have hall := extends_before_all e d.parts (i + 1)
  rw [before_succ hpart] at hall
  cases hcontainer : d.container? (e.buildItems d.parts).1 with
  | none =>
    cases d with
    | list => cases hcontainer
    | object => cases hcontainer
    | _ => cases hpart
  | some o =>
    rw [build_container hcontainer]
    refine ⟨(extends_createValue _ o).trans hall, hall.size_le.trans_lt ?_⟩
    rw [createValue, Array.size_push]
    exact Nat.lt_succ_self _

end Nodes

/-! ### Whole paths -/

section Paths

/-- The part at the end of a path has been built on the way to the whole, and the values lead to
what it has become. -/
theorem follows_build (hd : d.Storable) (ht : t.Extends (e.build d).2)
    (hat : d.at? path = some part) :
    ∃ e₁ : Engine, e₁.Extends e ∧ (e.build d).2.Extends (e₁.build part).2 ∧ part.Storable ∧
      t.Follows (e.build d).1 path (e₁.build part).1 ∧
      (path = [] ∨ (e₁.build part).2.objects.size < (e.build d).2.objects.size) := by
  induction path generalizing e d with
  | nil =>
    cases hat
    exact ⟨e, .refl e, .refl _, hd, .here _, .inl rfl⟩
  | cons hop path ih =>
    obtain ⟨next, hnext, hrest⟩ := Option.bind_eq_some_iff.mp hat
    obtain ⟨i, hhop, hi⟩ := Document.hop?_of_part? hnext
    obtain ⟨hextends, hlt⟩ := extends_parts hi
    have hstorable := hd.of_mem_parts (List.mem_of_getElem? hi)
    obtain ⟨e₁, he₁, hpart, hstored, hfollows, -⟩ := ih hstorable (ht.trans hextends) hrest
    have hbefore : (e.before d.parts i).Extends e := extends_buildItems e _
    exact ⟨e₁, he₁.trans hbefore, hextends.trans hpart, hstored,
      .on (part_build hd ht hhop hi) hfollows, .inr (hpart.size_le.trans_lt hlt)⟩

/-- An object at the end of a path is a new one, and the last one only if the path is empty. -/
theorem bounds_of_follows (hd : d.Storable) (ht : t.Extends (e.build d).2)
    (hat : d.at? path = some part) (h : t.Follows (e.build d).1 path (.object id)) :
    e.objects.size ≤ id ∧ id < (e.build d).2.objects.size ∧
      (path = [] ∨ id + 1 < (e.build d).2.objects.size) := by
  obtain ⟨e₁, he₁, hpart, -, hfollows, hsize⟩ := follows_build hd ht hat
  obtain ⟨hfirst, hlast⟩ := value_build (hfollows.unique h)
  have hin : id + 1 ≤ (e.build d).2.objects.size := hlast.trans_le hpart.size_le
  exact ⟨he₁.size_le.trans hfirst, hin, hlast ▸ hsize⟩

/-- The object of a document is the last one to be made, so it does not come again inside. -/
theorem eq_nil_of_follows (hd : d.Storable) (ht : t.Extends (e.build d).2)
    (hat : d.at? path = some part) (h : t.Follows (e.build d).1 path (.object id))
    (hroot : (e.build d).1 = .object id) : path = [] := by
  obtain ⟨-, hlast⟩ := value_build hroot
  obtain ⟨-, -, hpath | hlt⟩ := bounds_of_follows hd ht hat h
  · exact hpath
  · exact absurd hlt hlast.not_lt

theorem size_build_le (e : Engine) (hi : ds[i]? = some d) (hij : i < j) :
    ((e.before ds i).build d).2.objects.size ≤ (e.before ds j).objects.size := by
  rw [← before_succ hi]
  exact (extends_before e ds hij).size_le

/-- After the first step a path goes on in the part that the step leads to. -/
theorem follows_cons (hd : d.Storable) (ht : t.Extends (e.build d).2)
    (hat : d.at? (hop :: path) = some part) (h : t.Follows (e.build d).1 (hop :: path) v) :
    ∃ i next, d.hop? i = some hop ∧ d.parts[i]? = some next ∧ next.Storable ∧
      next.at? path = some part ∧ t.Extends ((e.before d.parts i).build next).2 ∧
      t.Follows ((e.before d.parts i).build next).1 path v := by
  obtain ⟨next, hnext, hrest⟩ := Option.bind_eq_some_iff.mp hat
  obtain ⟨i, hhop, hi⟩ := Document.hop?_of_part? hnext
  obtain _ | ⟨hpart, hfollows⟩ := h
  cases hpart.unique (part_build hd ht hhop hi)
  exact ⟨i, next, hhop, hi, hd.of_mem_parts (List.mem_of_getElem? hi), hrest,
    ht.trans (extends_parts hi).1, hfollows⟩

/-- Two paths that lead to the same object are the same. -/
theorem follows_injective {path' : List Hop} {part' : Document} (hd : d.Storable)
    (ht : t.Extends (e.build d).2) (hat : d.at? path = some part) (hat' : d.at? path' = some part')
    (h : t.Follows (e.build d).1 path (.object id))
    (h' : t.Follows (e.build d).1 path' (.object id)) : path = path' := by
  induction path generalizing e d path' with
  | nil => exact (eq_nil_of_follows hd ht hat' h' ((Follows.here _).unique h)).symm
  | cons hop path ih =>
    cases path' with
    | nil => exact eq_nil_of_follows hd ht hat h ((Follows.here _).unique h')
    | cons hop' path' =>
      obtain ⟨i, next, hhop, hi, hnext, hrest, hextends, hfollows⟩ := follows_cons hd ht hat h
      obtain ⟨i', next', hhop', hi', hnext', hrest', hextends', hfollows'⟩ :=
        follows_cons hd ht hat' h'
      obtain ⟨hge, hin, -⟩ := bounds_of_follows hnext hextends hrest hfollows
      obtain ⟨hge', hin', -⟩ := bounds_of_follows hnext' hextends' hrest' hfollows'
      -- An object of an earlier part is there before the later part is begun, so it is none of
      -- the new objects of the later one.
      obtain hlt | rfl | hlt := Nat.lt_trichotomy i i'
      · exact absurd hin ((size_build_le e hi hlt).trans hge').not_gt
      · cases hhop.symm.trans hhop'
        cases hi.symm.trans hi'
        rw [ih hnext hextends hrest hrest' hfollows hfollows']
      · exact absurd hin' ((size_build_le e hi' hlt).trans hge).not_gt

end Paths

end Engine

/-- **Documents are stored faithfully.** Every part of the document presents itself in the value to
which its path leads; the objects of the document are new ones, of different paths different ones,
and what has been there before is left alone. -/
theorem documents_are_stored [Library] (e : Engine) (d : Document) (hd : d.Storable) :
    let v := (e.build d).1
    let e' := (e.build d).2
    (∀ path part, d.at? path = some part → ∃ u, e'.Follows v path u ∧ e'.Presents u part) ∧
      (∀ path part id, d.at? path = some part → e'.Follows v path (.object id) →
        e.objects.size ≤ id ∧ id < e'.objects.size) ∧
      (∀ path part path' part' id, d.at? path = some part → d.at? path' = some part' →
        e'.Follows v path (.object id) → e'.Follows v path' (.object id) → path = path') ∧
      ∀ id < e.objects.size, e'.object id = e.object id := by
  intro v e'
  have ht : e'.Extends (e.build d).2 := .refl e'
  refine ⟨?_, ?_, ?_, (Engine.extends_build e d).object⟩
  · intro path part hat
    obtain ⟨e₁, -, hextends, hpart, hfollows, -⟩ := Engine.follows_build hd ht hat
    exact ⟨_, hfollows, Engine.presents_build hpart (ht.trans hextends)⟩
  · intro path part id hat h
    obtain ⟨hnew, hin, -⟩ := Engine.bounds_of_follows hd ht hat h
    exact ⟨hnew, hin⟩
  · intro path part path' part' id hat hat' h h'
    exact Engine.follows_injective hd ht hat hat' h h'

/-- In an object the names of the length and of an index are nothing special, nor is the empty one;
the list under the empty name leads on to an object. -/
theorem documents_are_stored_nested :
    let inner : Document := .object [("length", .null)]
    let d : Document :=
      .object [("", .list [.bool true, inner]), ("0", .text "0"), ("@tag", .list [])]
    let e := Engine.new .standard
    let e' := (e.build d).2
    d.Storable ∧ d.at? [.key "", .index 1] = some inner ∧
      ∃ id < e'.objects.size, e'.Follows (e.build d).1 [.key "", .index 1] (.object id) ∧
        e'.PresentsFields id [("length", .null)] := by
  intro inner d e e'
  have hinner : inner.Storable := .object (by simp) (by simpa using .null)
  have hd : d.Storable := by
    refine .object (by decide) fun part hpart => ?_
    obtain rfl | rfl | rfl :
        part = .list [.bool true, inner] ∨ part = .text "0" ∨ part = .list [] := by
      simpa using hpart
    · refine .list (by decide) fun part hpart => ?_
      obtain rfl | rfl : part = .bool true ∨ part = inner := by simpa using hpart
      · exact .bool true
      · exact hinner
    · exact .text "0"
    · exact .list (by decide) nofun
  obtain ⟨hstored, hnew, -⟩ := documents_are_stored e d hd
  obtain ⟨u, hfollows, hpresents⟩ := hstored [.key "", .index 1] inner rfl
  change e'.Presents u (.object [("length", .null)]) at hpresents
  cases hpresents with
  | object h => exact ⟨hd, rfl, _, (hnew _ inner _ rfl hfollows).2, hfollows, h⟩

end ValueEngine
