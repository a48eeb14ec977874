import ValueEngine.Proofs.Growable.DeadCells

/-! Tasks on a store of growable arrays. A task makes an array, works on the array of a
number, or exchanges two elements of it as sorting does. Every array that is there stays
there; after a task that fails the store is as before, and after one that succeeds only
the capacity of the array worked on may be another one, by the rule of its operation. -/

namespace ValueEngine.Store

/-- What is done to a store in one go. -/
inductive Task
  | make (k : ElementKind) (xs : List k.Carrier)
  | makeFilled (k : ElementKind) (n : ℕ) (x : k.Carrier)
  | edit (k : ElementKind) (id : ℕ) (e : Edit (List k.Carrier) k.Carrier)
  | exchange (k : ElementKind) (id i j : ℕ)

/-- The capacity of an array of a kind and number after a task that has succeeded, by its
capacity before and its new length. -/
def Task.capacity (t : Task) (k : ElementKind) (id c n : ℕ) : ℕ :=
  match t with
  | edit own number e => if own = k ∧ number = id then e.capacity c n else c
  | _ => c

/-- Write back what an operation leaves, and keep what it makes. -/
def settle (s : Store) (k : ElementKind) (id : ℕ) (r : Effect k.Carrier (Growable k.Carrier)) :
    Store :=
  match r.made with
  | some made => ((s.put k id r.receiver).add k made).2
  | none => s.put k id r.receiver

/-- Carry a task out. There is nothing to do on an array that is not there. -/
def perform [Memory] (s : Store) : Task → Except ArrayFault Store
  | .make k xs => return (s.add k (.ofList xs)).2
  | .makeFilled k n x => do return (s.add k (← Growable.withLength n x)).2
  | .edit k id e =>
    if s.kind? id = some k then do return s.settle k id (← (s.get k id).perform e)
    else return s
  | .exchange k id i j =>
    if s.kind? id = some k then return s.put k id ((s.get k id).swap i j) else return s

def step [Memory] (s : Store) (t : Task) : Store := (s.perform t).toOption.getD s

def after [Memory] (s : Store) (ts : List Task) : Store := ts.foldl step s

/-- Every array has a number below the next one, its live elements fit in its storage, and
its dead cells hold the filler. -/
def Clean (s : Store) : Prop :=
  ∀ id k (g : Growable k.Carrier), s.arrays[id]? = some ⟨k, g⟩ → id < s.next ∧ g.Clean

/-- A clean store in which every array of another is still there, with a capacity by a rule. -/
structure Evolves (rule : ElementKind → ℕ → ℕ → ℕ → ℕ) (s s' : Store) : Prop where
  clean : s'.Clean
  stays : ∀ id k (g : Growable k.Carrier), s.arrays[id]? = some ⟨k, g⟩ →
    ∃ g' : Growable k.Carrier, s'.arrays[id]? = some ⟨k, g'⟩ ∧
      g'.capacity = rule k id g.capacity g'.length

/-- Of the arrays there, only a task that succeeds changes capacities, by its rule. -/
def Regulates [Memory] (s : Store) (t : Task) : Prop :=
  Evolves (if (s.perform t).isOk then t.capacity else fun _ _ c _ => c) s (s.step t)

section Records

variable {s s' : Store} {k : ElementKind} {id : ℕ} {g g' : Growable k.Carrier}

theorem kind?_eq_some :
    s.kind? id = some k ↔ ∃ g : Growable k.Carrier, s.arrays[id]? = some ⟨k, g⟩ := by
  rw [kind?, Option.map_eq_some_iff]
  constructor
  · rintro ⟨⟨k', g⟩, hr, rfl⟩
    exact ⟨g, hr⟩
  · rintro ⟨g, hr⟩
    exact ⟨⟨k, g⟩, hr, rfl⟩

theorem get_eq (h : s.arrays[id]? = some ⟨k, g⟩) : s.get k id = g := by
  simp only [get, h, dite_true]

theorem getElem?_put (s : Store) (k : ElementKind) (id other : ℕ) (g : Growable k.Carrier) :
    (s.put k id g).arrays[other]? = if id = other then some ⟨k, g⟩ else s.arrays[other]? := by
  change (s.arrays.insert id ⟨k, g⟩)[other]? = _
  simp only [Std.HashMap.getElem?_insert, beq_iff_eq]

theorem getElem?_add (s : Store) (k : ElementKind) (other : ℕ) (g : Growable k.Carrier) :
    (s.add k g).2.arrays[other]? = if s.next = other then some ⟨k, g⟩ else s.arrays[other]? :=
  getElem?_put s k s.next other g

theorem clean_empty : Clean empty := by
  intro id k g hr
  change (∅ : Std.HashMap ℕ ((k : ElementKind) × Growable k.Carrier))[id]? = some ⟨k, g⟩ at hr
  rw [Std.HashMap.getElem?_empty] at hr
  cases hr

theorem Clean.put (hs : s.Clean) (hid : id < s.next) (hg : g.Clean) : (s.put k id g).Clean := by
  intro other k' g' hr
  rw [getElem?_put] at hr
  split_ifs at hr with hsame
  · cases hr
    exact ⟨hsame ▸ hid, hg⟩
  · exact hs other k' g' hr

theorem Clean.add (hs : s.Clean) (hg : g.Clean) : (s.add k g).2.Clean := by
  intro other k' g' hr
  change other < s.next + 1 ∧ g'.Clean
  rw [getElem?_add] at hr
  split_ifs at hr with hsame
  · cases hr
    exact ⟨by omega, hg⟩
  · obtain ⟨hlt, hclean⟩ := hs other k' g' hr
    exact ⟨by omega, hclean⟩

variable {rule : ElementKind → ℕ → ℕ → ℕ → ℕ}

theorem Clean.evolves (hs : s.Clean) (hrule : ∀ id k (g : Growable k.Carrier),
    s.arrays[id]? = some ⟨k, g⟩ → rule k id g.capacity g.length = g.capacity) :
    Evolves rule s s :=
  ⟨hs, fun id k g hr => ⟨g, hr, (hrule id k g hr).symm⟩⟩

/-- One array is replaced by one of a capacity by the rule. -/
theorem Clean.evolves_put (hs : s.Clean) (hr : s.arrays[id]? = some ⟨k, g⟩) (hg' : g'.Clean)
    (hown : g'.capacity = rule k id g.capacity g'.length)
    (hothers : ∀ k' id' c n, id ≠ id' → rule k' id' c n = c) :
    Evolves rule s (s.put k id g') where
  clean := hs.put (hs id k g hr).1 hg'
  stays id' k' h hr' := by
    by_cases hsame : id = id'
    · subst hsame
      rw [hr] at hr'
      cases hr'
      exact ⟨g', by rw [getElem?_put, if_pos rfl], hown⟩
    · refine ⟨h, ?_, (hothers k' id' _ _ hsame).symm⟩
      rw [getElem?_put, if_neg hsame, hr']

theorem Evolves.add (h : Evolves rule s s') (hg : g.Clean) : Evolves rule s (s'.add k g).2 where
  clean := h.clean.add hg
  stays id k' f hr := by
    obtain ⟨f', hr', hrule⟩ := h.stays id k' f hr
    have hid := (h.clean id k' f' hr').1
    exact ⟨f', by rw [getElem?_add, if_neg (by omega), hr'], hrule⟩

end Records

variable [Memory] {s s' : Store} {t : Task}

/-- A task that succeeds leaves clean arrays and capacities by its rule. -/
theorem perform_evolves (hs : s.Clean) (h : s.perform t = .ok s') : Evolves t.capacity s s' := by
  cases t with
  | make k xs =>
    cases h
    exact (hs.evolves fun _ _ _ _ => rfl).add (Growable.clean_ofList xs)
  | makeFilled k n x =>
    obtain ⟨g, hg, h⟩ := bind_eq_ok h
    cases h
    exact (hs.evolves fun _ _ _ _ => rfl).add (Growable.clean_withLength hg)
  | edit k id e =>
    rw [perform] at h
    split_ifs at h with hk
    · obtain ⟨r, hperform, h⟩ := bind_eq_ok h
      cases h
      obtain ⟨g, hr⟩ := kind?_eq_some.mp hk
      rw [get_eq hr] at hperform
      obtain ⟨⟨hclean, hcapacity⟩, hmade⟩ := Growable.perform_clean (hs id k g hr).2 hperform
      have hput : Evolves (Task.edit k id e).capacity s (s.put k id r.receiver) :=
        hs.evolves_put hr hclean (hcapacity.trans (if_pos ⟨rfl, rfl⟩).symm)
          fun _ _ _ _ hne => if_neg (hne ·.2)
      rw [settle]
      cases hm : r.made with
      | none => exact hput
      | some made => exact hput.add (hmade made hm)
    · cases h
      refine hs.evolves fun id' k' g hr => if_neg ?_
      rintro ⟨rfl, rfl⟩
      exact hk (kind?_eq_some.mpr ⟨g, hr⟩)
  | exchange k id i j =>
    rw [perform] at h
    split_ifs at h with hk
    · cases h
      obtain ⟨g, hr⟩ := kind?_eq_some.mp hk
      obtain ⟨hclean, hcapacity⟩ := Growable.swap_clean (hs id k g hr).2 i j
      rw [get_eq hr]
      exact hs.evolves_put hr hclean hcapacity fun _ _ _ _ _ => rfl
    · cases h
      exact hs.evolves fun _ _ _ _ => rfl

theorem Clean.regulates (hs : s.Clean) (t : Task) : s.Regulates t := by
  rw [Regulates, step]
  cases h : s.perform t with
  | error f => exact hs.evolves fun _ _ _ _ => rfl
  | ok s' => exact perform_evolves hs h

theorem Clean.after (hs : s.Clean) (ts : List Task) : (s.after ts).Clean := by
  induction ts generalizing s with
  | nil => exact hs
  | cons t ts ih => exact ih (hs.regulates t).clean

theorem Clean.kind?_after (hs : s.Clean) {k : ElementKind} {id : ℕ} (hk : s.kind? id = some k)
    (ts : List Task) : (s.after ts).kind? id = some k := by
  induction ts generalizing s with
  | nil => exact hk
  | cons t ts ih =>
    obtain ⟨g, hr⟩ := kind?_eq_some.mp hk
    obtain ⟨g', hr', -⟩ := (hs.regulates t).stays id k g hr
    exact ih (hs.regulates t).clean (kind?_eq_some.mpr ⟨g', hr'⟩)

/-- The store is clean and has an array of a kind under a number. -/
def Has (k : ElementKind) (id : ℕ) (s : Store) : Prop := s.Clean ∧ s.kind? id = some k

/-- Tasks of which each is permitted in the store that those before it leave. -/
def AllPermitted (may : Store → Task → Prop) : Store → List Task → Prop
  | _, [] => True
  | s, t :: ts => may s t ∧ AllPermitted may (s.step t) ts

/-- One store comes from another by permitted tasks. -/
def Led (may : Store → Task → Prop) (s s' : Store) : Prop :=
  ∃ ts, s.AllPermitted may ts ∧ s.after ts = s'

section Permitted

variable {may may' : Store → Task → Prop} {s'' : Store} {ts us : List Task}

theorem AllPermitted.append (hts : s.AllPermitted may ts) (hus : (s.after ts).AllPermitted may us) :
    s.AllPermitted may (ts ++ us) := by
  induction ts generalizing s with
  | nil => exact hus
  | cons t ts ih => exact ⟨hts.1, ih hts.2 hus⟩

theorem AllPermitted.mono (h : s.AllPermitted may ts) (hmay : ∀ s t, may s t → may' s t) :
    s.AllPermitted may' ts := by
  induction ts generalizing s with
  | nil => trivial
  | cons t ts ih => exact ⟨hmay s t h.1, ih h.2⟩

/-- What holds of a store and is kept by permitted tasks holds of every store on the way. -/
theorem AllPermitted.keeps {holds : Store → Prop} (h : s.AllPermitted may ts) (hs : holds s)
    (hstep : ∀ s t, holds s → may s t → holds (s.step t)) {done : List Task} (hdone : done <+: ts) :
    holds (s.after done) := by
  induction done generalizing s ts with
  | nil => exact hs
  | cons t done ih =>
    obtain ⟨rest, rfl⟩ := hdone
    exact ih h.2 (hstep s t hs h.1) (List.prefix_append done rest)

/-- Where the store does not matter, each task is permitted by itself. -/
theorem allPermitted_const {may : Task → Prop} :
    s.AllPermitted (fun _ => may) ts ↔ ∀ t ∈ ts, may t := by
  induction ts generalizing s with
  | nil => exact ⟨nofun, fun _ => trivial⟩
  | cons t ts ih => rw [AllPermitted, ih, List.forall_mem_cons]

namespace Led

theorem refl (s : Store) : Led may s s := ⟨[], trivial, rfl⟩

theorem of_task (h : may s t) : Led may s (s.step t) := ⟨[t], ⟨h, trivial⟩, rfl⟩

theorem trans (h : Led may s s') (h' : Led may s' s'') : Led may s s'' := by
  obtain ⟨ts, hts, rfl⟩ := h
  obtain ⟨us, hus, rfl⟩ := h'
  exact ⟨ts ++ us, hts.append hus, List.foldl_append⟩

theorem mono (h : Led may s s') (hmay : ∀ s t, may s t → may' s t) : Led may' s s' := by
  obtain ⟨ts, hts, rfl⟩ := h
  exact ⟨ts, hts.mono hmay, rfl⟩

theorem clean (h : Led may s s') (hs : s.Clean) : s'.Clean := by
  obtain ⟨ts, -, rfl⟩ := h
  exact hs.after ts

theorem has {k : ElementKind} {id : ℕ} (h : Led may s s') (hs : s.Has k id) : s'.Has k id := by
  obtain ⟨ts, -, rfl⟩ := h
  exact ⟨hs.1.after ts, hs.1.kind?_after hs.2 ts⟩

end Led

end Permitted

end ValueEngine.Store
