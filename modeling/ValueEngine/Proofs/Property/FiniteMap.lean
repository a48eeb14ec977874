import Mathlib.Data.Finmap
import ValueEngine.Proofs.Property.Operations

/-! A property table is a finite map from keys to slots with flags. The map that a table stands
for is read off the entries of its records; every mutation updates one entry, and so does the
map. Along every run from a new table the chains and the free list stay well formed, the
answers are those of the map, and every query agrees with it. The hash is any function and the
number of buckets any that a table can begin with: keys that share a bucket, or all keys in
one, are no exception. -/

namespace ValueEngine.Property

/-- A finite map from keys to slots with flags. -/
abbrev Entries := Finmap fun _ : String => Slot × Flags

/-- A mutation of a table. -/
inductive Mutation
  | set (key : String) (v : Value)
  | define (key : String) (slot : Slot) (flags : Flags)
  | erase (key : String)

namespace Entries

/-- Set keeps the flags that are there, define replaces the entry, and both answer
whether the key is new; erase answers whether there was one. -/
def perform (m : Entries) : Mutation → Bool × Entries
  | .set key v =>
    ((m.lookup key).isNone,
      m.insert key (.data v, ((m.lookup key).map fun x => x.2).getD Flags.all))
  | .define key slot flags => ((m.lookup key).isNone, m.insert key (slot, flags))
  | .erase key => ((m.lookup key).isSome, m.erase key)

/-- The answers of a run, each with the map after it. -/
def trace (m : Entries) : List Mutation → List (Bool × Entries)
  | [] => []
  | c :: cs => m.perform c :: (m.perform c).2.trace cs

end Entries

namespace Table

def perform (hash : String → ℕ) (t : Table) : Mutation → Bool × Table
  | .set key v => t.set hash key v
  | .define key slot flags => t.define hash key slot flags
  | .erase key => t.erase hash key

def trace (hash : String → ℕ) (t : Table) : List Mutation → List (Bool × Table)
  | [] => []
  | c :: cs => t.perform hash c :: trace hash (t.perform hash c).2 cs

/-- The table stands for a map: its live records hold exactly the entries of the map. -/
structure Stands (hash : String → ℕ) (t : Table) (m : Entries) : Prop where
  wellFormed : WellFormed hash t
  entries : ∀ key x, m.lookup key = some x ↔ ∃ i, entryOf t.records i = some (some key, x)
  live : t.live = m.keys.card

/-- Every query answers as the map does. -/
structure Agrees (hash : String → ℕ) (t : Table) (m : Entries) : Prop where
  get? : ∀ key, t.get? hash key = (m.lookup key).map fun x => ⟨key, x.1, x.2⟩
  contains : ∀ key, t.contains hash key = (m.lookup key).isSome
  find? : ∀ key i, t.find? hash key = some i →
    ∃ r, t.records[i]? = some r ∧ r.key = some key ∧ m.lookup key = some (r.slot, r.flags)
  size : t.size = m.keys.card
  isEmpty : t.isEmpty = true ↔ m = ∅

/-- No record is on the chains of two buckets. -/
def ChainsDisjoint (t : Table) : Prop :=
  ∀ b c, b < t.buckets.size → c < t.buckets.size → b ≠ c →
    List.Disjoint (t.chain (head t.buckets b)) (t.chain (head t.buckets c))

variable {hash : String → ℕ} {t t' : Table} {m : Entries} {rs rs' : Array Record}
variable {key : String} {x : Slot × Flags} {i : ℕ}

theorem WellFormed.chainsDisjoint (ht : WellFormed hash t) : ChainsDisjoint t := by
  intro b c hb hc hbc
  obtain ⟨-, -, hmemb⟩ := (ht.chained b hb).chain
  obtain ⟨-, -, hmemc⟩ := (ht.chained c hc).chain
  intro i hi hi'
  exact hbc (((hmemb i).mp hi).unique ((hmemc i).mp hi'))

theorem entryOf_eq_some_iff {k : Option String} :
    entryOf rs i = some (k, x) ↔ ∃ r, rs[i]? = some r ∧ r.key = k ∧ (r.slot, r.flags) = x := by
  rw [entryOf, Option.map_eq_some_iff]
  constructor
  · rintro ⟨r, hr, he⟩
    obtain ⟨hk, hx⟩ := Prod.mk.inj he
    exact ⟨r, hr, hk, hx⟩
  · rintro ⟨r, hr, rfl, rfl⟩
    exact ⟨r, hr, rfl⟩

theorem keyOf_of_entryOf {k : Option String} (h : entryOf rs i = some (k, x)) :
    keyOf rs i = k := by
  rw [keyOf, h]
  rfl

theorem entryOf_of_keyOf (h : keyOf rs i = some key) : ∃ x, entryOf rs i = some (some key, x) := by
  obtain ⟨⟨k, x⟩, he, rfl⟩ := Option.bind_eq_some_iff.mp h
  exact ⟨x, he⟩

theorem keys_insert (m : Entries) (key : String) (x : Slot × Flags) :
    (m.insert key x).keys = insert key m.keys := by
  ext key'
  rw [Finmap.mem_keys, Finmap.mem_insert, Finset.mem_insert, Finmap.mem_keys]

namespace Stands

theorem find?_eq_some (hs : Stands hash t m) (hx : m.lookup key = some x) :
    ∃ i, t.find? hash key = some i ∧ entryOf t.records i = some (some key, x) := by
  obtain ⟨i, hi⟩ := (hs.entries key x).mp hx
  exact ⟨i, (find?_eq_some_iff hs.wellFormed).mpr (keyOf_of_entryOf hi), hi⟩

theorem find?_eq_none (hs : Stands hash t m) (hx : m.lookup key = none) :
    t.find? hash key = none := by
  rw [find?_eq_none_iff hs.wellFormed]
  intro i hi
  obtain ⟨x, he⟩ := entryOf_of_keyOf hi
  have hlookup := (hs.entries key x).mpr ⟨i, he⟩
  rw [hx] at hlookup
  cases hlookup

theorem lookup_of_find? (hs : Stands hash t m) (hi : t.find? hash key = some i) :
    ∃ x, m.lookup key = some x ∧ entryOf t.records i = some (some key, x) := by
  have hkey := (find?_eq_some_iff hs.wellFormed).mp hi
  obtain ⟨x, he⟩ := entryOf_of_keyOf hkey
  exact ⟨x, (hs.entries key x).mpr ⟨i, he⟩, he⟩

theorem agrees (hs : Stands hash t m) : Agrees hash t m where
  get? key := by
    rw [Table.get?]
    cases hx : m.lookup key with
    | none =>
      rw [hs.find?_eq_none hx]
      rfl
    | some x =>
      obtain ⟨i, hfind, he⟩ := hs.find?_eq_some hx
      obtain ⟨r, hr, -, rfl⟩ := entryOf_eq_some_iff.mp he
      rw [hfind]
      simp [hr]
  contains key := by
    rw [Table.contains]
    cases hx : m.lookup key with
    | none =>
      rw [hs.find?_eq_none hx]
      rfl
    | some x =>
      obtain ⟨i, hfind, -⟩ := hs.find?_eq_some hx
      rw [hfind]
      rfl
  find? key i hi := by
    obtain ⟨x, hx, he⟩ := hs.lookup_of_find? hi
    obtain ⟨r, hr, hkey, rfl⟩ := entryOf_eq_some_iff.mp he
    exact ⟨r, hr, hkey, hx⟩
  size := hs.live
  isEmpty := by
    have hempty : t.isEmpty = true ↔ m.keys.card = 0 := by
      rw [Table.isEmpty, decide_eq_true_eq, hs.live]
    rw [hempty, Finset.card_eq_zero]
    constructor
    · intro hkeys
      apply Finmap.ext_lookup
      intro key
      rw [Finmap.lookup_empty, Finmap.lookup_eq_none, ← Finmap.mem_keys, hkeys]
      exact Finset.notMem_empty key
    · rintro rfl
      exact Finmap.keys_empty

/-- Updating the record of a key, or an idle one for a new key, is an insertion. -/
theorem entries_insert (hs : Stands hash t m) (hup : Updated t.records rs i (some key, x))
    (hi : keyOf t.records i = none ∨ keyOf t.records i = some key)
    (hother : ∀ j, j ≠ i → keyOf t.records j ≠ some key) (key' : String) (y : Slot × Flags) :
    (m.insert key x).lookup key' = some y ↔ ∃ j, entryOf rs j = some (some key', y) := by
  by_cases hkey : key' = key
  · subst hkey
    rw [Finmap.lookup_insert]
    constructor
    · intro hy
      obtain rfl : x = y := Option.some.inj hy
      exact ⟨i, by rw [hup, if_pos rfl]⟩
    · rintro ⟨j, hj⟩
      rw [hup] at hj
      by_cases hji : j = i
      · rw [if_pos hji, Option.some.injEq] at hj
        rw [(Prod.mk.inj hj).2]
      · rw [if_neg hji] at hj
        exact absurd (keyOf_of_entryOf hj) (hother j hji)
  · rw [Finmap.lookup_insert_of_ne _ hkey, hs.entries]
    constructor
    · rintro ⟨j, hj⟩
      have hji : j ≠ i := by
        rintro rfl
        rw [keyOf_of_entryOf hj] at hi
        obtain hi | hi := hi
        · cases hi
        · exact hkey (Option.some.inj hi)
      exact ⟨j, by rw [hup, if_neg hji, hj]⟩
    · rintro ⟨j, hj⟩
      rw [hup] at hj
      by_cases hji : j = i
      · rw [if_pos hji, Option.some.injEq] at hj
        exact absurd (Option.some.inj (Prod.mk.inj hj).1).symm hkey
      · rw [if_neg hji] at hj
        exact ⟨j, hj⟩

/-- Emptying the record of a key is an erasure. -/
theorem entries_erase (hs : Stands hash t m) {e : Option String × Slot × Flags}
    (he : e.1 = none) (hup : Updated t.records rs i e) (hi : keyOf t.records i = some key)
    (key' : String) (y : Slot × Flags) :
    (m.erase key).lookup key' = some y ↔ ∃ j, entryOf rs j = some (some key', y) := by
  by_cases hkey : key' = key
  · subst hkey
    rw [Finmap.lookup_erase]
    constructor
    · intro hy
      cases hy
    · rintro ⟨j, hj⟩
      have hkeyj := keyOf_of_entryOf hj
      rw [hup.keyOf_eq] at hkeyj
      by_cases hji : j = i
      · rw [if_pos hji, he] at hkeyj
        cases hkeyj
      · rw [if_neg hji] at hkeyj
        exact absurd (hs.wellFormed.distinct j i key' hkeyj hi) hji
  · rw [Finmap.lookup_erase_ne hkey, hs.entries]
    constructor
    · rintro ⟨j, hj⟩
      have hji : j ≠ i := by
        rintro rfl
        rw [keyOf_of_entryOf hj, Option.some.injEq] at hi
        exact hkey hi
      exact ⟨j, by rw [hup, if_neg hji, hj]⟩
    · rintro ⟨j, hj⟩
      rw [hup] at hj
      by_cases hji : j = i
      · rw [if_pos hji, Option.some.injEq] at hj
        rw [hj] at he
        cases he
      · rw [if_neg hji] at hj
        exact ⟨j, hj⟩

/-- Overwriting the record of a key inserts what the record then holds. -/
theorem overwrite (hs : Stands hash t m) {r : Record} (hi : keyOf t.records i = some key)
    (hr : t.records[i]? = some r) {f : Record → Record} (hkey : (f r).key = r.key)
    (hnext : (f r).next = r.next) :
    Stands hash { t with records := t.records.modify i f }
      (m.insert key ((f r).slot, (f r).flags)) where
  wellFormed := overwrite_spec hs.wellFormed hr hkey hnext
  entries := by
    have hrkey : r.key = some key := by
      rw [keyOf, entryOf, hr] at hi
      exact hi
    have hentry : (f r).entry = (some key, (f r).slot, (f r).flags) := by
      rw [Record.entry, hkey, hrkey]
    have hup := (Replaced.modify hr f).updated
    rw [hentry] at hup
    apply hs.entries_insert hup (Or.inr hi)
    intro j hji hj
    exact hji (hs.wellFormed.distinct j i key hj hi)
  live := by
    obtain ⟨x, he⟩ := entryOf_of_keyOf hi
    have hmem : key ∈ m.keys :=
      Finmap.mem_keys.mpr (Finmap.mem_of_lookup_eq_some ((hs.entries key x).mpr ⟨i, he⟩))
    rw [keys_insert, Finset.insert_eq_of_mem hmem]
    exact hs.live

theorem insertNew (hs : Stands hash t m) (hx : m.lookup key = none) (slot : Slot)
    (flags : Flags) :
    Stands hash (t.insertNew hash key slot flags) (m.insert key (slot, flags)) := by
  have hnone := (find?_eq_none_iff hs.wellFormed).mp (hs.find?_eq_none hx)
  obtain ⟨hwell, hlive, i, hidle, hup⟩ := insertNew_spec hs.wellFormed hnone slot flags
  refine ⟨hwell, ?_, ?_⟩
  · exact hs.entries_insert hup (Or.inl hidle) fun j _ => hnone j
  · have hnot : key ∉ m.keys := by
      rw [Finmap.mem_keys, ← Finmap.lookup_eq_none]
      exact hx
    rw [hlive, hs.live, keys_insert, Finset.card_insert_of_notMem hnot]

theorem erase (hs : Stands hash t m) (hi : keyOf t.records i = some key) :
    (t.erase hash key).1 = true ∧ Stands hash (t.erase hash key).2 (m.erase key) := by
  obtain ⟨hanswer, hwell, hlive, e, he, hup⟩ := erase_spec hs.wellFormed hi
  refine ⟨hanswer, hwell, hs.entries_erase he hup hi, ?_⟩
  obtain ⟨x, hentry⟩ := entryOf_of_keyOf hi
  have hmem : key ∈ m.keys :=
    Finmap.mem_keys.mpr (Finmap.mem_of_lookup_eq_some ((hs.entries key x).mpr ⟨i, hentry⟩))
  rw [hlive, hs.live, Finmap.keys_erase, Finset.card_erase_of_mem hmem]

theorem set (hs : Stands hash t m) (key : String) (v : Value) :
    (t.set hash key v).1 = (m.perform (.set key v)).1 ∧
      Stands hash (t.set hash key v).2 (m.perform (.set key v)).2 := by
  rw [Table.set, Entries.perform]
  cases hx : m.lookup key with
  | none =>
    rw [hs.find?_eq_none hx]
    exact ⟨rfl, hs.insertNew hx (.data v) Flags.all⟩
  | some x =>
    obtain ⟨i, hfind, he⟩ := hs.find?_eq_some hx
    obtain ⟨r, hr, -, rfl⟩ := entryOf_eq_some_iff.mp he
    rw [hfind]
    refine ⟨rfl, ?_⟩
    exact hs.overwrite (keyOf_of_entryOf he) hr (f := ({ · with slot := .data v })) rfl rfl

theorem define (hs : Stands hash t m) (key : String) (slot : Slot) (flags : Flags) :
    (t.define hash key slot flags).1 = (m.perform (.define key slot flags)).1 ∧
      Stands hash (t.define hash key slot flags).2 (m.perform (.define key slot flags)).2 := by
  rw [Table.define, Entries.perform]
  cases hx : m.lookup key with
  | none =>
    rw [hs.find?_eq_none hx]
    exact ⟨rfl, hs.insertNew hx slot flags⟩
  | some x =>
    obtain ⟨i, hfind, he⟩ := hs.find?_eq_some hx
    obtain ⟨r, hr, -, -⟩ := entryOf_eq_some_iff.mp he
    rw [hfind]
    refine ⟨rfl, ?_⟩
    exact hs.overwrite (keyOf_of_entryOf he) hr (f := ({ · with slot, flags })) rfl rfl

/-- One mutation answers as the map does and leaves the table standing for the new map. -/
theorem step (hs : Stands hash t m) (c : Mutation) :
    (t.perform hash c).1 = (m.perform c).1 ∧ Stands hash (t.perform hash c).2 (m.perform c).2 := by
  cases c with
  | set key v => exact hs.set key v
  | define key slot flags => exact hs.define key slot flags
  | erase key =>
    rw [Table.perform, Entries.perform]
    cases hx : m.lookup key with
    | none =>
      have hfind := hs.find?_eq_none hx
      have hsame : m.erase key = m := by
        apply Finmap.ext_lookup
        intro key'
        by_cases hkey : key' = key
        · rw [hkey, Finmap.lookup_erase, hx]
        · rw [Finmap.lookup_erase_ne hkey]
      rw [Table.erase, hfind, hsame]
      exact ⟨rfl, hs⟩
    | some x =>
      obtain ⟨i, -, he⟩ := hs.find?_eq_some hx
      exact hs.erase (keyOf_of_entryOf he)

end Stands

theorem stands_withCapacity (hash : String → ℕ) (capacity : ℕ) :
    Stands hash (withCapacity capacity) ∅ where
  wellFormed := wellFormed_withCapacity hash capacity
  entries key x := by
    rw [Finmap.lookup_empty]
    constructor
    · intro h
      cases h
    · rintro ⟨i, h⟩
      cases h
  live := by rw [Finmap.keys_empty, Finset.card_empty]; rfl

/-- A run of mutations is a run on the map, answer by answer and table by table. -/
theorem Stands.trace (hs : Stands hash t m) (cs : List Mutation) :
    List.Forall₂ (fun r r' => r.1 = r'.1 ∧ Stands hash r.2 r'.2) (t.trace hash cs) (m.trace cs) := by
  induction cs generalizing t m with
  | nil => exact List.Forall₂.nil
  | cons c cs ih =>
    have hstep := hs.step c
    exact List.Forall₂.cons hstep (ih hstep.2)

/-- **The property table refines a finite map.** For every hash function, every initial
capacity and every run of mutations on a new table, which stands for the empty map, each
step answers what the map answers and leaves a well-formed table whose queries
agree with the map. -/
theorem trace_refines_map (hash : String → ℕ) (capacity : ℕ) (cs : List Mutation) :
    (WellFormed hash (withCapacity capacity) ∧ Agrees hash (withCapacity capacity) ∅) ∧
    List.Forall₂
      (fun r r' => r.1 = r'.1 ∧ WellFormed hash r.2 ∧ ChainsDisjoint r.2 ∧ Agrees hash r.2 r'.2)
      ((withCapacity capacity).trace hash cs) (Entries.trace ∅ cs) := by
  have hstart := stands_withCapacity hash capacity
  refine ⟨⟨hstart.wellFormed, hstart.agrees⟩, (hstart.trace cs).imp ?_⟩
  rintro r r' ⟨hanswer, hs⟩
  exact ⟨hanswer, hs.wellFormed, hs.wellFormed.chainsDisjoint, hs.agrees⟩

end Table

end ValueEngine.Property
