import Mathlib.Order.Bounds.Basic
import Mathlib.Order.Lattice
import ValueEngine.Proofs.Property.SlotList

/-! The order of a property table does not depend on hashing. Its records are the slots of a
slot list and its free list is the stack of holes, for every hash function and every number
of buckets: rebuilding the chains writes live records only, and so leaves the free list as
it is. Two tables that have seen the same mutations therefore show the same slot list. -/

namespace ValueEngine.Property

namespace Table

variable {hash : String → ℕ} {t t' : Table} {rs rs' : Array Record} {key : String}
variable {i j link : ℕ} {is js : List ℕ} {r : Record} {s s' : SlotList}
variable {e : Option String × Slot × Flags}

/-! ### Holes of a table -/

section Holes

theorem Leads.unique (h : Leads rs link is) (h' : Leads rs link js) : is = js := by
  induction is generalizing link js with
  | nil =>
    cases js with
    | nil => rfl
    | cons j js => exact absurd (h.symm.trans h'.1) (Nat.succ_ne_zero j).symm
  | cons i is ih =>
    obtain ⟨rfl, n, hn, hrest⟩ := h
    cases js with
    | nil => exact absurd h' (Nat.succ_ne_zero i)
    | cons j js =>
      obtain ⟨hij, m, hm, hrest'⟩ := h'
      obtain rfl : i = j := Nat.succ.inj hij
      rw [hn, Option.some.injEq] at hm
      subst hm
      rw [ih hrest hrest']

/-- The free list meets every deleted record once. -/
theorem WellFormed.holes (ht : WellFormed hash t) (h : Leads t.records t.free is) :
    is.Nodup ∧ ∀ i, i ∈ is ↔ Deleted t.records i := by
  obtain ⟨js, hjs, hnodup, hmem⟩ := ht.freed
  rw [h.unique hjs]
  exact ⟨hnodup, hmem⟩

/-- Relinking live records leaves the free list as it is. -/
theorem Relinked.holes (hre : Relinked t t') (ht : WellFormed hash t)
    (h : Leads t.records t.free is) : Leads t'.records t'.free is := by
  rw [hre.free]
  exact h.congr fun i hi => hre.idle i (((ht.holes h).2 i).mp hi).2

/-- A record is placed into the hole made last, or behind all records. -/
theorem place_slot (ht : WellFormed hash t) (h : Leads t.records t.free is)
    (hplace : t.place r = (i, t')) :
    i = is.headD t.records.size ∧ Leads t'.records t'.free is.tail := by
  obtain ⟨hnodup, -⟩ := ht.holes h
  rw [place] at hplace
  cases is with
  | nil =>
    have hfree : t.free = 0 := h
    simp only [hfree] at hplace
    obtain ⟨rfl, rfl⟩ := Prod.mk.inj hplace
    exact ⟨rfl, rfl⟩
  | cons a is =>
    obtain ⟨hfree, n, hn, hrest⟩ := h
    simp only [hfree] at hplace
    obtain ⟨rfl, rfl⟩ := Prod.mk.inj hplace
    refine ⟨rfl, ?_⟩
    have hset := Replaced.set (lt_size_of_nextOf hn) r
    show Leads (t.records.setIfInBounds a r) ((nextOf t.records a).getD 0) is
    rw [hn, Option.getD_some]
    refine hrest.congr fun j hj => hset.nextOf_ne ?_
    rintro rfl
    exact (List.nodup_cons.mp hnodup).1 hj

theorem Relinked.size_eq (h : Relinked t t') : t'.records.size = t.records.size :=
  eq_of_forall_lt_iff fun j => by rw [lt_size_iff_entryOf, lt_size_iff_entryOf, h.entries]

theorem insertNew_slot (ht : WellFormed hash t) (h : Leads t.records t.free is) (key : String)
    (slot : Slot) (flags : Flags) :
    Updated t.records (t.insertNew hash key slot flags).records (is.headD t.records.size)
        (some key, slot, flags) ∧
      Leads (t.insertNew hash key slot flags).records (t.insertNew hash key slot flags).free
        is.tail := by
  obtain ⟨hroom, hmade, -⟩ := makeRoom_spec ht
  have hholes := hmade.holes ht h
  rw [insertNew]
  generalize t.makeRoom hash = u at hroom hmade hholes
  rcases hplace : u.place ⟨some key, slot, flags, 0⟩ with ⟨i, v⟩
  obtain ⟨-, hre, -, -, js, hjs, -, hmem⟩ := place_spec hroom _ hplace
  obtain ⟨hi, htail⟩ := place_slot hroom hholes hplace
  rw [hmade.size_eq] at hi
  have hlink : Relinked v (enchain hash key i v) := relinked_enchain hre.updated.keyOf_self
  refine ⟨fun j => ?_, ?_⟩
  · show entryOf (enchain hash key i v).records j = _
    rw [hlink.entries, hre.updated, hmade.entries, hi]
    rfl
  · show Leads (enchain hash key i v).records v.free is.tail
    refine htail.congr fun j hj => hlink.idle j ?_
    -- The holes that are left are deleted records other than the one that has been filled.
    obtain ⟨hdead, hji⟩ := (hmem j).mp (htail.unique hjs ▸ hj)
    exact (hre.updated.keyOf_ne hji).trans hdead.2

/-- An erased key leaves its record as the hole made last. -/
theorem erase_slot (ht : WellFormed hash t) (h : Leads t.records t.free is)
    (hkey : keyOf t.records i = some key) :
    Leads (t.erase hash key).2.records (t.erase hash key).2.free (i :: is) := by
  obtain ⟨u, hlink, -, -, heq⟩ := erase_eq ht hkey
  rw [heq]
  have hkeyu : keyOf u.records i = some key := (hlink.keyOf_eq i).trans hkey
  have hre := Replaced.modify (Array.getElem?_eq_getElem (lt_size_of_keyOf hkeyu)) fun r =>
    { r with key := none, slot := .data .undefined, next := u.free }
  refine ⟨rfl, u.free, hre.nextOf_self, (hlink.holes ht h).congr fun j hj => hre.nextOf_ne ?_⟩
  rintro rfl
  have hdead := ((ht.holes h).2 j).mp hj
  cases hdead.2.symm.trans hkey

end Holes

/-! ### Mutations of a table and of its slot list -/

section Mirroring

/-- The slot that an entry fills. -/
def cellOf (e : Option String × Slot × Flags) : Option Property :=
  e.1.map fun key => ⟨key, e.2.1, e.2.2⟩

/-- The records of the table are the slots of the list, and its free list holds the holes. -/
structure Mirrors (hash : String → ℕ) (t : Table) (s : SlotList) : Prop where
  wellFormed : WellFormed hash t
  cells : ∀ j, s.cells[j]? = (entryOf t.records j).map cellOf
  holes : Leads t.records t.free s.holes

namespace Mirrors

variable (h : Mirrors hash t s)

include h

theorem length_eq : s.cells.length = t.records.size := by
  refine eq_of_forall_lt_iff fun j => ?_
  have hsome : j < s.cells.length ↔ (s.cells[j]?).isSome := by simp
  rw [hsome, lt_size_iff_entryOf, h.cells, Option.isSome_map]

/-- A slot has a property of a key if the record has the key. -/
theorem any_cell_iff : (∃ c, s.cells[i]? = some c ∧ c.any (·.key == key) = true) ↔
    keyOf t.records i = some key := by
  rw [h.cells, keyOf]
  cases entryOf t.records i with
  | none => simp
  | some e => cases hk : e.1 <;> simp [cellOf, hk]

theorem index?_eq_some_iff : s.index? key = some i ↔ keyOf t.records i = some key := by
  rw [SlotList.index?, List.findIdx?_eq_some_iff_getElem]
  constructor
  · rintro ⟨hi, hkey, -⟩
    exact h.any_cell_iff.mp ⟨_, List.getElem?_eq_getElem hi, hkey⟩
  · intro hkey
    obtain ⟨c, hc, hany⟩ := h.any_cell_iff.mpr hkey
    obtain ⟨hi, rfl⟩ := List.getElem?_eq_some_iff.mp hc
    refine ⟨hi, hany, fun j hji hfirst => ?_⟩
    have hj := h.any_cell_iff.mp ⟨_, List.getElem?_eq_getElem (hji.trans hi), hfirst⟩
    exact Nat.ne_of_lt hji (h.wellFormed.distinct j i key hj hkey)

theorem index?_eq (key : String) : s.index? key = t.find? hash key := by
  ext i
  rw [h.index?_eq_some_iff, find?_eq_some_iff h.wellFormed]

theorem toList_eq : s.toList = t.toList := by
  have hcells : s.cells = t.records.toList.map (cellOf ∘ Record.entry) := by
    apply List.ext_getElem?
    intro j
    rw [h.cells, entryOf, List.getElem?_map, Array.getElem?_toList, Option.map_map]
  rw [SlotList.toList, hcells, List.filterMap_map, toList]
  rfl

/-- One entry has changed, and so has its slot. -/
theorem updated (hwell : WellFormed hash t') (hup : Updated t.records t'.records i e)
    (hcells : ∀ j, s'.cells[j]? = if j = i then some (cellOf e) else s.cells[j]?)
    (hholes : Leads t'.records t'.free s'.holes) : Mirrors hash t' s' where
  wellFormed := hwell
  cells j := by
    rw [hcells, hup]
    split_ifs
    · rfl
    · exact h.cells j
  holes := hholes

theorem overwrite (hi : keyOf t.records i = some key) (hr : t.records[i]? = some r)
    {f : Record → Record} {g : Property → Property} (hkey : (f r).key = r.key)
    (hnext : (f r).next = r.next)
    (hg : g ⟨key, r.slot, r.flags⟩ = ⟨key, (f r).slot, (f r).flags⟩) :
    Mirrors hash { t with records := t.records.modify i f } (s.update i g) := by
  have hrkey : r.key = some key := by
    rw [keyOf, entryOf, hr] at hi
    exact hi
  have hre := Replaced.modify hr f
  have hcell : s.cells[i]? = some (some ⟨key, r.slot, r.flags⟩) := by
    rw [h.cells, entryOf, hr]
    simp [Record.entry, cellOf, hrkey]
  refine h.updated (overwrite_spec h.wellFormed hr hkey hnext) hre.updated ?_ ?_
  · intro j
    rw [SlotList.getElem?_update hcell, hg, Record.entry, cellOf, hkey, hrkey]
    rfl
  · refine h.holes.congr fun j _ => ?_
    by_cases hji : j = i
    · rw [hji, hre.nextOf_self, hnext, nextOf, hr]
      rfl
    · exact hre.nextOf_ne hji

theorem insertNew (hnew : t.find? hash key = none) (slot : Slot) (flags : Flags) :
    Mirrors hash (t.insertNew hash key slot flags) (s.insert ⟨key, slot, flags⟩) := by
  have hnone := (find?_eq_none_iff h.wellFormed).mp hnew
  obtain ⟨hup, hholes⟩ := insertNew_slot h.wellFormed h.holes key slot flags
  have hbound : ∀ i ∈ s.holes, i < s.cells.length := by
    intro i hi
    rw [h.length_eq]
    exact h.holes.lt_size hi
  refine h.updated (insertNew_spec h.wellFormed hnone slot flags).1 hup ?_ ?_
  · intro j
    rw [SlotList.getElem?_insert hbound, h.length_eq]
    rfl
  · rw [SlotList.holes_insert]
    exact hholes

theorem erase (hi : keyOf t.records i = some key) :
    Mirrors hash (t.erase hash key).2 (s.remove i) := by
  obtain ⟨-, hwell, -, e, he, hup⟩ := erase_spec h.wellFormed hi
  refine h.updated hwell hup ?_ (erase_slot h.wellFormed h.holes hi)
  intro j
  rw [SlotList.getElem?_remove (by rw [h.length_eq]; exact lt_size_of_keyOf hi), cellOf, he]
  rfl

/-- One mutation answers as on the slot list and leaves the table mirroring the new one. -/
theorem step (c : Mutation) : (t.perform hash c).1 = (s.perform c).1 ∧
    Mirrors hash (t.perform hash c).2 (s.perform c).2 := by
  cases c with
  | set key v =>
    rw [Table.perform, SlotList.perform, Table.set, h.index?_eq]
    cases hfind : t.find? hash key with
    | none => exact ⟨rfl, h.insertNew hfind (.data v) Flags.all⟩
    | some i =>
      have hi := (find?_eq_some_iff h.wellFormed).mp hfind
      have hr := Array.getElem?_eq_getElem (lt_size_of_keyOf hi)
      exact ⟨rfl, h.overwrite hi hr rfl rfl rfl⟩
  | define key slot flags =>
    rw [Table.perform, SlotList.perform, Table.define, h.index?_eq]
    cases hfind : t.find? hash key with
    | none => exact ⟨rfl, h.insertNew hfind slot flags⟩
    | some i =>
      have hi := (find?_eq_some_iff h.wellFormed).mp hfind
      have hr := Array.getElem?_eq_getElem (lt_size_of_keyOf hi)
      exact ⟨rfl, h.overwrite hi hr rfl rfl rfl⟩
  | erase key =>
    rw [Table.perform, SlotList.perform, h.index?_eq]
    cases hfind : t.find? hash key with
    | none =>
      rw [Table.erase, hfind]
      exact ⟨rfl, h⟩
    | some i =>
      have hi := (find?_eq_some_iff h.wellFormed).mp hfind
      exact ⟨(erase_spec h.wellFormed hi).1, h.erase hi⟩

end Mirrors

theorem mirrors_withCapacity (hash : String → ℕ) (capacity : ℕ) :
    Mirrors hash (withCapacity capacity) SlotList.empty where
  wellFormed := wellFormed_withCapacity hash capacity
  cells _ := rfl
  holes := rfl

end Mirroring

def run (hash : String → ℕ) (t : Table) (cs : List Mutation) : Table :=
  cs.foldl (fun t c => (t.perform hash c).2) t

theorem Mirrors.run (h : Mirrors hash t s) (cs : List Mutation) :
    Mirrors hash (t.run hash cs) (s.run cs) := by
  induction cs generalizing t s with
  | nil => exact h
  | cons c cs ih => exact ih (h.step c).2

/-! ### Keys stay in their records -/

section Stability

theorem keyOf_overwrite {f : Record → Record} (hf : ∀ r, (f r).key = r.key) (i j : ℕ) :
    keyOf (rs.modify i f) j = keyOf rs j := by
  rw [keyOf, keyOf, entryOf, entryOf, Array.getElem?_modify]
  split_ifs
  · cases rs[j]? with
    | none => rfl
    | some r => exact hf r
  · rfl

/-- A key stays in its record under every mutation but its own deletion. -/
theorem keyOf_perform (ht : WellFormed hash t) {c : Mutation} (hc : c ≠ .erase key)
    (hi : keyOf t.records i = some key) : keyOf (t.perform hash c).2.records i = some key := by
  have hinsert : ∀ key' slot flags, t.find? hash key' = none →
      keyOf (t.insertNew hash key' slot flags).records i = some key := by
    intro key' slot flags hnew
    have hnone := (find?_eq_none_iff ht).mp hnew
    obtain ⟨-, -, j, hidle, hup⟩ := insertNew_spec ht hnone slot flags
    rw [hup.keyOf_ne (ne_of_keyOf hidle hi), hi]
  cases c with
  | set key' v =>
    rw [perform, set]
    cases hfind : t.find? hash key' with
    | none => exact hinsert key' _ _ hfind
    | some j =>
      exact (keyOf_overwrite (f := fun r => { r with slot := .data v }) (fun _ => rfl) j i).trans hi
  | define key' slot flags =>
    rw [perform, define]
    cases hfind : t.find? hash key' with
    | none => exact hinsert key' _ _ hfind
    | some j =>
      exact (keyOf_overwrite (f := fun r => { r with slot, flags }) (fun _ => rfl) j i).trans hi
  | erase key' =>
    rw [perform]
    cases hfind : t.find? hash key' with
    | none =>
      rw [erase, hfind]
      exact hi
    | some j =>
      have hj := (find?_eq_some_iff ht).mp hfind
      obtain ⟨-, -, -, e, -, hup⟩ := erase_spec ht hj
      have hij : i ≠ j := by
        rintro rfl
        exact hc (by rw [Option.some.inj (hj.symm.trans hi)])
      rw [hup.keyOf_ne hij, hi]

/-- A key stays in its record along every run that does not delete it. -/
theorem Mirrors.find?_run (h : Mirrors hash t s) {cs : List Mutation} (hcs : .erase key ∉ cs)
    (hi : t.find? hash key = some i) : (t.run hash cs).find? hash key = some i := by
  induction cs generalizing t s with
  | nil => exact hi
  | cons c cs ih =>
    rw [List.mem_cons, not_or] at hcs
    obtain ⟨-, hnext⟩ := h.step c
    refine ih hnext hcs.2 ?_
    have hkey := (find?_eq_some_iff h.wellFormed).mp hi
    exact (find?_eq_some_iff hnext.wellFormed).mpr (keyOf_perform h.wellFormed (Ne.symm hcs.1) hkey)

end Stability

/-! ### What a deletion leaves of the order -/

section Deletion

/-- What is listed of the table, from the entries of its records. -/
theorem toList_eq_filterMap (t : Table) :
    t.toList = (t.records.toList.map (cellOf ∘ Record.entry)).filterMap id := by
  rw [List.filterMap_map]
  rfl

theorem cell_erase (ht : WellFormed hash t) (key : String) (j : ℕ) :
    (entryOf (t.erase hash key).2.records j).map cellOf =
      (entryOf t.records j).map fun e => (cellOf e).filter (·.key ≠ key) := by
  have hkept : keyOf t.records j ≠ some key →
      (entryOf t.records j).map cellOf =
        (entryOf t.records j).map fun e => (cellOf e).filter (·.key ≠ key) := by
    rw [keyOf]
    rcases entryOf t.records j with _ | ⟨_ | key', x⟩
    · exact fun _ => rfl
    · exact fun _ => rfl
    · intro hkey
      have hne : key' ≠ key := fun heq => hkey (by rw [heq]; rfl)
      simp [cellOf, Option.filter_some, hne]
  cases hfind : t.find? hash key with
  | none =>
    rw [erase, hfind]
    exact hkept ((find?_eq_none_iff ht).mp hfind j)
  | some i =>
    have hi := (find?_eq_some_iff ht).mp hfind
    obtain ⟨-, -, -, e, he, hup⟩ := erase_spec ht hi
    rw [hup]
    by_cases hji : j = i
    · obtain ⟨x, hx⟩ := entryOf_of_keyOf hi
      rw [if_pos hji, hji, hx]
      simp [cellOf, Option.filter_some, he]
    · rw [if_neg hji]
      exact hkept fun hj => hji (ht.distinct j i key hj hi)

/-- A deletion takes the property of its key out of the list, and the others stay in order. -/
theorem toList_erase (ht : WellFormed hash t) (key : String) :
    (t.erase hash key).2.toList = t.toList.filter (·.key ≠ key) := by
  have hcells : (t.erase hash key).2.records.toList.map (cellOf ∘ Record.entry) =
      t.records.toList.map fun r => (cellOf r.entry).filter (·.key ≠ key) := by
    apply List.ext_getElem?
    intro j
    have hcell := cell_erase ht key j
    rw [entryOf, entryOf, Option.map_map, Option.map_map] at hcell
    rw [List.getElem?_map, List.getElem?_map, Array.getElem?_toList, Array.getElem?_toList]
    exact hcell
  rw [toList_eq_filterMap, hcells, toList_eq_filterMap, List.filter_filterMap, List.filterMap_map,
    List.filterMap_map]
  rfl

end Deletion

/-! ### What is seen of a table -/

section Shown

/-- What is seen of a table is what the slot list says. -/
structure Shows (hash : String → ℕ) (t : Table) (s : SlotList) : Prop where
  find? : ∀ key, t.find? hash key = s.index? key
  get? : ∀ key, t.get? hash key = s.get? key
  answer : ∀ c, (t.perform hash c).1 = (s.perform c).1
  toList : t.toList = s.toList
  keys : t.keys = s.toList.map (·.key)
  size : t.size = s.live
  records : t.records.size = s.cells.length

theorem Mirrors.size_eq (h : Mirrors hash t s) : t.records.size = t.live + s.holes.length := by
  obtain ⟨hnodup, hmem⟩ := h.wellFormed.holes h.holes
  have hholes : (Finset.range t.records.size).filter (fun i => ¬ (keyOf t.records i).isSome) =
      s.holes.toFinset := by
    ext i
    rw [Finset.mem_filter, Finset.mem_range, List.mem_toFinset, hmem, Deleted,
      Option.not_isSome_iff_eq_none]
  rw [h.wellFormed.live, liveRecords, ← List.toFinset_card_of_nodup hnodup, ← hholes,
    Finset.card_filter_add_card_filter_not, Finset.card_range]

theorem Mirrors.shows (h : Mirrors hash t s) : Shows hash t s where
  find? key := (h.index?_eq key).symm
  get? key := by
    rw [Table.get?, SlotList.get?, h.index?_eq]
    cases hfind : t.find? hash key with
    | none => rfl
    | some i =>
      have hi := (find?_eq_some_iff h.wellFormed).mp hfind
      obtain ⟨x, he⟩ := entryOf_of_keyOf hi
      obtain ⟨r, hr, -, rfl⟩ := entryOf_eq_some_iff.mp he
      rw [Option.bind_some, h.cells, he]
      simp [hr, cellOf]
  answer c := (h.step c).1
  toList := h.toList_eq.symm
  keys := by rw [h.toList_eq, keys]
  size := by
    rw [size, SlotList.live, h.length_eq, h.size_eq]
    omega
  records := h.length_eq.symm

/-- A new table into which distinct keys are set lists them in the order in which they came. -/
theorem toList_run_set (hash : String → ℕ) (capacity : ℕ) {ps : List (String × Value)}
    (hkeys : (ps.map (·.1)).Nodup) :
    ((withCapacity capacity).run hash (ps.map fun q => .set q.1 q.2)).toList =
      ps.map fun q => ⟨q.1, .data q.2, Flags.all⟩ := by
  have hrun : SlotList.empty.run (ps.map fun q => .set q.1 q.2) =
      ⟨ps.map fun q => some ⟨q.1, .data q.2, Flags.all⟩, []⟩ :=
    SlotList.run_set rfl (fun _ _ => rfl) hkeys
  have hmirrors := (mirrors_withCapacity hash capacity).run (ps.map fun q => .set q.1 q.2)
  rw [← hmirrors.toList_eq, hrun, SlotList.toList, List.filterMap_map]
  simp

/-- Two tables, each with its hash function, that cannot be told apart. -/
structure Alike (hash hash' : String → ℕ) (t t' : Table) : Prop where
  find? : ∀ key, t.find? hash key = t'.find? hash' key
  get? : ∀ key, t.get? hash key = t'.get? hash' key
  answer : ∀ c, (t.perform hash c).1 = (t'.perform hash' c).1
  toList : t.toList = t'.toList
  keys : t.keys = t'.keys
  size : t.size = t'.size
  records : t.records.size = t'.records.size

theorem Shows.alike {hash' : String → ℕ} (h : Shows hash t s) (h' : Shows hash' t' s) :
    Alike hash hash' t t' where
  find? key := (h.find? key).trans (h'.find? key).symm
  get? key := (h.get? key).trans (h'.get? key).symm
  answer c := (h.answer c).trans (h'.answer c).symm
  toList := h.toList.trans h'.toList.symm
  keys := h.keys.trans h'.keys.symm
  size := h.size.trans h'.size.symm
  records := h.records.trans h'.records.symm

end Shown

/-- **Order and lookups do not depend on hashing.** After any run of mutations on new tables, what
is seen of them is the same for all hash functions and capacities, and is what the slot list
says; a key stays in its slot until it is deleted; and there are as many records as
properties have been there at once. -/
theorem order_independent_of_hashing (hash hash' : String → ℕ) (capacity capacity' : ℕ)
    (cs : List Mutation) :
    let t := (withCapacity capacity).run hash cs
    Alike hash hash' t ((withCapacity capacity').run hash' cs) ∧
      Shows hash t (SlotList.empty.run cs) ∧
      (∀ before after key i, cs = before ++ after → .erase key ∉ after →
        ((withCapacity capacity).run hash before).find? hash key = some i →
          t.find? hash key = some i) ∧
      IsGreatest (Set.range fun n => ((withCapacity capacity).run hash (cs.take n)).size)
        t.records.size := by
  intro t
  have hmirrors : ∀ hash capacity cs,
      Mirrors hash ((withCapacity capacity).run hash cs) (SlotList.empty.run cs) :=
    fun hash capacity => (mirrors_withCapacity hash capacity).run
  have hshows := (hmirrors hash capacity cs).shows
  refine ⟨hshows.alike (hmirrors hash' capacity' cs).shows, hshows, ?_, ?_⟩
  · rintro before after key i rfl hafter hi
    have hrun : t = ((withCapacity capacity).run hash before).run hash after := List.foldl_append
    rw [hrun]
    exact (hmirrors hash capacity before).find?_run hafter hi
  · have hsizes : ∀ n, ((withCapacity capacity).run hash (cs.take n)).size =
        (SlotList.empty.run (cs.take n)).live :=
      fun n => (hmirrors hash capacity (cs.take n)).shows.size
    simp only [hsizes]
    rw [hshows.records]
    exact SlotList.isGreatest_length cs

end Table

end ValueEngine.Property
