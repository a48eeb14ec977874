import Mathlib.Data.Finset.Card
import ValueEngine.Proofs.Property.Chains

/-! Well-formed property tables. The chain of a bucket lists exactly the live records whose
keys belong to it, and the free list lists exactly the deleted records, so the two
families of lists share no record. Every operation is followed through its steps:
enchaining writes only the link of the record it adds, placing takes the front
of the free list, and unlinking writes only the link before the record it removes. -/

namespace ValueEngine.Property

/-- What a record holds besides its link. -/
def Record.entry (r : Record) : Option String × Slot × Flags := (r.key, r.slot, r.flags)

namespace Table

def entryOf (rs : Array Record) (i : ℕ) : Option (Option String × Slot × Flags) :=
  (rs[i]?).map Record.entry

def keyOf (rs : Array Record) (i : ℕ) : Option String := (entryOf rs i).bind (·.1)

/-- A record that has been deleted. -/
def Deleted (rs : Array Record) (i : ℕ) : Prop := i < rs.size ∧ keyOf rs i = none

/-- A live record whose key belongs to bucket `b` of `count`. -/
def InBucket (hash : String → ℕ) (count : ℕ) (rs : Array Record) (b i : ℕ) : Prop :=
  ∃ key, keyOf rs i = some key ∧ bucketOf hash count key = b

/-- The bucket chains list exactly the live records in `P`, each in the bucket of its key. -/
def Chained (hash : String → ℕ) (rs : Array Record) (buckets : Array ℕ) (P : ℕ → Prop) : Prop :=
  ∀ b, b < buckets.size → Lists rs (head buckets b) fun i => P i ∧ InBucket hash buckets.size rs b i

def liveRecords (rs : Array Record) : Finset ℕ :=
  (Finset.range rs.size).filter fun i => (keyOf rs i).isSome

/-- A table whose chains, free list, keys and counts are right. -/
structure WellFormed (hash : String → ℕ) (t : Table) : Prop where
  powerOfTwo : t.buckets.size.isPowerOfTwo
  atLeastFour : 4 ≤ t.buckets.size
  chained : ∀ b, b < t.buckets.size →
    Lists t.records (head t.buckets b) (InBucket hash t.buckets.size t.records b)
  freed : Lists t.records t.free (Deleted t.records)
  distinct : ∀ i j key, keyOf t.records i = some key → keyOf t.records j = some key → i = j
  live : t.live = (liveRecords t.records).card
  load : t.live * 4 ≤ 3 * t.buckets.size

variable {hash : String → ℕ} {t t' : Table} {rs rs' : Array Record} {key : String} {i j b : ℕ}
variable {P : ℕ → Prop}

theorem lt_size_iff_entryOf : i < rs.size ↔ (entryOf rs i).isSome := by
  simp [entryOf]

theorem lt_size_of_keyOf (h : keyOf rs i = some key) : i < rs.size := by
  obtain ⟨e, he, -⟩ := Option.bind_eq_some_iff.mp h
  rw [lt_size_iff_entryOf, he]
  rfl

theorem InBucket.unique {count c : ℕ} (hb : InBucket hash count rs b i)
    (hc : InBucket hash count rs c i) : b = c := by
  obtain ⟨key, hkey, rfl⟩ := hb
  obtain ⟨key', hkey', rfl⟩ := hc
  obtain rfl : key = key' := by
    rw [hkey, Option.some.injEq] at hkey'
    exact hkey'
  rfl

theorem mem_liveRecords : i ∈ liveRecords rs ↔ ∃ key, keyOf rs i = some key := by
  rw [liveRecords, Finset.mem_filter, Finset.mem_range, Option.isSome_iff_exists]
  constructor
  · exact fun h => h.2
  · rintro ⟨key, hkey⟩
    exact ⟨lt_size_of_keyOf hkey, key, hkey⟩

theorem hasKey_iff : t.hasKey key i = true ↔ keyOf t.records i = some key := by
  unfold hasKey keyOf entryOf
  cases t.records[i]? with
  | none => simp
  | some r => simp [Record.entry]

/-- The records after one link has been written. -/
def relink (rs : Array Record) (i link : ℕ) : Array Record :=
  rs.modify i fun r => { r with next := link }

theorem entryOf_relink (rs : Array Record) (i link j : ℕ) :
    entryOf (relink rs i link) j = entryOf rs j := by
  rw [entryOf, relink, Array.getElem?_modify, entryOf]
  by_cases hij : i = j
  · rw [if_pos hij, Option.map_map]
    rfl
  · rw [if_neg hij]

theorem nextOf_relink_self (link : ℕ) (hi : i < rs.size) :
    nextOf (relink rs i link) i = some link := by
  rw [nextOf, relink, Array.getElem?_modify, if_pos rfl, Array.getElem?_eq_getElem hi]
  rfl

theorem nextOf_relink_ne (link : ℕ) (hji : j ≠ i) :
    nextOf (relink rs i link) j = nextOf rs j := by
  rw [nextOf, relink, Array.getElem?_modify, if_neg (Ne.symm hji), nextOf]

/-- Only the links of live records differ. -/
structure Relinked (t t' : Table) : Prop where
  entries : ∀ i, entryOf t'.records i = entryOf t.records i
  idle : ∀ i, keyOf t.records i = none → nextOf t'.records i = nextOf t.records i
  live : t'.live = t.live
  free : t'.free = t.free

namespace Relinked

theorem refl (t : Table) : Relinked t t := ⟨fun _ => rfl, fun _ _ => rfl, rfl, rfl⟩

theorem keyOf_eq (h : Relinked t t') (i : ℕ) : keyOf t'.records i = keyOf t.records i := by
  rw [keyOf, h.entries, keyOf]

theorem trans {t'' : Table} (h : Relinked t t') (h' : Relinked t' t'') : Relinked t t'' where
  entries i := (h'.entries i).trans (h.entries i)
  idle i hi := (h'.idle i ((h.keyOf_eq i).trans hi)).trans (h.idle i hi)
  live := h'.live.trans h.live
  free := h'.free.trans h.free

/-- Writing the link of a live record. -/
theorem of_relink {link : ℕ} (hkey : keyOf t.records i = some key)
    (hrecords : t'.records = relink t.records i link) (hlive : t'.live = t.live)
    (hfree : t'.free = t.free) : Relinked t t' where
  entries j := by rw [hrecords, entryOf_relink]
  idle j hj := by
    have hji : j ≠ i := by
      rintro rfl
      rw [hkey] at hj
      cases hj
    rw [hrecords, nextOf_relink_ne link hji]
  live := hlive
  free := hfree

theorem deleted_iff (h : Relinked t t') (i : ℕ) :
    Deleted t'.records i ↔ Deleted t.records i := by
  rw [Deleted, Deleted, h.keyOf_eq, lt_size_iff_entryOf, lt_size_iff_entryOf, h.entries]

theorem inBucket_iff (h : Relinked t t') {count : ℕ} :
    InBucket hash count t'.records b i ↔ InBucket hash count t.records b i := by
  rw [InBucket, h.keyOf_eq, InBucket]

theorem liveRecords_eq (h : Relinked t t') : liveRecords t'.records = liveRecords t.records := by
  ext i
  simp only [mem_liveRecords, h.keyOf_eq]

/-- Rebuilt chains make a well-formed table of a well-formed one. -/
theorem wellFormed (h : Relinked t t') (ht : WellFormed hash t)
    (hpower : t'.buckets.size.isPowerOfTwo) (hfour : 4 ≤ t'.buckets.size)
    (hchained : Chained hash t'.records t'.buckets fun _ => True)
    (hload : t'.live * 4 ≤ 3 * t'.buckets.size) : WellFormed hash t' where
  powerOfTwo := hpower
  atLeastFour := hfour
  chained b hb := (hchained b hb).congr (fun i => by rw [true_and]) fun _ _ => rfl
  freed := by
    rw [h.free]
    exact ht.freed.congr h.deleted_iff fun i hi => h.idle i hi.2
  distinct i j key hi hj := by
    rw [h.keyOf_eq] at hi hj
    exact ht.distinct i j key hi hj
  live := by rw [h.live, ht.live, h.liveRecords_eq]
  load := hload

end Relinked

/-- Only which live records are chained matters. -/
theorem Chained.congr {buckets : Array ℕ} {Q : ℕ → Prop} (h : Chained hash rs buckets P)
    (hP : ∀ j key, keyOf rs j = some key → (Q j ↔ P j)) : Chained hash rs buckets Q := by
  intro b hb
  refine (h b hb).congr ?_ fun _ _ => rfl
  intro j
  constructor
  · rintro ⟨hj, key, hkey, hbucket⟩
    exact ⟨(hP j key hkey).mp hj, key, hkey, hbucket⟩
  · rintro ⟨hj, key, hkey, hbucket⟩
    exact ⟨(hP j key hkey).mpr hj, key, hkey, hbucket⟩

/-! ### Looking up -/

section Find

theorem find?_eq_some_iff (ht : WellFormed hash t) :
    t.find? hash key = some i ↔ keyOf t.records i = some key := by
  have hfour := ht.atLeastFour
  have hb : bucketOf hash t.buckets.size key < t.buckets.size := Nat.mod_lt _ (by omega)
  obtain ⟨-, -, hmem⟩ := (ht.chained _ hb).chain
  rw [find?]
  by_cases hzero : t.live = 0
  · rw [if_pos hzero]
    constructor
    · intro h
      cases h
    · intro hkey
      have hcard : (liveRecords t.records).card = 0 := ht.live ▸ hzero
      have hi : i ∈ liveRecords t.records := mem_liveRecords.mpr ⟨key, hkey⟩
      rw [Finset.card_eq_zero.mp hcard] at hi
      exact absurd hi (Finset.notMem_empty i)
  · rw [if_neg hzero]
    constructor
    · intro hfind
      exact hasKey_iff.mp (List.find?_some hfind)
    · intro hkey
      have hi := (hmem i).mpr ⟨key, hkey, rfl⟩
      have hsome := List.find?_isSome.mpr ⟨i, hi, hasKey_iff.mpr hkey⟩
      obtain ⟨j, hj⟩ := Option.isSome_iff_exists.mp hsome
      have hkeyj := hasKey_iff.mp (List.find?_some hj)
      rw [hj, ht.distinct i j key hkey hkeyj]

theorem find?_eq_none_iff (ht : WellFormed hash t) :
    t.find? hash key = none ↔ ∀ i, keyOf t.records i ≠ some key := by
  rw [Option.eq_none_iff_forall_ne_some]
  exact forall_congr' fun i => not_congr (find?_eq_some_iff ht)

end Find

/-! ### Enchaining -/

section Enchain

@[simp] theorem size_buckets_enchain :
    (enchain hash key i t).buckets.size = t.buckets.size := by
  simp [enchain]

theorem relinked_enchain (hkey : keyOf t.records i = some key) :
    Relinked t (enchain hash key i t) :=
  Relinked.of_relink hkey rfl rfl rfl

/-- The heads of the buckets after one has been set. -/
theorem head_setIfInBounds {buckets : Array ℕ} {b : ℕ} (hb : b < buckets.size) (link c : ℕ) :
    head (buckets.setIfInBounds b link) c = if c = b then link else head buckets c := by
  rw [head, Array.getElem?_setIfInBounds]
  by_cases hcb : c = b
  · rw [if_pos hcb, if_pos hcb.symm, if_pos hb, Option.getD_some]
  · rw [if_neg hcb, if_neg (Ne.symm hcb), head]

theorem head_enchain (hpos : 0 < t.buckets.size) (b : ℕ) :
    head (enchain hash key i t).buckets b =
      if b = bucketOf hash t.buckets.size key then i + 1 else head t.buckets b :=
  head_setIfInBounds (Nat.mod_lt _ hpos) (i + 1) b

/-- Enchaining a record adds it to the chain of its bucket. -/
theorem Chained.enchain (h : Chained hash t.records t.buckets P) (hi : ¬ P i)
    (hkey : keyOf t.records i = some key) (hpos : 0 < t.buckets.size) :
    Chained hash (enchain hash key i t).records (enchain hash key i t).buckets
      fun j => j = i ∨ P j := by
  have hre : Relinked t (Table.enchain hash key i t) := relinked_enchain hkey
  have hother : ∀ j, j ≠ i → nextOf (Table.enchain hash key i t).records j = nextOf t.records j := by
    intro j hji
    exact nextOf_relink_ne _ hji
  intro b hb
  rw [size_buckets_enchain] at hb ⊢
  rw [head_enchain hpos]
  by_cases hbk : b = bucketOf hash t.buckets.size key
  · rw [if_pos hbk]
    refine (h b hb).cons (fun hP => hi hP.1) ?_ ?_ ?_
    · rw [hbk]
      exact nextOf_relink_self _ (lt_size_of_keyOf hkey)
    · rintro j ⟨hj, -⟩
      exact hother j fun hji => hi (hji ▸ hj)
    · intro j
      have hmine : InBucket hash t.buckets.size t.records b i := ⟨key, hkey, hbk.symm⟩
      rw [hre.inBucket_iff]
      constructor
      · rintro ⟨rfl | hj, hin⟩
        · exact Or.inl rfl
        · exact Or.inr ⟨hj, hin⟩
      · rintro (rfl | ⟨hj, hin⟩)
        · exact ⟨Or.inl rfl, hmine⟩
        · exact ⟨Or.inr hj, hin⟩
  · rw [if_neg hbk]
    refine (h b hb).congr ?_ ?_
    · intro j
      rw [hre.inBucket_iff]
      constructor
      · rintro ⟨rfl | hj, hin⟩
        · obtain ⟨key', hkey', hb'⟩ := hin
          rw [hkey, Option.some.injEq] at hkey'
          exact absurd (hkey' ▸ hb').symm hbk
        · exact ⟨hj, hin⟩
      · rintro ⟨hj, hin⟩
        exact ⟨Or.inr hj, hin⟩
    · rintro j ⟨hj, -⟩
      exact hother j fun hji => hi (hji ▸ hj)

end Enchain

/-! ### Rebuilding the chains -/

section Rehash

/-- Enchaining the live records one after the other builds the chains of all of them. -/
theorem enchainFrom_spec (count : ℕ) (h : Chained hash t.records t.buckets (· < i))
    (hpos : 0 < t.buckets.size) :
    Relinked t (enchainFrom hash count i t) ∧
      (enchainFrom hash count i t).buckets.size = t.buckets.size ∧
      Chained hash (enchainFrom hash count i t).records (enchainFrom hash count i t).buckets
        (· < i + count) := by
  induction count generalizing i t with
  | zero => exact ⟨Relinked.refl t, rfl, h⟩
  | succ count ih =>
    have hkey : (t.records[i]?).bind (·.key) = keyOf t.records i := by
      rw [keyOf, entryOf]
      cases t.records[i]? <;> rfl
    have hsum : i + 1 + count = i + (count + 1) := by omega
    rw [enchainFrom, hkey, ← hsum]
    cases hk : keyOf t.records i with
    | none =>
      refine ih (h.congr ?_) hpos
      intro j key hj
      have hji : j ≠ i := by
        rintro rfl
        rw [hk] at hj
        cases hj
      show j < i + 1 ↔ j < i
      omega
    | some key =>
      have hre : Relinked t (enchain hash key i t) := relinked_enchain hk
      have hstep := h.enchain (Nat.lt_irrefl i) hk hpos
      have hnext : Chained hash (enchain hash key i t).records (enchain hash key i t).buckets
          (· < i + 1) := by
        refine hstep.congr ?_
        intro j _ _
        show j < i + 1 ↔ j = i ∨ j < i
        omega
      obtain ⟨hre', hsize, hch⟩ := ih hnext (by rw [size_buckets_enchain]; exact hpos)
      exact ⟨hre.trans hre', by rw [hsize, size_buckets_enchain], hch⟩

theorem rehash_spec (hash : String → ℕ) (t : Table) {count : ℕ} (hpos : 0 < count) :
    Relinked t (t.rehash hash count) ∧ (t.rehash hash count).buckets.size = count ∧
      Chained hash (t.rehash hash count).records (t.rehash hash count).buckets fun _ => True := by
  have hstart : Chained hash t.records (Array.replicate count 0) (· < 0) := by
    intro b hb
    have hhead : head (Array.replicate count 0) b = 0 := by
      rw [head, Array.getElem?_replicate]
      split_ifs <;> rfl
    rw [hhead]
    exact Lists.empty fun j hj => Nat.not_lt_zero j hj.1
  have hspec := enchainFrom_spec (t := { t with buckets := Array.replicate count 0 })
    t.records.size hstart (by simpa using hpos)
  obtain ⟨hre, hsize, hch⟩ := hspec
  refine ⟨⟨hre.entries, hre.idle, hre.live, hre.free⟩, ?_, hch.congr ?_⟩
  · rw [rehash, hsize, Array.size_replicate]
  · intro j key hkey
    rw [hre.keyOf_eq] at hkey
    have hlt : j < t.records.size := lt_size_of_keyOf hkey
    show True ↔ j < 0 + t.records.size
    exact ⟨fun _ => by omega, fun _ => trivial⟩

/-- After making room one more record stays within the load. -/
theorem makeRoom_spec (ht : WellFormed hash t) :
    WellFormed hash (t.makeRoom hash) ∧ Relinked t (t.makeRoom hash) ∧
      ((t.makeRoom hash).live + 1) * 4 ≤ 3 * (t.makeRoom hash).buckets.size := by
  have hfour := ht.atLeastFour
  have hload := ht.load
  rw [makeRoom]
  by_cases hfull : t.buckets.size * 3 < (t.live + 1) * 4
  · rw [if_pos hfull]
    have hpos : 0 < t.buckets.size * 2 := by omega
    obtain ⟨hre, hsize, hch⟩ := rehash_spec hash t hpos
    have hlive := hre.live
    refine ⟨hre.wellFormed ht ?_ ?_ hch ?_, hre, ?_⟩
    · rw [hsize]
      exact Nat.isPowerOfTwo_mul_two_of_isPowerOfTwo ht.powerOfTwo
    · omega
    · omega
    · omega
  · rw [if_neg hfull]
    exact ⟨ht, Relinked.refl t, by omega⟩

end Rehash

end Table

end ValueEngine.Property
