import ValueEngine.Proofs.Property.WellFormed

/-! The operations of a property table keep it well formed. Each comes with what it does
to the records: one record is replaced, or its entry updated, and every other one
holds what it held. Inserting fills an idle record and erasing empties a live one, so
in between there is always one record that is on no chain. -/

namespace ValueEngine.Property.Table

variable {hash : String → ℕ} {t t' : Table} {rs rs' : Array Record} {buckets : Array ℕ}
variable {key : String} {i j n link : ℕ} {r : Record}

/-- Only the entry of record `i` has changed, to `e`. -/
def Updated (rs rs' : Array Record) (i : ℕ) (e : Option String × Slot × Flags) : Prop :=
  ∀ j, entryOf rs' j = if j = i then some e else entryOf rs j

/-- Record `i` is now `r`, and every other record is what it was. -/
def Replaced (rs rs' : Array Record) (i : ℕ) (r : Record) : Prop :=
  ∀ j, rs'[j]? = if j = i then some r else rs[j]?

theorem ne_of_keyOf (hi : keyOf rs i = none) (hj : keyOf rs j = some key) : j ≠ i := by
  rintro rfl
  rw [hi] at hj
  cases hj

namespace Updated

variable {e : Option String × Slot × Flags}

theorem keyOf_eq (h : Updated rs rs' i e) (j : ℕ) :
    keyOf rs' j = if j = i then e.1 else keyOf rs j := by
  rw [keyOf, h]
  by_cases hji : j = i
  · rw [if_pos hji, if_pos hji]
    rfl
  · rw [if_neg hji, if_neg hji, keyOf]

theorem keyOf_self (h : Updated rs rs' i e) : keyOf rs' i = e.1 := by
  rw [h.keyOf_eq, if_pos rfl]

theorem keyOf_ne (h : Updated rs rs' i e) (hji : j ≠ i) : keyOf rs' j = keyOf rs j := by
  rw [h.keyOf_eq, if_neg hji]

theorem deleted_iff (h : Updated rs rs' i e) (hji : j ≠ i) : Deleted rs' j ↔ Deleted rs j := by
  rw [Deleted, Deleted, h.keyOf_ne hji, lt_size_iff_entryOf, lt_size_iff_entryOf, h j, if_neg hji]

/-- Keys stay distinct when a record is given a key that no other record has. -/
theorem distinct (h : Updated rs rs' i e)
    (hdistinct : ∀ i j key, keyOf rs i = some key → keyOf rs j = some key → i = j)
    (hnew : ∀ j key, j ≠ i → e.1 = some key → keyOf rs j ≠ some key) (j k : ℕ) (key : String)
    (hj : keyOf rs' j = some key) (hk : keyOf rs' k = some key) : j = k := by
  rw [h.keyOf_eq] at hj hk
  by_cases hji : j = i
  · by_cases hki : k = i
    · rw [hji, hki]
    · rw [if_pos hji] at hj
      rw [if_neg hki] at hk
      exact absurd hk (hnew k key hki hj)
  · rw [if_neg hji] at hj
    by_cases hki : k = i
    · rw [if_pos hki] at hk
      exact absurd hj (hnew j key hji hk)
    · rw [if_neg hki] at hk
      exact hdistinct j k key hj hk

theorem card_insert (h : Updated rs rs' i e) (he : e.1 = some key) (hi : keyOf rs i = none) :
    (liveRecords rs').card = (liveRecords rs).card + 1 := by
  have hnot : i ∉ liveRecords rs := by
    rw [mem_liveRecords, hi]
    rintro ⟨_, h⟩
    cases h
  rw [← Finset.card_insert_of_notMem hnot]
  congr 1
  ext j
  rw [Finset.mem_insert, mem_liveRecords, mem_liveRecords, h.keyOf_eq]
  by_cases hji : j = i
  · simp [hji, he]
  · simp [hji]

theorem card_erase (h : Updated rs rs' i e) (he : e.1 = none) (hi : keyOf rs i = some key) :
    (liveRecords rs').card = (liveRecords rs).card - 1 := by
  have hmem : i ∈ liveRecords rs := mem_liveRecords.mpr ⟨key, hi⟩
  rw [← Finset.card_erase_of_mem hmem]
  congr 1
  ext j
  rw [Finset.mem_erase, mem_liveRecords, mem_liveRecords, h.keyOf_eq]
  by_cases hji : j = i
  · simp [hji, he]
  · simp [hji]

end Updated

namespace Replaced

theorem push (rs : Array Record) (r : Record) : Replaced rs (rs.push r) rs.size r :=
  fun _ => Array.getElem?_push

theorem set (hi : i < rs.size) (r : Record) : Replaced rs (rs.setIfInBounds i r) i r := by
  intro j
  rw [Array.getElem?_setIfInBounds]
  by_cases hji : j = i
  · rw [if_pos hji.symm, if_pos hji, if_pos hi]
  · rw [if_neg (Ne.symm hji), if_neg hji]

theorem modify (hr : rs[i]? = some r) (f : Record → Record) :
    Replaced rs (rs.modify i f) i (f r) := by
  intro j
  rw [Array.getElem?_modify]
  by_cases hji : j = i
  · rw [if_pos hji.symm, if_pos hji, hji, hr]
    rfl
  · rw [if_neg (Ne.symm hji), if_neg hji]

theorem updated (h : Replaced rs rs' i r) : Updated rs rs' i r.entry := by
  intro j
  rw [entryOf, h]
  by_cases hji : j = i
  · rw [if_pos hji, if_pos hji]
    rfl
  · rw [if_neg hji, if_neg hji, entryOf]

theorem nextOf_self (h : Replaced rs rs' i r) : nextOf rs' i = some r.next := by
  rw [nextOf, h, if_pos rfl]
  rfl

theorem nextOf_ne (h : Replaced rs rs' i r) (hji : j ≠ i) : nextOf rs' j = nextOf rs j := by
  rw [nextOf, h, if_neg hji, nextOf]

/-- Replacing a record that is on no chain leaves the chains as they are. -/
theorem chained (h : Replaced rs rs' i r) (hch : Chained hash rs buckets (· ≠ i)) :
    Chained hash rs' buckets (· ≠ i) := by
  intro b hb
  refine (hch b hb).congr ?_ fun j hj => h.nextOf_ne hj.1
  intro j
  constructor
  · rintro ⟨hji, key, hj, hbucket⟩
    exact ⟨hji, key, (h.updated.keyOf_ne hji).symm.trans hj, hbucket⟩
  · rintro ⟨hji, key, hj, hbucket⟩
    exact ⟨hji, key, (h.updated.keyOf_ne hji).trans hj, hbucket⟩

end Replaced

theorem WellFormed.chainedAll (ht : WellFormed hash t) :
    Chained hash t.records t.buckets fun _ => True :=
  fun b hb => (ht.chained b hb).congr (fun i => by rw [true_and]) fun _ _ => rfl

/-- Chains of all live records but an idle one are chains of all live records. -/
theorem Chained.complete (hch : Chained hash rs buckets (· ≠ i)) (hi : keyOf rs i = none) (b : ℕ)
    (hb : b < buckets.size) : Lists rs (head buckets b) (InBucket hash buckets.size rs b) := by
  refine (hch b hb).congr ?_ fun _ _ => rfl
  intro j
  constructor
  · rintro ⟨key, hj, hbucket⟩
    exact ⟨ne_of_keyOf hi hj, key, hj, hbucket⟩
  · exact fun h => h.2

theorem wellFormed_withCapacity (hash : String → ℕ) (capacity : ℕ) :
    WellFormed hash (withCapacity capacity) := by
  have hkey : ∀ i, keyOf (withCapacity capacity).records i = none := fun i => rfl
  have hsize : (withCapacity capacity).buckets.size = max capacity.nextPowerOfTwo 4 :=
    Array.size_replicate
  refine ⟨?_, ?_, ?_, ?_, ?_, rfl, ?_⟩
  · rw [hsize]
    obtain h | h := Nat.le_total capacity.nextPowerOfTwo 4
    · rw [Nat.max_eq_right h]
      exact ⟨2, rfl⟩
    · rw [Nat.max_eq_left h]
      exact Nat.isPowerOfTwo_nextPowerOfTwo capacity
  · rw [hsize]
    exact Nat.le_max_right _ _
  · intro b hb
    have hhead : head (withCapacity capacity).buckets b = 0 := by
      rw [head, withCapacity, Array.getElem?_replicate]
      split_ifs <;> rfl
    rw [hhead]
    apply Lists.empty
    rintro i ⟨key, hi, -⟩
    rw [hkey] at hi
    cases hi
  · exact Lists.empty fun i hi => Nat.not_lt_zero i hi.1
  · intro i j key hi
    rw [hkey] at hi
    cases hi
  · exact Nat.zero_le _

/-- Changing what an existing record holds, but not its key or its link. -/
theorem overwrite_spec (ht : WellFormed hash t) (hr : t.records[i]? = some r)
    {f : Record → Record} (hkey : (f r).key = r.key) (hnext : (f r).next = r.next) :
    WellFormed hash { t with records := t.records.modify i f } := by
  have hre := Replaced.modify hr f
  have hkeys : ∀ j, keyOf (t.records.modify i f) j = keyOf t.records j := by
    intro j
    by_cases hji : j = i
    · rw [hji, hre.updated.keyOf_self, keyOf, entryOf, hr]
      exact hkey
    · exact hre.updated.keyOf_ne hji
  have hnexts : ∀ j, nextOf (t.records.modify i f) j = nextOf t.records j := by
    intro j
    by_cases hji : j = i
    · rw [hji, hre.nextOf_self, hnext, nextOf, hr]
      rfl
    · exact hre.nextOf_ne hji
  refine ⟨ht.powerOfTwo, ht.atLeastFour, ?_, ?_, ?_, ?_, ht.load⟩
  · intro b hb
    refine (ht.chained b hb).congr ?_ fun j _ => hnexts j
    intro j
    rw [InBucket, hkeys, InBucket]
  · refine ht.freed.congr ?_ fun j _ => hnexts j
    intro j
    rw [Deleted, Deleted, hkeys, Array.size_modify]
  · intro j k key hj hk
    rw [hkeys] at hj hk
    exact ht.distinct j k key hj hk
  · rw [ht.live]
    congr 1
    ext j
    rw [mem_liveRecords, mem_liveRecords, hkeys]

/-! ### Inserting a key -/

section Insert

/-- A record is placed where there was none or a deleted one, which leaves the free list. -/
theorem place_spec (ht : WellFormed hash t) (r : Record) {i : ℕ} {t' : Table}
    (hplace : t.place r = (i, t')) :
    keyOf t.records i = none ∧ Replaced t.records t'.records i r ∧
      t'.buckets = t.buckets ∧ t'.live = t.live ∧
      Lists t'.records t'.free (fun j => Deleted t.records j ∧ j ≠ i) := by
  rw [place] at hplace
  have hfreed := ht.freed
  cases hfree : t.free with
  | zero =>
    simp only [hfree] at hplace hfreed
    obtain ⟨rfl, rfl⟩ := Prod.mk.inj hplace
    have hre := Replaced.push t.records r
    have hidle : keyOf t.records t.records.size = none := by
      rw [keyOf, entryOf, Array.getElem?_eq_none le_rfl]
      rfl
    refine ⟨hidle, hre, rfl, rfl, ?_⟩
    show Lists (t.records.push r) 0 _
    refine hfreed.congr ?_ fun j hj => hre.nextOf_ne (Nat.ne_of_lt hj.1)
    intro j
    constructor
    · exact fun h => h.1
    · exact fun h => ⟨h, Nat.ne_of_lt h.1⟩
  | succ k =>
    simp only [hfree] at hplace hfreed
    obtain ⟨rfl, rfl⟩ := Prod.mk.inj hplace
    obtain ⟨⟨hlt, hidle⟩, n, hn, hrest⟩ := hfreed.tail
    have hre := Replaced.set hlt r
    refine ⟨hidle, hre, rfl, rfl, ?_⟩
    show Lists (t.records.setIfInBounds k r) ((nextOf t.records k).getD 0) _
    rw [hn, Option.getD_some]
    exact hrest.congr (fun _ => Iff.rfl) fun j hj => hre.nextOf_ne hj.2

/-- Once record `i` has been filled, the deleted records are the others that were deleted. -/
theorem Lists.filled {placed : Array Record} {e : Option String × Slot × Flags}
    (h : Lists placed link fun j => Deleted rs j ∧ j ≠ i) (hup : Updated rs rs' i e)
    (he : e.1 = some key)
    (hnexts : ∀ j, keyOf rs j = none → j ≠ i → nextOf rs' j = nextOf placed j) :
    Lists rs' link (Deleted rs') := by
  refine h.congr ?_ fun j hj => hnexts j hj.1.2 hj.2
  intro j
  by_cases hji : j = i
  · subst hji
    have halive : ¬ Deleted rs' j := by
      rintro ⟨-, hj⟩
      rw [hup.keyOf_self, he] at hj
      cases hj
    exact ⟨fun hj => absurd hj halive, fun hj => absurd rfl hj.2⟩
  · rw [hup.deleted_iff hji]
    exact ⟨fun hj => ⟨hj, hji⟩, fun hj => hj.1⟩

theorem insertNew_spec (ht : WellFormed hash t) (hnew : ∀ j, keyOf t.records j ≠ some key)
    (slot : Slot) (flags : Flags) :
    WellFormed hash (t.insertNew hash key slot flags) ∧
      (t.insertNew hash key slot flags).live = t.live + 1 ∧
      ∃ i, keyOf t.records i = none ∧
        Updated t.records (t.insertNew hash key slot flags).records i (some key, slot, flags) := by
  obtain ⟨hroom, hmade, hload⟩ := makeRoom_spec ht
  rw [insertNew]
  generalize t.makeRoom hash = u at hroom hmade hload
  rcases hplace : u.place ⟨some key, slot, flags, 0⟩ with ⟨i, v⟩
  obtain ⟨hidle, hre, hbuckets, hlive, hfree⟩ := place_spec hroom _ hplace
  have hkey : keyOf v.records i = some key := hre.updated.keyOf_self
  have hlink : Relinked v (enchain hash key i v) := relinked_enchain hkey
  have hup : Updated u.records (enchain hash key i v).records i (some key, slot, flags) :=
    fun j => (hlink.entries j).trans (hre.updated j)
  have hsize : (enchain hash key i v).buckets.size = u.buckets.size := by
    rw [size_buckets_enchain, hbuckets]
  have hfour := hroom.atLeastFour
  have hrest : Chained hash u.records u.buckets (· ≠ i) :=
    hroom.chainedAll.congr fun j _ hj => ⟨fun _ => trivial, fun _ => ne_of_keyOf hidle hj⟩
  have hplaced := hre.chained hrest
  rw [← hbuckets] at hplaced
  have hfull := hplaced.enchain (fun h => h rfl) hkey (by rw [hbuckets]; omega)
  refine ⟨⟨?_, ?_, ?_, ?_, ?_, ?_, ?_⟩, ?_, i, ?_, ?_⟩
  · show (enchain hash key i v).buckets.size.isPowerOfTwo
    rw [hsize]
    exact hroom.powerOfTwo
  · show 4 ≤ (enchain hash key i v).buckets.size
    rw [hsize]
    exact hfour
  · intro b hb
    refine (hfull b hb).congr ?_ fun _ _ => rfl
    intro j
    exact ⟨fun hin => ⟨em (j = i), hin⟩, fun h => h.2⟩
  · refine hfree.filled hup rfl fun j hj hji => ?_
    exact hlink.idle j ((hre.updated.keyOf_ne hji).trans hj)
  · apply hup.distinct hroom.distinct
    rintro j key' - hkey'
    obtain rfl : key = key' := Option.some.inj hkey'
    rw [hmade.keyOf_eq]
    exact hnew j
  · show v.live + 1 = (liveRecords (enchain hash key i v).records).card
    rw [hup.card_insert rfl hidle, hlive, hroom.live]
  · show (v.live + 1) * 4 ≤ 3 * (enchain hash key i v).buckets.size
    rw [hsize, hlive]
    exact hload
  · show v.live + 1 = t.live + 1
    rw [hlive, hmade.live]
  · rw [← hmade.keyOf_eq]
    exact hidle
  · intro j
    rw [← hmade.entries]
    exact hup j

end Insert

/-! ### Erasing a key -/

section Erase

/-- Linking the record before `i` past it takes `i` out of the chain of its bucket. -/
theorem chained_bypass (ht : WellFormed hash t) {b : ℕ} (hb : b < t.buckets.size)
    (hi : InBucket hash t.buckets.size t.records b i)
    (hj : InBucket hash t.buckets.size t.records b j) (hnext : nextOf t.records j = some (i + 1))
    (hn : nextOf t.records i = some n) :
    Chained hash (relink t.records j n) t.buckets (· ≠ i) := by
  obtain ⟨keyj, hkeyj, -⟩ := id hj
  have hre : Relinked t { t with records := relink t.records j n } :=
    Relinked.of_relink hkeyj rfl rfl rfl
  intro c hc
  by_cases hcb : c = b
  · subst hcb
    have hlist := (ht.chained c hb).bypass hj hnext hn
      (nextOf_relink_self n (lt_size_of_keyOf hkeyj)) fun k hk => nextOf_relink_ne n hk
    refine hlist.congr ?_ fun _ _ => rfl
    intro k
    rw [and_comm]
    exact and_congr_left' hre.inBucket_iff
  · refine (ht.chained c hc).congr ?_ ?_
    · intro k
      constructor
      · rintro ⟨-, hk⟩
        exact hre.inBucket_iff.mp hk
      · intro hk
        exact ⟨fun hki => hcb (InBucket.unique (hki ▸ hk) hi), hre.inBucket_iff.mpr hk⟩
    · intro k hk
      exact nextOf_relink_ne n fun hkj => hcb (InBucket.unique (hkj ▸ hk) hj)

/-- Moving the head of a bucket past its first record takes that one out. -/
theorem chained_behead (ht : WellFormed hash t) {b : ℕ} (hb : b < t.buckets.size)
    (hi : InBucket hash t.buckets.size t.records b i) (hfirst : head t.buckets b = i + 1)
    (hn : nextOf t.records i = some n) :
    Chained hash t.records (t.buckets.setIfInBounds b n) (· ≠ i) := by
  intro c hc
  rw [Array.size_setIfInBounds] at hc ⊢
  rw [head_setIfInBounds hb]
  by_cases hcb : c = b
  · subst hcb
    have hlist := ht.chained c hb
    rw [hfirst] at hlist
    obtain ⟨-, m, hm, htail⟩ := hlist.tail
    obtain rfl : n = m := by
      rw [hn, Option.some.injEq] at hm
      exact hm
    rw [if_pos rfl]
    exact htail.congr (fun k => and_comm) fun _ _ => rfl
  · rw [if_neg hcb]
    refine (ht.chained c hc).congr ?_ fun _ _ => rfl
    intro k
    constructor
    · exact fun h => h.2
    · intro hk
      exact ⟨fun hki => hcb (InBucket.unique (hki ▸ hk) hi), hk⟩

/-- Unlinking takes a record out of the chain of its bucket and keeps all others. -/
theorem unlink_spec (ht : WellFormed hash t) (hkey : keyOf t.records i = some key)
    (hn : nextOf t.records i = some n) :
    Relinked t (t.unlink (bucketOf hash t.buckets.size key) i n) ∧
      (t.unlink (bucketOf hash t.buckets.size key) i n).buckets.size = t.buckets.size ∧
      Chained hash (t.unlink (bucketOf hash t.buckets.size key) i n).records
        (t.unlink (bucketOf hash t.buckets.size key) i n).buckets (· ≠ i) := by
  have hfour := ht.atLeastFour
  have hlt : bucketOf hash t.buckets.size key < t.buckets.size := Nat.mod_lt _ (by omega)
  obtain ⟨-, -, hmem⟩ := (ht.chained _ hlt).chain
  have hmine : InBucket hash t.buckets.size t.records (bucketOf hash t.buckets.size key) i :=
    ⟨key, hkey, rfl⟩
  rw [unlink]
  split
  next j hfind =>
    have hj := (hmem j).mp (List.mem_of_find?_eq_some hfind)
    have hfound := List.find?_some hfind
    have hnext : nextOf t.records j = some (i + 1) := beq_iff_eq.mp hfound
    obtain ⟨keyj, hkeyj, -⟩ := id hj
    refine ⟨Relinked.of_relink hkeyj rfl rfl rfl, rfl, ?_⟩
    exact chained_bypass ht hlt hmine hj hnext hn
  next hfind =>
    have hnone : ∀ j, InBucket hash t.buckets.size t.records (bucketOf hash t.buckets.size key) j →
        nextOf t.records j ≠ some (i + 1) := by
      intro j hj hnext
      have hno := List.find?_eq_none.mp hfind j ((hmem j).mpr hj)
      exact hno (beq_iff_eq.mpr hnext)
    have hfirst := (ht.chained _ hlt).eq_of_no_next hmine hnone
    refine ⟨⟨fun _ => rfl, fun _ _ => rfl, rfl, rfl⟩, Array.size_setIfInBounds, ?_⟩
    exact chained_behead ht hlt hmine hfirst hn

/-- A live record that loses its key and links to the free list is its new front. -/
theorem Lists.bury (hfreed : Lists rs link (Deleted rs)) (hkey : keyOf rs i = some key)
    (hre : Replaced rs rs' i r) (hr : r.key = none) (hnext : r.next = link) :
    Lists rs' (i + 1) (Deleted rs') := by
  have hdead : Deleted rs' i := by
    refine ⟨?_, hre.updated.keyOf_self.trans hr⟩
    rw [lt_size_iff_entryOf, hre.updated, if_pos rfl]
    rfl
  have halive : ∀ j, Deleted rs j → j ≠ i := by
    rintro j ⟨-, hj⟩ rfl
    rw [hkey] at hj
    cases hj
  refine hfreed.cons (fun h => halive i h rfl) ?_ (fun j hj => hre.nextOf_ne (halive j hj)) ?_
  · rw [hre.nextOf_self, hnext]
  · intro j
    by_cases hji : j = i
    · subst hji
      exact ⟨fun _ => Or.inl rfl, fun _ => hdead⟩
    · rw [hre.updated.deleted_iff hji]
      exact ⟨Or.inr, fun h => h.resolve_left hji⟩

/-- Erasing a key unlinks its record, which it then empties and puts on the free list. -/
theorem erase_eq (ht : WellFormed hash t) (hkey : keyOf t.records i = some key) :
    ∃ u, Relinked t u ∧ u.buckets.size = t.buckets.size ∧
      Chained hash u.records u.buckets (· ≠ i) ∧
      t.erase hash key = (true, { u with
        live := u.live - 1
        records := u.records.modify i fun r =>
          { r with key := none, slot := .data .undefined, next := u.free }
        free := i + 1 }) := by
  have hfind : t.find? hash key = some i := (find?_eq_some_iff ht).mpr hkey
  have hlt := lt_size_of_keyOf hkey
  have hn : nextOf t.records i = some t.records[i].next := by
    rw [nextOf, Array.getElem?_eq_getElem hlt]
    rfl
  obtain ⟨hlink, hsize, hch⟩ := unlink_spec ht hkey hn
  have hgetD : ((t.records[i]?).map (·.next)).getD 0 = t.records[i].next := by
    change (nextOf t.records i).getD 0 = _
    rw [hn, Option.getD_some]
  refine ⟨_, hlink, hsize, hch, ?_⟩
  rw [erase, hfind]
  simp only [hgetD]

theorem erase_spec (ht : WellFormed hash t) (hkey : keyOf t.records i = some key) :
    (t.erase hash key).1 = true ∧ WellFormed hash (t.erase hash key).2 ∧
      (t.erase hash key).2.live = t.live - 1 ∧
      ∃ e, e.1 = none ∧ Updated t.records (t.erase hash key).2.records i e := by
  obtain ⟨u, hlink, hsize, hch, heq⟩ := erase_eq ht hkey
  rw [heq]
  have hkeyu : keyOf u.records i = some key := (hlink.keyOf_eq i).trans hkey
  have hltu := lt_size_of_keyOf hkeyu
  have hre := Replaced.modify (Array.getElem?_eq_getElem hltu) fun r =>
    { r with key := none, slot := .data .undefined, next := u.free }
  generalize (u.records.modify i fun r =>
      { r with key := none, slot := .data .undefined, next := u.free }) = rs at hre
  have hfreed := ht.freed.congr hlink.deleted_iff fun j hj => hlink.idle j hj.2
  rw [← hlink.free] at hfreed
  have hload := ht.load
  have hlive := hlink.live
  refine ⟨rfl, ⟨?_, ?_, ?_, ?_, ?_, ?_, ?_⟩, ?_,
    (none, .data .undefined, u.records[i].flags), rfl, ?_⟩
  · rw [hsize]
    exact ht.powerOfTwo
  · rw [hsize]
    exact ht.atLeastFour
  · exact (hre.chained hch).complete hre.updated.keyOf_self
  · exact hfreed.bury hkeyu hre rfl rfl
  · apply hre.updated.distinct
    · intro j k key' hj hk
      rw [hlink.keyOf_eq] at hj hk
      exact ht.distinct j k key' hj hk
    · rintro j key' - he
      cases he
  · show u.live - 1 = (liveRecords rs).card
    rw [hre.updated.card_erase rfl hkeyu, hlink.liveRecords_eq, hlink.live, ht.live]
  · show (u.live - 1) * 4 ≤ 3 * u.buckets.size
    omega
  · show u.live - 1 = t.live - 1
    rw [hlive]
  · intro j
    rw [← hlink.entries]
    exact hre.updated j

end Erase

end ValueEngine.Property.Table
