import Mathlib.Data.List.Perm.Subperm
import ValueEngine.Property.Table

/-! Intrusive lists over the records of a property table. A link leads to a list of
records when following the `next` fields meets exactly them and then ends. The chains
of the buckets and the free list are such lists through the same field; a change
of one of them is harmless to the others as long as it only writes records
that are not on them. -/

namespace ValueEngine.Property.Table

def nextOf (rs : Array Record) (i : ℕ) : Option ℕ := (rs[i]?).map (·.next)

/-- From a link on, exactly the records `is` are met, in this order. -/
def Leads (rs : Array Record) : ℕ → List ℕ → Prop
  | link, [] => link = 0
  | link, i :: is => link = i + 1 ∧ ∃ n, nextOf rs i = some n ∧ Leads rs n is

/-- The list from a link on ends, meets no record twice, and holds exactly the records in `P`. -/
def Lists (rs : Array Record) (link : ℕ) (P : ℕ → Prop) : Prop :=
  ∃ is : List ℕ, Leads rs link is ∧ is.Nodup ∧ ∀ i, i ∈ is ↔ P i

variable {rs rs' : Array Record} {link i j n : ℕ} {is : List ℕ} {P Q : ℕ → Prop}

theorem lt_size_of_nextOf (h : nextOf rs i = some n) : i < rs.size := by
  rw [nextOf, Option.map_eq_some_iff] at h
  obtain ⟨r, hr, -⟩ := h
  exact (Array.getElem?_eq_some_iff.mp hr).1

namespace Leads

theorem lt_size (h : Leads rs link is) (hi : i ∈ is) : i < rs.size := by
  induction is generalizing link with
  | nil => cases hi
  | cons a is ih =>
    obtain ⟨-, n, hn, hrest⟩ := h
    obtain rfl | hi := List.mem_cons.mp hi
    · exact lt_size_of_nextOf hn
    · exact ih hrest hi

/-- A list only depends on the links of its own records. -/
theorem congr (h : Leads rs link is) (hsame : ∀ i ∈ is, nextOf rs' i = nextOf rs i) :
    Leads rs' link is := by
  induction is generalizing link with
  | nil => exact h
  | cons a is ih =>
    obtain ⟨hlink, n, hn, hrest⟩ := h
    refine ⟨hlink, n, ?_, ?_⟩
    · rw [hsame a List.mem_cons_self, hn]
    · exact ih hrest fun i hi => hsame i (List.mem_cons_of_mem a hi)

/-- Records without repetition are at most as many as there are records. -/
theorem length_le (h : Leads rs link is) (hnodup : is.Nodup) : is.length ≤ rs.size := by
  have hsub : is ⊆ List.range rs.size := by
    intro i hi
    exact List.mem_range.mpr (h.lt_size hi)
  have hle := (List.subperm_of_subset hnodup hsub).length_le
  rwa [List.length_range] at hle

/-- A bounded walk with enough steps meets the whole list. -/
theorem follow_eq (h : Leads rs link is) {steps : ℕ} (hsteps : is.length ≤ steps) :
    follow rs steps link = is := by
  induction is generalizing link steps with
  | nil =>
    obtain rfl : link = 0 := h
    cases steps <;> rfl
  | cons a is ih =>
    obtain ⟨rfl, n, hn, hrest⟩ := h
    cases steps with
    | zero => simp at hsteps
    | succ steps =>
      rw [follow]
      change (a :: follow rs steps ((nextOf rs a).getD 0)) = a :: is
      rw [hn, Option.getD_some, ih hrest (by simpa using hsteps)]

theorem chain_eq {t : Table} (h : Leads t.records link is) (hnodup : is.Nodup) :
    t.chain link = is :=
  h.follow_eq (h.length_le hnodup)

/-- Whatever links to a record stands right before it. -/
theorem split_of_next (h : Leads rs link is) (hj : j ∈ is) (hnext : nextOf rs j = some (i + 1)) :
    ∃ before after, is = before ++ j :: i :: after := by
  induction is generalizing link with
  | nil => cases hj
  | cons a is ih =>
    obtain ⟨-, n, hn, hrest⟩ := h
    by_cases hja : j = a
    · subst hja
      obtain rfl : n = i + 1 := by
        rw [hn, Option.some.injEq] at hnext
        exact hnext
      cases is with
      | nil => exact absurd hrest (Nat.succ_ne_zero i)
      | cons c is =>
        obtain ⟨hc, -⟩ := hrest
        obtain rfl : i = c := Nat.succ.inj hc
        exact ⟨[], is, rfl⟩
    · have hj' : j ∈ is := (List.mem_cons.mp hj).resolve_left hja
      obtain ⟨before, after, rfl⟩ := ih hrest hj'
      exact ⟨a :: before, after, rfl⟩

/-- Every record but the first has a record that links to it. -/
theorem exists_next {a : ℕ} (h : Leads rs link (a :: is)) (hi : i ∈ is) :
    ∃ j ∈ a :: is, nextOf rs j = some (i + 1) := by
  induction is generalizing link a with
  | nil => cases hi
  | cons c is ih =>
    obtain ⟨-, n, hn, hrest⟩ := h
    by_cases hic : i = c
    · obtain ⟨rfl, -⟩ := hrest
      exact ⟨a, List.mem_cons_self, by rw [hn, hic]⟩
    · have hi' : i ∈ is := (List.mem_cons.mp hi).resolve_left hic
      obtain ⟨j, hj, hnext⟩ := ih hrest hi'
      exact ⟨j, List.mem_cons_of_mem a hj, hnext⟩

/-- Making the record before `i` link past it takes `i` out of the list. -/
theorem bypass {before after : List ℕ} (h : Leads rs link (before ++ j :: i :: after))
    (hnodup : (before ++ j :: i :: after).Nodup) (hi : nextOf rs i = some n)
    (hj : nextOf rs' j = some n) (hsame : ∀ k, k ≠ j → nextOf rs' k = nextOf rs k) :
    Leads rs' link (before ++ j :: after) := by
  induction before generalizing link with
  | nil =>
    obtain ⟨hlink, -, -, -, m, hm, hrest⟩ := h
    obtain rfl : n = m := by
      rw [hi, Option.some.injEq] at hm
      exact hm
    refine ⟨hlink, n, hj, hrest.congr ?_⟩
    intro k hk
    apply hsame
    rintro rfl
    exact (List.nodup_cons.mp hnodup).1 (List.mem_cons_of_mem i hk)
  | cons a before ih =>
    obtain ⟨hlink, m, hm, hrest⟩ := h
    obtain ⟨ha, hnodup'⟩ := List.nodup_cons.mp hnodup
    refine ⟨hlink, m, ?_, ih hrest hnodup'⟩
    rw [hsame a ?_, hm]
    rintro rfl
    exact ha (by simp)

end Leads

namespace Lists

theorem empty (h : ∀ i, ¬ P i) : Lists rs 0 P := by
  refine ⟨[], rfl, List.nodup_nil, ?_⟩
  intro i
  simpa using h i

theorem congr (h : Lists rs link P) (hP : ∀ i, Q i ↔ P i)
    (hsame : ∀ i, P i → nextOf rs' i = nextOf rs i) : Lists rs' link Q := by
  obtain ⟨is, hleads, hnodup, hmem⟩ := h
  refine ⟨is, hleads.congr fun i hi => hsame i ((hmem i).mp hi), hnodup, ?_⟩
  intro i
  rw [hmem, hP]

theorem cons (h : Lists rs link P) (hi : ¬ P i) (hnext : nextOf rs' i = some link)
    (hsame : ∀ j, P j → nextOf rs' j = nextOf rs j) (hQ : ∀ j, Q j ↔ j = i ∨ P j) :
    Lists rs' (i + 1) Q := by
  obtain ⟨is, hleads, hnodup, hmem⟩ := h
  have hleads' : Leads rs' link is := hleads.congr fun j hj => hsame j ((hmem j).mp hj)
  refine ⟨i :: is, ⟨rfl, link, hnext, hleads'⟩, ?_, ?_⟩
  · exact List.nodup_cons.mpr ⟨fun h => hi ((hmem i).mp h), hnodup⟩
  · intro j
    rw [List.mem_cons, hmem, hQ]

theorem tail (h : Lists rs (i + 1) P) :
    P i ∧ ∃ n, nextOf rs i = some n ∧ Lists rs n (fun j => P j ∧ j ≠ i) := by
  obtain ⟨is, hleads, hnodup, hmem⟩ := h
  cases is with
  | nil => exact absurd hleads (Nat.succ_ne_zero i)
  | cons a is =>
    obtain ⟨hlink, n, hn, hrest⟩ := hleads
    obtain rfl : i = a := Nat.succ.inj hlink
    obtain ⟨hi, hnodup'⟩ := List.nodup_cons.mp hnodup
    refine ⟨(hmem i).mp List.mem_cons_self, n, hn, is, hrest, hnodup', ?_⟩
    intro j
    show j ∈ is ↔ P j ∧ j ≠ i
    rw [← hmem, List.mem_cons]
    constructor
    · intro hj
      exact ⟨Or.inr hj, fun hji => hi (hji ▸ hj)⟩
    · rintro ⟨hj, hne⟩
      exact hj.resolve_left hne

/-- Take a record out from behind the one that links to it. -/
theorem bypass (h : Lists rs link P) (hj : P j) (hnext : nextOf rs j = some (i + 1))
    (hi : nextOf rs i = some n) (hj' : nextOf rs' j = some n)
    (hsame : ∀ k, k ≠ j → nextOf rs' k = nextOf rs k) :
    Lists rs' link (fun k => P k ∧ k ≠ i) := by
  obtain ⟨is, hleads, hnodup, hmem⟩ := h
  obtain ⟨before, after, rfl⟩ := hleads.split_of_next ((hmem j).mpr hj) hnext
  have hperm : (before ++ j :: i :: after).Perm (i :: (before ++ j :: after)) := by
    have hfront : (before ++ [j] ++ i :: after).Perm (i :: (before ++ [j] ++ after)) :=
      List.perm_middle
    simpa using hfront
  obtain ⟨hinot, hnodup'⟩ := List.nodup_cons.mp (hperm.nodup_iff.mp hnodup)
  refine ⟨before ++ j :: after, hleads.bypass hnodup hi hj' hsame, hnodup', ?_⟩
  intro k
  show k ∈ before ++ j :: after ↔ P k ∧ k ≠ i
  rw [← hmem, hperm.mem_iff, List.mem_cons]
  constructor
  · intro hk
    exact ⟨Or.inr hk, fun hki => hinot (hki ▸ hk)⟩
  · rintro ⟨hk, hne⟩
    exact hk.resolve_left hne

/-- A record that nothing links to is the first. -/
theorem eq_of_no_next (h : Lists rs link P) (hi : P i)
    (hnone : ∀ j, P j → nextOf rs j ≠ some (i + 1)) : link = i + 1 := by
  obtain ⟨is, hleads, -, hmem⟩ := h
  cases is with
  | nil => exact absurd ((hmem i).mpr hi) List.not_mem_nil
  | cons a is =>
    by_cases hia : i = a
    · rw [hleads.1, hia]
    · have hi' := (List.mem_cons.mp ((hmem i).mpr hi)).resolve_left hia
      obtain ⟨j, hj, hnext⟩ := hleads.exists_next hi'
      exact absurd hnext (hnone j ((hmem j).mp hj))

/-- The walk of the table meets the list. -/
theorem chain {t : Table} (h : Lists t.records link P) :
    Leads t.records link (t.chain link) ∧ (t.chain link).Nodup ∧ ∀ i, i ∈ t.chain link ↔ P i := by
  obtain ⟨is, hleads, hnodup, hmem⟩ := h
  rw [hleads.chain_eq hnodup]
  exact ⟨hleads, hnodup, hmem⟩

end Lists

end ValueEngine.Property.Table
