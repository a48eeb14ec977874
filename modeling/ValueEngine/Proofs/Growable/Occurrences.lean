import Mathlib.Order.Lattice.Nat
import ValueEngine.Growable.Element
import ValueEngine.Growable.Search
import ValueEngine.Proofs.Growable.Refinement
import ValueEngine.Proofs.Number.Rank

/-! Searching growable arrays. The search for the first occurrence answers the least position of
the element at or after its start, the search for the last one the greatest position at or
before its bound, and the question for any asks whether there is a position at or after a
start that never counts from the end. Sameness of elements need not be reflexive. The searches
go over slices of the live elements that fail outside of them: past the end for a slice from a
position on, at the end already for one up to a position, and for any where the storage is too
small. A position is therefore held within the elements before a slice is taken, and the law
says that no start whatever makes a search fail. -/

namespace ValueEngine

namespace Plain

/-- The index from which a search goes up, 0 if none is given. -/
def first (start : Option Float) (n : ℕ) : ℕ :=
  match start with
  | some x => index x n
  | none => 0

/-- The index from which a search goes down, that of the last element if none or one behind it is
given. It is negative if it lies before the first element. -/
def last (start : Option Float) (n : ℕ) : ℤ :=
  match start with
  | some x =>
    let i := Number.integerPart x
    if i < 0 then n + i else min i (n - 1)
  | none => n - 1

/-- A double, or zero in place of a negative one or NaN. -/
def nonnegative (x : Float) : Float := if Number.atLeastZero x then x else Number.ofNat 0

theorem first_le (start : Option Float) (n : ℕ) : first start n ≤ n := by
  cases start with
  | none => exact Nat.zero_le n
  | some x => exact Growable.position_le x n

theorem last_lt (start : Option Float) (n : ℕ) : last start n < n := by
  cases start with
  | none => simp [last]
  | some x =>
    simp only [last]
    split_ifs <;> omega

theorem integerPart_nonnegative (x : Float) :
    Number.integerPart (nonnegative x) = max (Number.integerPart x) 0 := by
  simp only [← Number.truncate_eq_integerPart, nonnegative]
  split_ifs with h
  · exact (max_eq_left (Number.truncate_nonneg h)).symm
  · have hzero : Number.truncate (Number.ofNat 0) = 0 := by decide
    rw [hzero, max_eq_right (Number.truncate_nonpos (Bool.eq_false_iff.mpr h))]

/-- A start that is not negative does not count from the end. -/
theorem first_nonnegative (start : Option Float) (n : ℕ) :
    first (start.map nonnegative) n = min (Growable.origin start).toNat n := by
  cases start with
  | none => simp [first, Growable.origin]
  | some x =>
    simp only [first, index, held, Growable.origin, Option.map_some, integerPart_nonnegative,
      Number.truncate_eq_integerPart]
    split_ifs <;> omega

end Plain

namespace Growable

/-! ### Positions in a list -/

section Lists

variable {α : Type} {p : α → Bool} {xs : List α} {i k last : ℕ}

/-- The positions of a list at which there is an element that passes the test. -/
def positions (p : α → Bool) (xs : List α) : Set ℕ := {i | ∃ y, xs[i]? = Option.some y ∧ p y = true}

theorem positions_drop : i ∈ positions p (xs.drop k) ↔ k + i ∈ positions p xs := by
  simp [positions]

theorem any_drop_eq_true : (xs.drop k).any p = true ↔ ∃ i ∈ positions p xs, k ≤ i := by
  simp only [List.any_eq_true, List.mem_iff_getElem?]
  constructor
  · rintro ⟨y, ⟨j, hj⟩, hp⟩
    exact ⟨k + j, positions_drop.mp ⟨y, hj, hp⟩, Nat.le_add_right k j⟩
  · rintro ⟨i, hi, hk⟩
    obtain ⟨j, rfl⟩ := Nat.exists_eq_add_of_le hk
    obtain ⟨y, hy, hp⟩ := positions_drop.mpr hi
    exact ⟨y, ⟨j, hy⟩, hp⟩

/-- The positions up to a bound, counted down from it. -/
theorem positions_reverse (hlast : last < xs.length) :
    i ∈ positions p (xs.take (last + 1)).reverse ↔ i ≤ last ∧ last - i ∈ positions p xs := by
  have hlength : (xs.take (last + 1)).length = last + 1 := by
    rw [List.length_take]
    omega
  by_cases hi : i ≤ last
  · have hindex : last + 1 - 1 - i = last - i := by omega
    simp only [positions, Set.mem_ofPred_eq, hi, true_and]
    rw [List.getElem?_reverse (by omega), hlength, hindex, List.getElem?_take_of_lt (by omega)]
  · simp only [positions, Set.mem_ofPred_eq, hi, false_and, iff_false]
    rw [List.getElem?_eq_none (by rw [List.length_reverse]; omega)]
    simp

theorem findIdx?_eq_some_iff_isLeast :
    xs.findIdx? p = Option.some i ↔ IsLeast (positions p xs) i := by
  rw [List.findIdx?_eq_some_iff_getElem]
  constructor
  · rintro ⟨hi, hp, hbefore⟩
    refine ⟨⟨xs[i], List.getElem?_eq_getElem hi, hp⟩, ?_⟩
    rintro j ⟨y, hy, hpy⟩
    obtain ⟨hj, rfl⟩ := List.getElem?_eq_some_iff.mp hy
    by_contra hji
    exact hbefore j (Nat.not_le.mp hji) hpy
  · rintro ⟨⟨y, hy, hp⟩, hleast⟩
    obtain ⟨hi, rfl⟩ := List.getElem?_eq_some_iff.mp hy
    refine ⟨hi, hp, fun j hji hpj => ?_⟩
    have hj : j ∈ positions p xs := ⟨xs[j], List.getElem?_eq_getElem (hji.trans hi), hpj⟩
    exact Nat.not_le.mpr hji (hleast hj)

/-- A search for the least one finds something exactly if there is something. -/
theorem isSome_iff_of_isLeast {found : Option ℕ} {s : Set ℕ}
    (h : ∀ i, found = Option.some i ↔ IsLeast s i) : found.isSome = true ↔ s.Nonempty := by
  rw [Option.isSome_iff_exists]
  constructor
  · rintro ⟨i, hi⟩
    exact ((h i).mp hi).nonempty
  · intro hs
    exact ⟨sInf s, (h _).mpr ⟨Nat.sInf_mem hs, fun _ => Nat.sInf_le⟩⟩

theorem isSome_iff_of_isGreatest {found : Option ℕ} {s : Set ℕ} (hs : BddAbove s)
    (h : ∀ i, found = Option.some i ↔ IsGreatest s i) : found.isSome = true ↔ s.Nonempty := by
  rw [Option.isSome_iff_exists]
  constructor
  · rintro ⟨i, hi⟩
    exact ((h i).mp hi).nonempty
  · intro hnonempty
    exact ⟨sSup s, (h _).mpr ⟨Nat.sSup_mem hnonempty hs, fun _ => le_csSup hs⟩⟩

end Lists

/-! ### Slices within their bounds -/

section Slices

variable {α : Type} {g : Growable α} {start last : ℕ}

theorem live?_eq (h : g.Fits) : g.live? = Option.some g.toList := if_pos h

theorem sliceFrom?_eq (h : g.Fits) (hstart : start ≤ g.length) :
    sliceFrom? g.toList start = Option.some (g.toList.drop start) :=
  if_pos (hstart.trans_eq (length_toList h).symm)

theorem sliceUpTo?_eq (h : g.Fits) (hlast : last < g.length) :
    sliceUpTo? g.toList last = Option.some (g.toList.take (last + 1)) :=
  if_pos (hlast.trans_eq (length_toList h).symm)

theorem last?_eq {n : ℕ} (hn : n ≠ 0) : last? n = Option.some (n - 1) := if_neg hn

end Slices

variable {α : Type} [Cell α] {g : Growable α} {x : α} {i start last : ℕ}

/-- The positions of the live elements that are the same as the one sought. -/
def occurrences (g : Growable α) (x : α) : Set ℕ :=
  {i | ∃ y, g.get? i = Option.some y ∧ Cell.same y x = true}

theorem positions_toList (g : Growable α) (x : α) :
    positions (Cell.same · x) g.toList = g.occurrences x := by
  simp only [positions, occurrences, get?_eq_getElem?_toList]

theorem lt_of_mem_occurrences (hi : i ∈ g.occurrences x) : i < g.length := by
  obtain ⟨y, hy, -⟩ := hi
  by_contra hge
  simp [get?, hge] at hy

/-- The occurrences at or after the start of a search. -/
def occurrencesFrom (g : Growable α) (x : α) (start : Option Float) : Set ℕ :=
  {i ∈ g.occurrences x | Plain.first start g.length ≤ i}

/-- The occurrences at or before the start of a search that goes down. -/
def occurrencesUpTo (g : Growable α) (x : α) (start : Option Float) : Set ℕ :=
  {i ∈ g.occurrences x | (i : ℤ) ≤ Plain.last start g.length}

/-- The search reads within its bounds, and answers the position that is described if there is
one. -/
def Answers (search : Option (Option ℕ)) (described : ℕ → Prop) : Prop :=
  ∃ found, search = Option.some found ∧ ∀ i, found = Option.some i ↔ described i

theorem Answers.join {search : Option (Option ℕ)} {described : ℕ → Prop}
    (h : Answers search described) :
    search = Option.some search.join ∧ ∀ i, search.join = Option.some i ↔ described i := by
  obtain ⟨found, rfl, hfound⟩ := h
  exact ⟨rfl, hfound⟩

theorem firstFrom?_answers (h : g.Fits) (hstart : start ≤ g.length) :
    Answers (g.firstFrom? x start) (IsLeast {j ∈ g.occurrences x | start ≤ j}) := by
  have hsearch : g.firstFrom? x start =
      Option.some (((g.toList.drop start).findIdx? (Cell.same · x)).map (· + start)) := by
    rw [firstFrom?, live?_eq h, Option.bind_eq_bind, Option.bind_some, sliceFrom?_eq h hstart]
    rfl
  refine ⟨_, hsearch, ?_⟩
  intro i
  rw [← positions_toList]
  simp only [Option.map_eq_some_iff, findIdx?_eq_some_iff_isLeast]
  constructor
  · rintro ⟨k, ⟨hk, hleast⟩, rfl⟩
    rw [positions_drop, Nat.add_comm] at hk
    refine ⟨⟨hk, Nat.le_add_left _ _⟩, ?_⟩
    rintro j ⟨hj, hstart⟩
    obtain ⟨m, rfl⟩ := Nat.exists_eq_add_of_le hstart
    have hkm := hleast (positions_drop.mpr hj)
    omega
  · rintro ⟨⟨hi, hstart⟩, hleast⟩
    obtain ⟨k, rfl⟩ := Nat.exists_eq_add_of_le hstart
    refine ⟨k, ⟨positions_drop.mpr hi, ?_⟩, Nat.add_comm _ _⟩
    intro m hm
    have hkm := hleast ⟨positions_drop.mp hm, Nat.le_add_right _ _⟩
    omega

theorem lastUpTo?_answers (h : g.Fits) (hlast : last < g.length) :
    Answers (g.lastUpTo? x last) (IsGreatest {j ∈ g.occurrences x | j ≤ last}) := by
  have hlength : last < g.toList.length := hlast.trans_eq (length_toList h).symm
  have hsearch : g.lastUpTo? x last =
      Option.some (((g.toList.take (last + 1)).reverse.findIdx? (Cell.same · x)).map (last - ·)) := by
    rw [lastUpTo?, live?_eq h, Option.bind_eq_bind, Option.bind_some, sliceUpTo?_eq h hlast]
    rfl
  refine ⟨_, hsearch, ?_⟩
  intro i
  rw [← positions_toList]
  simp only [Option.map_eq_some_iff, findIdx?_eq_some_iff_isLeast]
  constructor
  · rintro ⟨k, ⟨hk, hleast⟩, rfl⟩
    obtain ⟨hk, hsame⟩ := (positions_reverse hlength).mp hk
    refine ⟨⟨hsame, Nat.sub_le _ _⟩, ?_⟩
    rintro j ⟨hj, hjlast⟩
    have hkj := hleast ((positions_reverse hlength).mpr
      ⟨Nat.sub_le last j, by rwa [Nat.sub_sub_self hjlast]⟩)
    omega
  · rintro ⟨⟨hi, hilast⟩, hgreatest⟩
    refine ⟨last - i, ⟨(positions_reverse hlength).mpr
      ⟨Nat.sub_le _ _, by rwa [Nat.sub_sub_self hilast]⟩, ?_⟩, Nat.sub_sub_self hilast⟩
    intro m hm
    obtain ⟨hm, hsame⟩ := (positions_reverse hlength).mp hm
    have hmi := hgreatest ⟨hsame, Nat.sub_le last m⟩
    omega

theorem first_eq (start : Option Float) (n : ℕ) : Plain.first start n =
    if origin start < 0 then (n + origin start).toNat else min (origin start).toNat n := by
  cases start with
  | none => simp [Plain.first, origin]
  | some y => exact (position_eq y n).symm

theorem indexOf?_answers (h : g.Fits) (x : α) (start : Option Float) :
    Answers (g.indexOf? x start) (IsLeast (g.occurrencesFrom x start)) := by
  have hfirst := first_eq start g.length
  have hle := Plain.first_le start g.length
  by_cases hend : g.length ≤ origin start
  · -- Behind the end nothing is read, and nothing is live.
    refine ⟨none, by rw [indexOf?, if_pos hend], fun i => ⟨nofun, fun hi => ?_⟩⟩
    obtain ⟨hoccurs, hfrom⟩ := hi.1
    have hlt := lt_of_mem_occurrences hoccurs
    rw [hfirst, if_neg (by omega), min_eq_right (by omega)] at hfrom
    omega
  · rw [indexOf?, if_neg hend, ← hfirst]
    exact firstFrom?_answers h hle

theorem occurrencesUpTo_eq_empty {start : Option Float} (hstart : Plain.last start g.length < 0) :
    g.occurrencesUpTo x start = ∅ := by
  rw [Set.eq_empty_iff_forall_notMem]
  rintro i ⟨-, hi⟩
  omega

theorem occurrencesUpTo_eq {start : Option Float} (hstart : ¬Plain.last start g.length < 0) :
    g.occurrencesUpTo x start =
      {i ∈ g.occurrences x | i ≤ (Plain.last start g.length).toNat} := by
  ext i
  exact and_congr_right fun _ => by omega

/-- A search down is a search up to its start, unless that lies before the first element. -/
theorem lastIndexOf?_eq (g : Growable α) (x : α) (start : Option Float) :
    g.lastIndexOf? x start = if Plain.last start g.length < 0 then Option.some none
      else g.lastUpTo? x (Plain.last start g.length).toNat := by
  rcases eq_or_ne g.length 0 with hempty | hne
  · have hlast := Plain.last_lt start g.length
    rw [lastIndexOf?, if_pos hempty, if_pos (by omega)]
  · rw [lastIndexOf?, if_neg hne, last?_eq hne]
    cases start with
    | none =>
      have hlast : ¬(g.length - 1 : ℤ) < 0 := by omega
      simp only [Plain.last, Option.map_none, hlast, if_false, Option.bind_eq_bind, Option.bind_some]
      congr 1
      omega
    | some y =>
      simp only [Plain.last, Option.map_some, Number.truncate_eq_integerPart, Option.bind_eq_bind,
        Option.bind_some]
      split_ifs
      all_goals first | rfl | omega | (congr 1; omega)

theorem lastIndexOf?_answers (h : g.Fits) (x : α) (start : Option Float) :
    Answers (g.lastIndexOf? x start) (IsGreatest (g.occurrencesUpTo x start)) := by
  have hlast := Plain.last_lt start g.length
  rw [lastIndexOf?_eq]
  split_ifs with hstart
  · refine ⟨none, rfl, fun i => ⟨nofun, fun hi => ?_⟩⟩
    rw [occurrencesUpTo_eq_empty hstart] at hi
    exact absurd hi.1 (Set.notMem_empty i)
  · rw [occurrencesUpTo_eq hstart]
    exact lastUpTo?_answers h (by omega)

theorem indexOf_eq_some_iff (h : g.Fits) {start : Option Float} :
    g.indexOf x start = Option.some i ↔ IsLeast (g.occurrencesFrom x start) i :=
  (indexOf?_answers h x start).join.2 i

theorem indexOf_isSome_iff (h : g.Fits) {start : Option Float} :
    (g.indexOf x start).isSome = true ↔ (g.occurrencesFrom x start).Nonempty :=
  isSome_iff_of_isLeast fun _ => indexOf_eq_some_iff h

theorem lastIndexOf_eq_some_iff (h : g.Fits) {start : Option Float} :
    g.lastIndexOf x start = Option.some i ↔ IsGreatest (g.occurrencesUpTo x start) i :=
  (lastIndexOf?_answers h x start).join.2 i

theorem lastIndexOf_isSome_iff (h : g.Fits) {start : Option Float} :
    (g.lastIndexOf x start).isSome = true ↔ (g.occurrencesUpTo x start).Nonempty :=
  isSome_iff_of_isGreatest ⟨g.length, fun _ hi => (lt_of_mem_occurrences hi.1).le⟩
    fun _ => lastIndexOf_eq_some_iff h

/-- The question for any element reads within its bounds, and does not count from the end. -/
theorem includes?_eq (h : g.Fits) (x : α) (start : Option Float) : g.includes? x start =
    Option.some (g.indexOf x (start.map Plain.nonnegative)).isSome := by
  have hfirst := Plain.first_nonnegative start g.length
  have hany : (g.indexOf x (start.map Plain.nonnegative)).isSome = true ↔
      ∃ i ∈ g.occurrences x, (origin start).toNat ≤ i := by
    rw [indexOf_isSome_iff h]
    refine exists_congr fun i => and_congr_right fun hi => ?_
    have hlt := lt_of_mem_occurrences hi
    omega
  rw [includes?]
  split_ifs with hend
  · rw [Option.some_inj, eq_comm, ← Bool.not_eq_true, hany]
    rintro ⟨i, hi, hstart⟩
    have hlt := lt_of_mem_occurrences hi
    omega
  · rw [live?_eq h, Option.bind_eq_bind, Option.bind_some, sliceFrom?_eq h (by omega)]
    refine congrArg Option.some (Bool.eq_iff_iff.mpr ?_)
    rw [hany, any_drop_eq_true, positions_toList]

theorem occurrencesFrom_none : g.occurrencesFrom x none = g.occurrences x := by
  simp [occurrencesFrom, Plain.first]

theorem occurrencesUpTo_none : g.occurrencesUpTo x none = g.occurrences x := by
  ext i
  refine ⟨And.left, fun hi => ⟨hi, ?_⟩⟩
  have hlt := lt_of_mem_occurrences hi
  simp only [Plain.last]
  omega

/-- The searches read within their bounds whatever they are asked. They answer the least and the
greatest occurrence on their side of the start, and agree with each other on whether there is
one. -/
theorem searches_agree (h : g.Fits) (x : α) (start : Option Float) :
    g.indexOf? x start = Option.some (g.indexOf x start) ∧
    g.lastIndexOf? x start = Option.some (g.lastIndexOf x start) ∧
    g.includes? x start = Option.some (g.includes x start) ∧
    (∀ i, g.indexOf x start = Option.some i ↔ IsLeast (g.occurrencesFrom x start) i) ∧
    (g.indexOf x start = none ↔ g.occurrencesFrom x start = ∅) ∧
    (∀ i, g.lastIndexOf x start = Option.some i ↔ IsGreatest (g.occurrencesUpTo x start) i) ∧
    (g.lastIndexOf x start = none ↔ g.occurrencesUpTo x start = ∅) ∧
    Plain.first start g.length ≤ g.length ∧ Plain.last start g.length < g.length ∧
    (∀ i ∈ g.occurrences x, i < g.length) ∧
    g.includes x start = (g.indexOf x (start.map Plain.nonnegative)).isSome ∧
    g.includes x none = (g.indexOf x none).isSome ∧
    (g.indexOf x none).isSome = (g.lastIndexOf x none).isSome ∧
    ∀ i j, g.indexOf x none = Option.some i → g.lastIndexOf x none = Option.some j → i ≤ j := by
  have hfirst : g.indexOf x start = none ↔ g.occurrencesFrom x start = ∅ := by
    rw [← Option.not_isSome_iff_eq_none, indexOf_isSome_iff h, Set.not_nonempty_iff_eq_empty]
  have hlast : g.lastIndexOf x start = none ↔ g.occurrencesUpTo x start = ∅ := by
    rw [← Option.not_isSome_iff_eq_none, lastIndexOf_isSome_iff h, Set.not_nonempty_iff_eq_empty]
  have htogether : (g.indexOf x none).isSome = (g.lastIndexOf x none).isSome := by
    rw [Bool.eq_iff_iff, indexOf_isSome_iff h, lastIndexOf_isSome_iff h, occurrencesFrom_none,
      occurrencesUpTo_none]
  have hincludes : g.includes x start = (g.indexOf x (start.map Plain.nonnegative)).isSome := by
    rw [includes, includes?_eq h, Option.getD_some]
  have hany : g.includes x none = (g.indexOf x none).isSome := by
    rw [includes, includes?_eq h, Option.map_none, Option.getD_some]
  refine ⟨(indexOf?_answers h x start).join.1, (lastIndexOf?_answers h x start).join.1,
    (includes?_eq h x start).trans (congrArg Option.some hincludes.symm),
    fun i => indexOf_eq_some_iff h, hfirst, fun i => lastIndexOf_eq_some_iff h, hlast,
    Plain.first_le start _, Plain.last_lt start _, fun i => lt_of_mem_occurrences,
    hincludes, hany, htogether, fun i j hi hj => ?_⟩
  rw [indexOf_eq_some_iff h, occurrencesFrom_none] at hi
  rw [lastIndexOf_eq_some_iff h, occurrencesUpTo_none] at hj
  exact hi.2 hj.1

/-- Doubles with a repetition and a NaN, which is not the same as itself, searched from -2.5. -/
theorem searches_agree_nan :
    let one := Number.ofNat 1
    let nan : Float := .ofBits 0x7ff8000000000000
    let g : Growable Float := ⟨#[one, nan, Number.ofNat 2, one], 4⟩
    let start : Option Float := Option.some (.ofBits 0xc004000000000000)
    g.Fits ∧ g.indexOf? one start = Option.some (Option.some 3) ∧
      g.lastIndexOf? one start = Option.some (Option.some 0) ∧
      g.includes? one start = Option.some true ∧ IsLeast (g.occurrencesFrom one start) 3 ∧
      IsGreatest (g.occurrencesUpTo one start) 0 ∧ g.occurrencesFrom nan start = ∅ := by
  intro one nan g start
  have hfits : g.Fits := Nat.le_refl 4
  have hfound : g.indexOf one start = Option.some 3 := by decide +kernel
  have hlast : g.lastIndexOf one start = Option.some 0 := by decide +kernel
  have hnan : g.indexOf nan start = none := by decide +kernel
  have hincludes : g.includes one start = true := by decide +kernel
  obtain ⟨hup, hdown, hany, hleast, -, hgreatest, -⟩ := searches_agree hfits one start
  obtain ⟨-, -, -, -, hnone, -⟩ := searches_agree hfits nan start
  rw [hfound] at hup
  rw [hlast] at hdown
  rw [hincludes] at hany
  exact ⟨hfits, hup, hdown, hany, (hleast 3).mp hfound, (hgreatest 0).mp hlast, hnone.mp hnan⟩

end Growable
end ValueEngine
