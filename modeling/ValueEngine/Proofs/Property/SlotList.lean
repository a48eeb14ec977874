import Mathlib.Data.List.Induction
import Mathlib.Order.Bounds.Basic
import Mathlib.Tactic.SplitIfs
import ValueEngine.Proofs.Property.FiniteMap

/-! Slot lists, which say where a property table keeps its properties. A deletion leaves a hole,
and a new key goes into the hole that was made last, or behind all slots if there is none. No
hash function occurs here. -/

namespace ValueEngine.Property

/-- Slots that hold a property or nothing, and the holes, the one made last first. -/
structure SlotList where
  cells : List (Option Property)
  holes : List ℕ

namespace SlotList

def empty : SlotList := ⟨[], []⟩

def index? (s : SlotList) (key : String) : Option ℕ := s.cells.findIdx? (·.any (·.key == key))

/-- Put a property into the last hole, or behind all slots. -/
def insert (s : SlotList) (p : Property) : SlotList :=
  match s.holes with
  | [] => ⟨s.cells ++ [some p], []⟩
  | i :: holes => ⟨s.cells.set i (some p), holes⟩

/-- Change the property in a slot, and nothing if there is none. -/
def update (s : SlotList) (i : ℕ) (f : Property → Property) : SlotList :=
  { s with cells := s.cells.modify i (Option.map f) }

def remove (s : SlotList) (i : ℕ) : SlotList := ⟨s.cells.set i none, i :: s.holes⟩

/-- Set and define change the slot of a key that is there or insert a new one, and answer
whether it is new; erase answers whether the key is there. -/
def perform (s : SlotList) : Mutation → Bool × SlotList
  | .set key v =>
    match s.index? key with
    | some i => (false, s.update i fun p => { p with slot := .data v })
    | none => (true, s.insert ⟨key, .data v, Flags.all⟩)
  | .define key slot flags =>
    match s.index? key with
    | some i => (false, s.update i fun p => { p with slot, flags })
    | none => (true, s.insert ⟨key, slot, flags⟩)
  | .erase key =>
    match s.index? key with
    | some i => (true, s.remove i)
    | none => (false, s)

/-- The properties in the order of their slots. -/
def toList (s : SlotList) : List Property := s.cells.filterMap id

/-- The property of a key. -/
def get? (s : SlotList) (key : String) : Option Property :=
  (s.index? key).bind fun i => (s.cells[i]?).join

/-- How many slots are not holes. -/
def live (s : SlotList) : ℕ := s.cells.length - s.holes.length

def run (s : SlotList) (cs : List Mutation) : SlotList := cs.foldl (fun s c => (s.perform c).2) s

variable {s : SlotList} {i : ℕ} {p : Property} {f : Property → Property} {key : String}

theorem holes_insert (s : SlotList) (p : Property) : (s.insert p).holes = s.holes.tail := by
  rw [insert]
  cases s.holes <;> rfl

theorem getElem?_insert (hholes : ∀ i ∈ s.holes, i < s.cells.length) (p : Property) (j : ℕ) :
    (s.insert p).cells[j]? =
      if j = s.holes.headD s.cells.length then some (some p) else s.cells[j]? := by
  rw [insert]
  cases hs : s.holes with
  | nil =>
    show (s.cells ++ [some p])[j]? = if j = s.cells.length then some (some p) else s.cells[j]?
    rw [List.getElem?_append]
    split_ifs with hlt heq heq
    · exact absurd heq (Nat.ne_of_lt hlt)
    · rfl
    · rw [heq, Nat.sub_self, List.getElem?_cons_zero]
    · rw [List.getElem?_eq_none (by simp; omega), List.getElem?_eq_none (Nat.not_lt.mp hlt)]
  | cons i holes =>
    show (s.cells.set i (some p))[j]? = if j = i then some (some p) else s.cells[j]?
    have hi : i < s.cells.length := hholes i (by rw [hs]; exact List.mem_cons_self)
    by_cases hji : j = i
    · rw [hji, List.getElem?_set_self hi, if_pos rfl]
    · rw [List.getElem?_set_ne (Ne.symm hji), if_neg hji]

theorem getElem?_remove (hi : i < s.cells.length) (j : ℕ) :
    (s.remove i).cells[j]? = if j = i then some none else s.cells[j]? := by
  by_cases hji : j = i
  · rw [hji, remove, List.getElem?_set_self hi, if_pos rfl]
  · rw [remove, List.getElem?_set_ne (Ne.symm hji), if_neg hji]

theorem getElem?_update (hp : s.cells[i]? = some (some p)) (f : Property → Property) (j : ℕ) :
    (s.update i f).cells[j]? = if j = i then some (some (f p)) else s.cells[j]? := by
  show (s.cells.modify i (Option.map f))[j]? = _
  by_cases hji : j = i
  · rw [hji, List.getElem?_modify_eq, hp, if_pos rfl]
    rfl
  · rw [List.getElem?_modify_ne _ _ (Ne.symm hji), if_neg hji]

/-- Slots are only added when there is no hole. -/
theorem length_insert (s : SlotList) (p : Property) :
    (s.insert p).cells.length = max s.cells.length (s.insert p).live := by
  rw [insert]
  cases s.holes with
  | nil => simp [live]
  | cons i holes => simp [live]

/-- There are never more slots than have been needed at once. -/
theorem length_perform (s : SlotList) (c : Mutation) :
    (s.perform c).2.cells.length = max s.cells.length (s.perform c).2.live := by
  have hupdate : ∀ i f, (s.update i f).cells.length = max s.cells.length (s.update i f).live := by
    intro i f
    simp [update, live]
  cases c with
  | set key v =>
    rw [perform]
    cases s.index? key with
    | some i => exact hupdate i _
    | none => exact s.length_insert _
  | define key slot flags =>
    rw [perform]
    cases s.index? key with
    | some i => exact hupdate i _
    | none => exact s.length_insert _
  | erase key =>
    rw [perform]
    cases s.index? key with
    | some i => simp [remove, live]
    | none => simp [live]

theorem run_concat (s : SlotList) (cs : List Mutation) (c : Mutation) :
    s.run (cs ++ [c]) = ((s.run cs).perform c).2 := by
  rw [run, List.foldl_concat, run]

/-- After any run there are as many slots as properties have been there at once. -/
theorem isGreatest_length (cs : List Mutation) :
    IsGreatest (Set.range fun n => (empty.run (cs.take n)).live) (empty.run cs).cells.length := by
  induction cs using List.reverseRecOn with
  | nil =>
    refine ⟨⟨0, rfl⟩, ?_⟩
    rintro _ ⟨n, rfl⟩
    simp [run, empty, live]
  | append_singleton cs c ih =>
    obtain ⟨⟨n, hn⟩, hbound⟩ := ih
    have hlength : (empty.run (cs ++ [c])).cells.length =
        max (empty.run cs).cells.length (empty.run (cs ++ [c])).live := by
      rw [run_concat, length_perform]
    have hbefore : ∀ m ≤ cs.length, (cs ++ [c]).take m = cs.take m :=
      fun m hm => List.take_append_of_le_length hm
    have hafter : ∀ m, cs.length < m → (cs ++ [c]).take m = cs ++ [c] :=
      fun m hm => List.take_of_length_le (by rw [List.length_append]; exact hm)
    rw [hlength]
    constructor
    · obtain hmax | hmax := max_choice (empty.run cs).cells.length (empty.run (cs ++ [c])).live
      · refine ⟨min n cs.length, ?_⟩
        dsimp only
        rw [hmax, hbefore _ (Nat.min_le_right _ _), ← List.take_eq_take_min]
        exact hn
      · refine ⟨cs.length + 1, ?_⟩
        dsimp only
        rw [hmax, hafter _ (Nat.lt_succ_self _)]
    · rintro _ ⟨m, rfl⟩
      obtain hm | hm := le_or_gt m cs.length
      · dsimp only
        rw [hbefore m hm]
        exact (hbound ⟨m, rfl⟩).trans (le_max_left _ _)
      · dsimp only
        rw [hafter m hm]
        exact le_max_right _ _

theorem index?_append (hkey : s.index? key = none) (hp : p.key ≠ key) :
    (⟨s.cells ++ [some p], []⟩ : SlotList).index? key = none := by
  rw [index?, List.findIdx?_eq_none_iff] at hkey ⊢
  intro c hc
  rw [List.mem_append, List.mem_singleton] at hc
  obtain hold | rfl := hc
  · exact hkey c hold
  · simp [hp]

/-- Where there is no hole, new keys are put one behind the other. -/
theorem run_set (hs : s.holes = []) {ps : List (String × Value)}
    (hnew : ∀ q ∈ ps, s.index? q.1 = none) (hkeys : (ps.map (·.1)).Nodup) :
    s.run (ps.map fun q => .set q.1 q.2) =
      ⟨s.cells ++ ps.map fun q => some ⟨q.1, .data q.2, Flags.all⟩, []⟩ := by
  induction ps generalizing s with
  | nil =>
    rw [List.map_nil, List.map_nil, List.append_nil, ← hs]
    rfl
  | cons q ps ih =>
    rw [List.map_cons, List.nodup_cons] at hkeys
    obtain ⟨hq, hkeys⟩ := hkeys
    have hset : (s.perform (.set q.1 q.2)).2 =
        ⟨s.cells ++ [some ⟨q.1, .data q.2, Flags.all⟩], []⟩ := by
      rw [perform, hnew q List.mem_cons_self]
      dsimp only
      rw [insert, hs]
    rw [List.map_cons, run, List.foldl_cons, hset, ← run, ih rfl ?_ hkeys, List.map_cons,
      List.append_assoc, List.singleton_append]
    intro r hr
    have hne : q.1 ≠ r.1 := fun heq => hq (heq ▸ List.mem_map_of_mem hr)
    exact index?_append (hnew r (List.mem_cons_of_mem q hr)) hne

/-- A new key takes the place of a deleted one, and no slot is added. -/
example :
    let s := empty.run
      [.set "a" .null, .set "b" .null, .set "c" .null, .erase "b", .set "d" .null]
    s.toList.map (·.key) = ["a", "d", "c"] ∧ s.cells.length = 3 := by
  decide

end SlotList

end ValueEngine.Property
