import ValueEngine.Proofs.Growable.Retention

/-! The longest array. An operation that lengthens its array looks at the limit when it needs new
storage, and an operation that makes an array makes one no longer than the array it works on.
So no array gets longer than the limit, callbacks included, and what would make one longer is
refused and changes nothing. Joining is the exception: it makes its storage without a look at
the limit, and two arrays that are long enough are joined to one that is too long. A callback
may join all the same, if what it joins is short enough in the worlds that it is called in;
these are the worlds that the requests lead to, and not all there are. Memory that refuses
storage is left out here, since it only makes more operations fail. -/

namespace ValueEngine

open Store (Task Led)

/-- The length of an array of `n` elements after an operation that succeeds. -/
def Edit.newLength {α : Type} (e : Edit (List α) α) (n : ℕ) : ℕ :=
  match e with
  | push items | unshift items => n + items.length
  | pop | shift => n - 1
  | splice start number items =>
    n - Plain.count number (n - Plain.index start n) + (items.getD []).length
  | _ => n

/-! ### Operations on lists -/

namespace Plain

variable {α : Type} {p : Plain α} {e : Edit (List α) α} {room n m : ℕ}

/-- There is room for the elements, and for no more than the longest array has. -/
structure Limited (p : Plain α) : Prop where
  fits : p.elements.length ≤ p.room
  room : p.room ≤ maxArrayLength

theorem reserve_le (hroom : room ≤ maxArrayLength) (h : reserve room n = .ok m) :
    m ≤ maxArrayLength := by
  rw [reserve] at h
  split_ifs at h <;> cases h
  · exact hroom
  · exact Nat.min_le_right _ _

/-- Room is refused for more elements than the longest array has, and only then. -/
theorem reserve_bind_eq_allocation_iff {β : Type} {f : ℕ → Except ArrayFault β}
    (hroom : room ≤ maxArrayLength) (hf : ∀ r, f r ≠ .error (.allocation m)) :
    (reserve room n >>= f) = .error (.allocation m) ↔ maxArrayLength < n ∧ m = n := by
  rw [reserve, Nat.max_eq_right hroom]
  split_ifs with h
  · constructor
    · intro heq
      cases heq
      exact ⟨h, rfl⟩
    · rintro ⟨-, rfl⟩
      rfl
  all_goals exact ⟨fun heq => absurd heq (hf _), fun hn => absurd hn.1 h⟩

/-- An operation that succeeds leaves a list of the new length, in the room that there was, in
what it has reserved, or in less than the list filled; and only joining makes a longer list. -/
theorem perform_spec {r : Effect α (Plain α)} (h : p.perform e = .ok r) :
    r.receiver.elements.length = e.newLength p.elements.length ∧
      (r.receiver.room = p.room ∨
        reserve p.room (e.newLength p.elements.length) = .ok r.receiver.room ∨
        r.receiver.room < p.elements.length) ∧
      ∀ made, r.made = some made → made.room ≤ p.elements.length ∨
        ∃ other, e = .concat other ∧ made.room = p.elements.length + other.length := by
  have hnone : ∀ made : Plain α, none = some made → made.room ≤ p.elements.length ∨
      ∃ other, e = .concat other ∧ made.room = p.elements.length + other.length := by
    rintro _ ⟨⟩
  cases e with
  | push items =>
    obtain ⟨⟨k, q⟩, hpush, h⟩ := bind_eq_ok h
    obtain ⟨room, hreserve, hpush⟩ := bind_eq_ok hpush
    cases hpush
    cases h
    exact ⟨List.length_append, Or.inr (Or.inl hreserve), hnone⟩
  | pop =>
    obtain ⟨⟨x, q⟩, hpop, h⟩ := bind_eq_ok h
    rw [pop] at hpop
    split at hpop <;> cases hpop
    cases h
    exact ⟨List.length_dropLast, Or.inl rfl, hnone⟩
  | shift =>
    obtain ⟨⟨x, q⟩, hshift, h⟩ := bind_eq_ok h
    rw [shift] at hshift
    cases hxs : p.elements with
    | nil =>
      rw [hxs] at hshift
      cases hshift
    | cons y rest =>
      rw [hxs] at hshift hnone
      dsimp only at hshift
      split_ifs at hshift
      cases hshift
      cases h
      exact ⟨rfl, Or.inr (Or.inr (Nat.lt_succ_self _)), hnone⟩
  | unshift items =>
    obtain ⟨⟨k, q⟩, hunshift, h⟩ := bind_eq_ok h
    obtain ⟨room, hreserve, hunshift⟩ := bind_eq_ok hunshift
    cases hunshift
    cases h
    exact ⟨List.length_append.trans (Nat.add_comm _ _), Or.inr (Or.inl hreserve), hnone⟩
  | splice start number items =>
    obtain ⟨⟨removed, q⟩, hsplice, h⟩ := bind_eq_ok h
    obtain ⟨room, hreserve, hsplice⟩ := bind_eq_ok hsplice
    cases hsplice
    cases h
    have hstart := Growable.position_le start p.elements.length
    have hcount := Growable.count_le number (p.elements.length - index start p.elements.length)
    refine ⟨?_, Or.inr (Or.inl hreserve), ?_⟩
    · simp only [Edit.newLength, List.length_append, List.length_take, List.length_drop]
      omega
    · rintro _ ⟨⟩
      left
      simp only [ofList, List.length_take, List.length_drop]
      omega
  | slice first last =>
    cases h
    refine ⟨rfl, Or.inl rfl, ?_⟩
    rintro _ ⟨⟩
    left
    simp only [ofList, slice, List.length_take, List.length_drop]
    omega
  | concat other =>
    cases h
    refine ⟨rfl, Or.inl rfl, ?_⟩
    rintro _ ⟨⟩
    exact Or.inr ⟨other, rfl, List.length_append⟩
  | reverse =>
    cases h
    exact ⟨List.length_reverse, Or.inl rfl, hnone⟩
  | fill =>
    cases h
    exact ⟨List.length_mapIdx, Or.inl rfl, hnone⟩
  | copyWithin target first last =>
    cases h
    have htarget := Growable.position_le target p.elements.length
    have hlast := Growable.stop_le last p.elements.length
    refine ⟨?_, Or.inl rfl, hnone⟩
    simp only [Edit.newLength, copyWithin, List.length_append, List.length_take, List.length_drop]
    omega
  | set =>
    cases h
    exact ⟨List.length_set, Or.inl rfl, hnone⟩

/-- An operation leaves room within the limit, and makes a list within it, unless it joins lists
that are too long together. -/
theorem perform_room (hp : p.Limited) {r : Effect α (Plain α)}
    (hjoin : ∀ other, e = .concat other → p.elements.length + other.length ≤ maxArrayLength)
    (h : p.perform e = .ok r) :
    r.receiver.room ≤ maxArrayLength ∧
      ∀ made, r.made = some made → made.room ≤ maxArrayLength := by
  have hlength := hp.fits.trans hp.room
  obtain ⟨-, hroom, hmade⟩ := perform_spec h
  constructor
  · obtain hsame | hreserve | hless := hroom
    · exact hsame.trans_le hp.room
    · exact reserve_le hp.room hreserve
    · exact hless.le.trans hlength
  · intro made hm
    obtain hle | ⟨other, he, hjoined⟩ := hmade made hm
    · exact hle.trans hlength
    · exact hjoined.trans_le (hjoin other he)

/-- An operation is refused for want of room exactly if its array would get too long. -/
theorem perform_eq_allocation_iff (hp : p.Limited) :
    p.perform e = .error (.allocation m) ↔
      maxArrayLength < e.newLength p.elements.length ∧ m = e.newLength p.elements.length := by
  have hlength := hp.fits.trans hp.room
  -- Most operations ask for no room, and leave an array that is no longer.
  have hnever : ∀ {n} {r : Except ArrayFault (Effect α (Plain α))}, n ≤ p.elements.length →
      r ≠ .error (.allocation m) → (r = .error (.allocation m) ↔ maxArrayLength < n ∧ m = n) :=
    fun hn hr => ⟨fun h => absurd h hr, fun h => absurd h.1 (Nat.not_lt.mpr (hn.trans hlength))⟩
  cases e with
  | push items =>
    rw [perform, push, bind_assoc]
    exact reserve_bind_eq_allocation_iff hp.room nofun
  | unshift items =>
    rw [perform, unshift, bind_assoc]
    exact reserve_bind_eq_allocation_iff hp.room nofun
  | splice start number items =>
    rw [perform, splice, bind_assoc]
    exact reserve_bind_eq_allocation_iff hp.room nofun
  | pop =>
    apply hnever (Nat.sub_le _ _)
    rw [perform, pop]
    cases p.elements.getLast? <;> nofun
  | shift =>
    apply hnever (Nat.sub_le _ _)
    rw [perform, shift]
    cases hxs : p.elements with
    | nil => nofun
    | cons x rest =>
      rw [hxs, List.length_cons] at hlength
      dsimp only
      rw [if_neg (by omega)]
      nofun
  | slice | concat | reverse | fill | copyWithin | set => exact hnever le_rfl nofun

end Plain

namespace Alike

variable {β γ : Type} {R : β → γ → Prop} {x : Except ArrayFault β} {y : Except ArrayFault γ}

theorem exists_ok (h : Alike R x y) {b : β} (hx : x = .ok b) : ∃ c, y = .ok c ∧ R b c := by
  cases h with
  | ok hbc =>
    cases hx
    exact ⟨_, rfl, hbc⟩
  | error f => cases hx

theorem eq_error_iff (h : Alike R x y) {f : ArrayFault} : x = .error f ↔ y = .error f := by
  cases h with
  | ok _ => exact ⟨nofun, nofun⟩
  | error g => rw [Except.error.injEq, Except.error.injEq]

end Alike

namespace Growable

variable {α : Type} {g : Growable α} {e : Edit (List α) α} {m : ℕ}

theorem limited_plain (hfits : g.Fits) (hroom : g.capacity ≤ maxArrayLength) : g.plain.Limited :=
  ⟨(length_toList hfits).trans_le hfits, hroom⟩

variable [Cell α]

/-- An operation leaves a capacity within the limit, and makes an array within it, unless it
joins arrays that are too long together. -/
theorem perform_capacity (hfits : g.Fits) (hroom : g.capacity ≤ maxArrayLength)
    {r : Effect α (Growable α)}
    (hjoin : ∀ other, e = .concat other → g.length + other.length ≤ maxArrayLength)
    (h : g.perform e = .ok r) :
    r.receiver.capacity ≤ maxArrayLength ∧
      ∀ made, r.made = .some made → made.capacity ≤ maxArrayLength := by
  have hlength : g.plain.elements.length = g.length := length_toList hfits
  obtain ⟨⟨answer, receiver, made'⟩, hq, heffect⟩ := (perform_refines hfits e).exists_ok h
  obtain ⟨hreceiver, hmade⟩ := Plain.perform_room (limited_plain hfits hroom)
    (fun other he => by rw [hlength]; exact hjoin other he) hq
  obtain ⟨-, ⟨-, hroom'⟩, hrel⟩ := heffect
  refine ⟨(congrArg Plain.room hroom').trans_le hreceiver, fun made hm => ?_⟩
  rw [hm] at hrel
  cases hrel with
  | some hrefines => exact (congrArg Plain.room hrefines.2).trans_le (hmade _ rfl)

theorem length_perform (hfits : g.Fits) {r : Effect α (Growable α)} (h : g.perform e = .ok r) :
    r.receiver.length = e.newLength g.length := by
  have hlength : g.plain.elements.length = g.length := length_toList hfits
  obtain ⟨q, hq, -, ⟨hfits', hplain⟩, -⟩ := (perform_refines hfits e).exists_ok h
  rw [← hlength, ← (Plain.perform_spec hq).1, ← hplain]
  exact (length_toList hfits').symm

theorem perform_eq_allocation_iff (hfits : g.Fits) (hroom : g.capacity ≤ maxArrayLength) :
    g.perform e = .error (.allocation m) ↔
      maxArrayLength < e.newLength g.length ∧ m = e.newLength g.length := by
  have hlength : g.plain.elements.length = g.length := length_toList hfits
  rw [(perform_refines hfits e).eq_error_iff,
    Plain.perform_eq_allocation_iff (limited_plain hfits hroom), hlength]

end Growable

/-! ### Tasks -/

namespace Store

def Bounded (s : Store) : Prop :=
  ∀ (id : ℕ) k (g : Growable k.Carrier), s.arrays[id]? = some ⟨k, g⟩ →
    g.capacity ≤ maxArrayLength

/-- A clean store in which no array is longer than the limit, nor has room for more. -/
structure Limited (s : Store) : Prop where
  clean : s.Clean
  bounded : s.Bounded

/-- What is given for a new array is within the limit, and so is what is joined. -/
def Task.Within (s : Store) : Task → Prop
  | make _ xs => xs.length ≤ maxArrayLength
  | edit k id (.concat other) => (s.get k id).length + other.length ≤ maxArrayLength
  | _ => True

variable {s s' : Store} {t : Task} {k : ElementKind} {id : ℕ} {g : Growable k.Carrier}

theorem Limited.length_le (hs : s.Limited) (hr : s.arrays[id]? = some ⟨k, g⟩) :
    g.length ≤ maxArrayLength :=
  (hs.clean id k g hr).2.fits.trans (hs.bounded id k g hr)

theorem Bounded.put (hs : s.Bounded) (hg : g.capacity ≤ maxArrayLength) :
    (s.put k id g).Bounded := by
  intro other k' g' hr
  rw [getElem?_put] at hr
  split_ifs at hr
  · cases hr
    exact hg
  · exact hs other k' g' hr

theorem Bounded.add (hs : s.Bounded) (hg : g.capacity ≤ maxArrayLength) :
    (s.add k g).2.Bounded := by
  intro other k' g' hr
  rw [getElem?_add] at hr
  split_ifs at hr
  · cases hr
    exact hg
  · exact hs other k' g' hr

theorem limited_empty : Limited empty where
  clean := clean_empty
  bounded id k g hr := by
    change (∅ : Std.HashMap ℕ ((k : ElementKind) × Growable k.Carrier))[id]? = some ⟨k, g⟩ at hr
    rw [Std.HashMap.getElem?_empty] at hr
    cases hr

theorem step_concat (hr : s.arrays[id]? = some ⟨k, g⟩) (other : List k.Carrier) :
    s.step (.edit k id (.concat other)) =
      ((s.put k id g).add k (.ofList (g.toList ++ other))).2 := by
  have hjoin : g.append (.ofList other) = .ok (.ofList (g.toList ++ other)) := by
    rw [Growable.append, Memory.grants_boundless, if_pos rfl, Growable.concat,
      Growable.toList_ofList]
  rw [step, perform, if_pos (kind?_eq_some.mpr ⟨g, hr⟩), get_eq hr, Growable.perform, hjoin]
  rfl

/-- Joining leaves the array that it works on. -/
theorem Clean.getElem?_concat (hs : s.Clean) (hr : s.arrays[id]? = some ⟨k, g⟩)
    (other : List k.Carrier) :
    (s.step (.edit k id (.concat other))).arrays[id]? = some ⟨k, g⟩ := by
  have hnext : (s.put k id g).next ≠ id := (hs id k g hr).1.ne'
  rw [step_concat hr, getElem?_add, if_neg hnext, getElem?_put, if_pos rfl]

theorem capacity_withLength {α : Type} {n : ℕ} {x : α} {g : Growable α}
    (h : Growable.withLength n x = .ok g) : g.capacity ≤ maxArrayLength := by
  rw [Growable.withLength, Storage.allocate_boundless] at h
  split_ifs at h with hn
  · cases h
  · cases h
    exact Array.size_replicate.trans_le (Nat.not_lt.mp hn)

theorem perform_bounded (hs : s.Limited) (ht : t.Within s) (h : s.perform t = .ok s') :
    s'.Bounded := by
  cases t with
  | make k xs =>
    cases h
    exact hs.bounded.add ((Growable.capacity_ofList xs).trans_le ht)
  | makeFilled k n x =>
    obtain ⟨g, hg, h⟩ := bind_eq_ok h
    cases h
    exact hs.bounded.add (capacity_withLength hg)
  | edit k id e =>
    rw [perform] at h
    split_ifs at h with hk
    · obtain ⟨r, hperform, h⟩ := bind_eq_ok h
      cases h
      obtain ⟨g, hr⟩ := kind?_eq_some.mp hk
      have hjoin : ∀ other, e = .concat other → g.length + other.length ≤ maxArrayLength := by
        rintro other rfl
        rw [← get_eq hr]
        exact ht
      rw [get_eq hr] at hperform
      obtain ⟨hreceiver, hmade⟩ := Growable.perform_capacity (hs.clean id k g hr).2.fits
        (hs.bounded id k g hr) hjoin hperform
      have hput : (s.put k id r.receiver).Bounded := hs.bounded.put hreceiver
      rw [settle]
      cases hm : r.made with
      | none => exact hput
      | some made => exact hput.add (hmade made hm)
    · cases h
      exact hs.bounded
  | exchange k id i j =>
    rw [perform] at h
    split_ifs at h with hk
    · cases h
      obtain ⟨g, hr⟩ := kind?_eq_some.mp hk
      have hswap := (Growable.swap_clean (hs.clean id k g hr).2 i j).2
      rw [get_eq hr]
      exact hs.bounded.put (hswap.trans_le (hs.bounded id k g hr))
    · cases h
      exact hs.bounded

theorem Limited.step (hs : s.Limited) (ht : t.Within s) : (s.step t).Limited := by
  refine ⟨(hs.clean.regulates t).clean, ?_⟩
  rw [Store.step]
  cases h : s.perform t with
  | error f => exact hs.bounded
  | ok s' => exact perform_bounded hs ht h

/-- The length that an array is to have after a task, if the task works on it or fills it. -/
def Task.demand (s : Store) : Task → ℕ
  | makeFilled _ n _ => n
  | edit k id e => if s.kind? id = some k then e.newLength (s.get k id).length else 0
  | _ => 0

/-- A task is refused for want of room exactly if it wants more than the limit. -/
theorem perform_eq_allocation_iff (hs : s.Limited) {m : ℕ} :
    s.perform t = .error (.allocation m) ↔ maxArrayLength < t.demand s ∧ m = t.demand s := by
  have hnever : ∀ s' : Store,
      Except.ok s' = Except.error (ArrayFault.allocation m) ↔ maxArrayLength < 0 ∧ m = 0 :=
    fun _ => ⟨(by cases ·), fun h => absurd h.1 (Nat.not_lt_zero _)⟩
  cases t with
  | make k xs => exact hnever _
  | makeFilled k n x =>
    rw [perform, Growable.withLength, Storage.allocate_boundless, Task.demand]
    split_ifs with hn
    · constructor
      · intro heq
        cases heq
        exact ⟨hn, rfl⟩
      · rintro ⟨-, rfl⟩
        rfl
    · exact ⟨(by cases ·), fun h => absurd h.1 hn⟩
  | edit k id e =>
    rw [perform, Task.demand]
    split_ifs with hk
    · obtain ⟨g, hr⟩ := kind?_eq_some.mp hk
      rw [get_eq hr, ← Growable.perform_eq_allocation_iff (hs.clean id k g hr).2.fits
        (hs.bounded id k g hr)]
      cases g.perform e with
      | error f =>
        change Except.error f = Except.error _ ↔ _
        rw [Except.error.injEq, Except.error.injEq]
      | ok r => constructor <;> rintro ⟨⟩
    · exact hnever _
  | exchange k id i j =>
    rw [perform]
    split_ifs <;> exact hnever _

end Store

variable {H : Type} {k : ElementKind} {id : ℕ}

theorem outcome_work_eq_error_iff {t : Task} {f : ArrayFault} {u v : World H} :
    (Operation.work t).outcome u = (.error f, v) ↔ u.arrays.perform t = .error f ∧ v = u := by
  rw [Operation.work, Action.outcome_bind, Action.outcome_get]
  dsimp only
  rw [Action.outcome_bind, Action.outcome_ofExcept]
  cases u.arrays.perform t with
  | error g => rw [Prod.mk.injEq, Except.error.injEq, Except.error.injEq, eq_comm (a := u)]
  | ok s =>
    constructor
    · rintro ⟨⟩
    · rintro ⟨⟨⟩, -⟩

namespace ArrayRequest

variable {rs : List (ArrayRequest H)} {w : World H}

theorem outcome_edit (e : Edit (Operand k.Carrier) k.Carrier) (w : World H) :
    ((edit k id e).run.outcome w).2.arrays =
      w.arrays.step (.edit k id (e.map (Operand.elements w.arrays))) :=
  outcome_of_task? rfl

/-- Every request is within the limit when its turn comes, and so is whatever its callback does,
in each world in which the method that it runs may call it. -/
abbrev AllWithin (rs : List (ArrayRequest H)) (w : World H) : Prop :=
  AllBehave Task.Within Task.Within rs w

/-- **The length limit.** Requests within the limit take a course of tasks within it, and make no
array longer than it, neither in the end nor while callbacks are at work. Wherever they have got
to, an operation is refused for want of room exactly if it wants an array that is longer; it says
how long, and leaves everything as it is. -/
theorem length_limit_kept (hw : w.arrays.Limited) (hrs : AllWithin rs w) :
    ∃ ts, Course Task.Within Task.Within rs w ts ∧ w.arrays.after ts = (runAll rs w).arrays ∧
      ∀ done, done <+: ts →
        let s := w.arrays.after done
        (∀ (id : ℕ) k (g : Growable k.Carrier), s.arrays[id]? = some ⟨k, g⟩ →
          g.length ≤ maxArrayLength) ∧
        ∀ (t : Task) (u v : World H) m, u.arrays = s →
          ((Operation.work t).outcome u = (.error (.allocation m), v) ↔
            maxArrayLength < t.demand s ∧ m = t.demand s ∧ v = u) := by
  -- What a method makes is no longer than the array it was called for, whatever has become of
  -- that array since.
  have hmake : ∀ s : Store, s.Limited → ∀ (k : ElementKind) id, s.kind? id = some k →
      ∀ s' target (xs : List target.Carrier), xs.length ≤ (s.get k id).length →
        Task.Within s' (.make target xs) := by
    intro s hs k id hk s' target xs hxs
    obtain ⟨g, hr⟩ := Store.kind?_eq_some.mp hk
    rw [Store.get_eq hr] at hxs
    exact hxs.trans (hs.length_le hr)
  obtain ⟨ts, hcourse⟩ := exists_course (fun _ hs => hs.clean)
    (fun _ _ hs ht => hs.step (ht.elim id id)) hmake (fun _ _ _ _ _ => trivial) hrs hw
  obtain ⟨hpermitted, hts⟩ := hcourse.led Task.Within (fun _ _ => id) (fun _ _ _ _ _ => id)
  refine ⟨ts, hcourse, hts, fun done hdone => ?_⟩
  have hs := hpermitted.keeps hw (fun _ _ hs ht => hs.step ht) hdone
  refine ⟨fun id k g hr => hs.length_le hr, fun t u v m hu => ?_⟩
  rw [outcome_work_eq_error_iff, hu, Store.perform_eq_allocation_iff hs, and_assoc]

end ArrayRequest

/-- A drain is within the limit in every world. -/
theorem draining_led (id : ℕ) (args : List (Argument Int32)) (w : World H) :
    Led Task.Within w.arrays (((draining id).run args).outcome w).2.arrays := by
  apply Operation.led_of_reaches
  have hwork (e : Edit (List Int32) Int32) (u : World H)
      (he : (Task.edit .i32 id e).Within u.arrays) := Operation.reaches_work he
  refine (hwork (.push [7]) w trivial).bind fun _ u _ => ?_
  refine (hwork .shift u trivial).bind fun _ v _ => ?_
  exact (hwork .shift v trivial).bind fun _ _ _ => Action.reaches_pure _

/-- A callback that joins an array to itself, and answers 1. -/
def joining (id : ℕ) : Closure (World H) ElementKind.i32.Carrier where
  context := 0
  returns := .i32
  run _ := do
    let w ← get
    Operation.work (.edit .i32 id (.concat (w.arrays.get .i32 id).toList))
    return .i32 1

theorem outcome_joining (id : ℕ) (args : List (Argument ElementKind.i32.Carrier)) (w : World H) :
    (((joining id).run args).outcome w).2.arrays =
      w.arrays.step (.edit .i32 id (.concat (w.arrays.get .i32 id).toList)) := by
  rw [joining, Action.outcome_bind, Action.outcome_get]
  dsimp only
  rw [Action.outcome_bind, ← Operation.outcome_work]
  cases (Operation.work (.edit .i32 id (.concat (w.arrays.get .i32 id).toList))).outcome w with
  | mk r v => cases r <;> rfl

/-! ### Requests and their callbacks -/

namespace ArrayRequest

/-- To join an array to itself again and again is within the limit, if once is: every time it is
the same array. -/
theorem joining_behaves {g : Growable Int32} (hclean : w.arrays.Clean)
    (hr : w.arrays.arrays[id]? = some ⟨.i32, g⟩) (hlength : g.length + g.length ≤ maxArrayLength) :
    (call .i32 id .forEach (joining id)).Behaves Task.Within Task.Within w := by
  have hreaching : ∀ u, Method.forEach.Reaching id (joining id) w u →
      u.arrays.Clean ∧ u.arrays.arrays[id]? = some ⟨.i32, g⟩ := by
    intro u hu
    induction hu with
    | refl => exact ⟨hclean, hr⟩
    | @tail u v _ hstage ih =>
      obtain ⟨hu, hg⟩ := ih
      cases hstage with
      | call args =>
        rw [outcome_joining]
        exact ⟨(hu.regulates _).clean, hu.getElem?_concat hg _⟩
      | box x => exact ⟨hu, hg⟩
      | keep xs _ _ hdoes => exact hdoes.elim
      | exchange i j _ hdoes => exact hdoes.elim
  intro u hu _ args
  obtain ⟨hclean, hg⟩ := hreaching u hu
  rw [outcome_joining]
  apply Led.of_task
  change (u.arrays.get .i32 id).length + (u.arrays.get .i32 id).toList.length ≤ maxArrayLength
  rw [Store.get_eq hg, Growable.length_toList (hclean id .i32 g hg).2.fits]
  exact hlength

/-- An array is joined to itself, also for each of its elements, and drained while it is
filtered. -/
theorem length_limit_kept_drained :
    let rs : List (ArrayRequest Unit) := [.make .i32 ([3, 1, 2, 4] : List Int32),
      .edit .i32 0 (.concat (.held 0)), .call .i32 0 .forEach (joining 0),
      .edit .i32 0 (.push (.held 0)), .call .i32 0 .filter (draining 0)]
    let w : World Unit := ⟨Engine.new .standard, .empty, ()⟩
    w.arrays.Limited ∧ AllWithin rs w ∧
      ∃ ts, w.arrays.after ts = (runAll rs w).arrays ∧ ∀ done, done <+: ts →
        ∀ (id : ℕ) k (g : Growable k.Carrier), (w.arrays.after done).arrays[id]? = some ⟨k, g⟩ →
          g.length ≤ maxArrayLength := by
  intro rs w
  have hw : w.arrays.Limited := Store.limited_empty
  let xs : List ElementKind.i32.Carrier := ([3, 1, 2, 4] : List Int32)
  let made : World Unit := ((make .i32 xs).run.outcome w).2
  let joined : World Unit := ((edit .i32 0 (.concat (.held 0))).run.outcome made).2
  have hmade : made.arrays.arrays[0]? = some ⟨.i32, .ofList xs⟩ :=
    Store.getElem?_add .empty .i32 0 _
  have hclean : made.arrays.Clean := (hw.clean.regulates (.make .i32 xs)).clean
  have hjoined : joined.arrays.arrays[0]? = some ⟨.i32, .ofList xs⟩ := by
    rw [outcome_edit]
    exact hclean.getElem?_concat hmade _
  have hjoinedClean : joined.arrays.Clean := by
    rw [outcome_edit]
    exact (hclean.regulates _).clean
  have hrs : AllWithin rs w := by
    refine ⟨?_, ?_, joining_behaves hjoinedClean hjoined (by decide), ?_,
      fun u _ _ args => draining_led 0 args u, trivial⟩
    · rintro _ ⟨⟩
      change xs.length ≤ maxArrayLength
      decide
    · rintro _ ⟨⟩
      change (made.arrays.get .i32 0).length + (made.arrays.get .i32 0).toList.length ≤
        maxArrayLength
      rw [Store.get_eq hmade]
      decide
    · rintro _ ⟨⟩
      trivial
  obtain ⟨ts, -, hts, hway⟩ := length_limit_kept hw hrs
  exact ⟨hw, hrs, ts, hts, fun done hdone => (hway done hdone).1⟩

/-- Elements are joined without a look at the limit. -/
theorem arrays_joined {n : ℕ} {x : k.Carrier} (hw : w.arrays = .empty) (hn : n ≤ maxArrayLength) :
    ∃ g : Growable k.Carrier, g.length = n + n ∧
      (runAll [.makeFilled k n x, .edit k 0 (.concat (.held 0))] w).arrays.arrays[1]? =
        some ⟨k, g⟩ := by
  let filled : Growable k.Carrier := ⟨Array.replicate n x, n⟩
  have hallocate : Growable.withLength n x = .ok filled := by
    rw [Growable.withLength, Storage.allocate_boundless, if_neg (Nat.not_lt.mpr hn)]
    rfl
  have hfilled : ((makeFilled k n x).run.outcome w).2.arrays = (Store.empty.add k filled).2 := by
    rw [run, Operation.outcome_work, hw, Store.step, Store.perform, hallocate]
    rfl
  have hrecord : (Store.empty.add k filled).2.arrays[0]? = some ⟨k, filled⟩ := by
    rw [Store.getElem?_add]
    rfl
  have hlength : filled.toList.length = n := Growable.length_toList (Array.size_replicate.ge)
  refine ⟨.ofList (filled.toList ++ filled.toList), ?_, ?_⟩
  · rw [Growable.length_ofList, List.length_append, hlength]
  · rw [runAll, runAll, runAll, outcome_edit, hfilled]
    change (Store.step _ (.edit k 0 (.concat (Store.get _ k 0).toList))).arrays[1]? = _
    rw [Store.step_concat hrecord, Store.get_eq hrecord, Store.getElem?_add]
    rfl

/-- An array of half the limit, rounded up, is joined to itself. -/
theorem joined_array_too_long :
    let rs : List (ArrayRequest Unit) :=
      [.makeFilled .bool (2 ^ 29) true, .edit .bool 0 (.concat (.held 0))]
    let w : World Unit := ⟨Engine.new .standard, .empty, ()⟩
    ∃ g : Growable Bool, g.length = maxArrayLength + 1 ∧
      (runAll rs w).arrays.arrays[1]? = some ⟨.bool, g⟩ := by
  intro rs w
  have hw : w.arrays = .empty := rfl
  have hn : 2 ^ 29 ≤ maxArrayLength := by decide
  obtain ⟨g, hlength, hr⟩ := arrays_joined (k := .bool) (x := true) hw hn
  exact ⟨g, hlength.trans (by decide), hr⟩

end ArrayRequest

end ValueEngine
