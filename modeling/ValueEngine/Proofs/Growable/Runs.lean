import ValueEngine.Proofs.Growable.Named
import ValueEngine.Proofs.Growable.Refinement

/-! Runs of commands on named growable arrays are runs on plain lists. One command keeps every
array within its storage and every record number below the next one, and by induction the
whole trace, answers and contents alike, is that of the lists. Two names of one record see the
same array, and a command may be given the elements of the array that it works on. Storage is
granted up to the longest array, on both sides alike. -/

namespace ValueEngine

variable {α : Type}

/-- An effect on arrays that is this effect on lists. -/
structure Effect.Refines (e : Effect α (Growable α)) (f : Effect α (Plain α)) : Prop where
  answer : e.answer = f.answer
  receiver : e.receiver.Refines f.receiver
  made : Option.Rel Growable.Refines e.made f.made

theorem Growable.perform_refines [Cell α] {g : Growable α} (h : g.Fits) (e : Edit (List α) α) :
    Alike Effect.Refines (g.perform e) (g.plain.perform e) := by
  cases e with
  | push items =>
    refine (push_alike h items).bind ?_
    rintro ⟨n, g'⟩ ⟨m, p⟩ ⟨rfl, hg⟩
    exact .ok ⟨rfl, hg, .none⟩
  | pop =>
    refine (pop_alike h).bind ?_
    rintro ⟨x, g'⟩ ⟨y, p⟩ ⟨rfl, hg⟩
    exact .ok ⟨rfl, hg, .none⟩
  | shift =>
    refine (shift_alike h).bind ?_
    rintro ⟨x, g'⟩ ⟨y, p⟩ ⟨rfl, hg⟩
    exact .ok ⟨rfl, hg, .none⟩
  | unshift items =>
    refine (unshift_alike h items).bind ?_
    rintro ⟨n, g'⟩ ⟨m, p⟩ ⟨rfl, hg⟩
    exact .ok ⟨rfl, hg, .none⟩
  | splice start number items =>
    refine (splice_alike h start number (items.getD [])).bind ?_
    rintro ⟨removed, g'⟩ ⟨xs, p⟩ ⟨rfl, hg⟩
    exact .ok ⟨congrArg Answer.elements (toList_ofList xs), hg, .some (refines_ofList xs)⟩
  | slice first last =>
    have hslice := slice_eq h first last
    refine .ok ⟨?_, h.refines, ?_⟩
    · exact congrArg Answer.elements (by rw [hslice, toList_ofList])
    · exact .some (hslice ▸ refines_ofList _)
  | concat other =>
    have hjoin : g.append (ofList other) = .ok (ofList (g.plain.elements ++ other)) := by
      rw [append, Memory.grants_boundless, if_pos rfl, concat, toList_ofList, plain]
    rw [perform, hjoin]
    exact .ok ⟨congrArg Answer.elements (toList_ofList _), h.refines, .some (refines_ofList _)⟩
  | reverse => exact .ok ⟨rfl, reverse_refines h, .none⟩
  | fill x first last => exact .ok ⟨rfl, fill_refines h x first last, .none⟩
  | copyWithin target first last =>
    exact .ok ⟨rfl, copyWithin_refines h target first last, .none⟩
  | set i x =>
    obtain ⟨hanswer, hg⟩ := set_refines h i x
    exact .ok ⟨congrArg Answer.changed hanswer, hg, .none⟩

namespace Desk

/-- Every array fits its storage, and every record has a number below the next one. -/
def WellFormed (d : Desk) : Prop :=
  ∀ id r, d.store.arrays[id]? = some r → id < d.store.next ∧ r.2.Fits

/-- The live elements of every record, with the room that they have. -/
def plain (d : Desk) : PlainDesk :=
  ⟨d.names, d.store.next, fun id => (d.store.arrays[id]?).map fun r => ⟨r.1, r.2.plain⟩⟩

theorem lookup?_eq_some {d : Desk} {k : ElementKind} {name : String} {id : ℕ}
    {g : Growable k.Carrier} (h : d.lookup? k name = some (id, g)) :
    d.store.arrays[id]? = some ⟨k, g⟩ := by
  unfold lookup? at h
  split at h
  · split_ifs at h with hk
    obtain ⟨rfl, rfl⟩ := h
    obtain ⟨⟨k', g⟩, hr, rfl⟩ := Option.map_eq_some_iff.mp hk
    simp only [Store.get, hr, dite_true]
  · cases h

theorem lookup?_plain (d : Desk) (k : ElementKind) (name : String) :
    d.plain.lookup? k name = (d.lookup? k name).map fun r => (r.1, r.2.plain) := by
  unfold PlainDesk.lookup? lookup? plain Store.kind? Store.get
  cases hn : d.names name with
  | none => simp only [hn, Option.map_none]
  | some id =>
    cases hr : d.store.arrays[id]? with
    | none => simp [hn, hr]
    | some r =>
      obtain ⟨k', g⟩ := r
      by_cases hk : k' = k
      · subst hk
        simp [hn, hr]
      · simp [hn, hr, hk]

theorem read_plain (d : Desk) (k : ElementKind) : d.plain.read k = d.read k := by
  funext source
  cases source with
  | listed xs => rfl
  | named name =>
    rw [PlainDesk.read, read, lookup?_plain]
    cases d.lookup? k name with
    | none => rfl
    | some r => rfl

theorem plain_put (d : Desk) (k : ElementKind) (id : ℕ) (g : Growable k.Carrier) :
    plain { d with store := d.store.put k id g } = d.plain.put k id g.plain := by
  unfold plain PlainDesk.put Store.put
  congr 1
  funext other
  by_cases hid : id = other
  · subst hid
    rw [Function.update_self, Std.HashMap.getElem?_insert_self, Option.map_some]
  · rw [Function.update_of_ne (Ne.symm hid), Std.HashMap.getElem?_insert]
    simp [hid]

theorem plain_keep (d : Desk) (k : ElementKind) (g : Growable k.Carrier) (as : Option String) :
    (d.keep k g as).plain = d.plain.keep k g.plain as := by
  unfold plain PlainDesk.keep keep Store.add
  congr 1
  funext other
  by_cases hid : d.store.next = other
  · subst hid
    rw [Function.update_self, Std.HashMap.getElem?_insert_self, Option.map_some]
  · rw [Function.update_of_ne (Ne.symm hid), Std.HashMap.getElem?_insert]
    simp [hid]

theorem WellFormed.put {d : Desk} (hd : d.WellFormed) {k : ElementKind} {id : ℕ}
    {g : Growable k.Carrier} (hid : id < d.store.next) (hg : g.Fits) :
    WellFormed { d with store := d.store.put k id g } := by
  intro other r hr
  change (d.store.arrays.insert id ⟨k, g⟩)[other]? = some r at hr
  rw [Std.HashMap.getElem?_insert] at hr
  split_ifs at hr with heq
  · obtain rfl := eq_of_beq heq
    cases hr
    exact ⟨hid, hg⟩
  · exact hd other r hr

theorem WellFormed.keep {d : Desk} (hd : d.WellFormed) {k : ElementKind} {g : Growable k.Carrier}
    (hg : g.Fits) (as : Option String) : (d.keep k g as).WellFormed := by
  intro other r hr
  change (d.store.arrays.insert d.store.next ⟨k, g⟩)[other]? = some r at hr
  change other < d.store.next + 1 ∧ r.2.Fits
  rw [Std.HashMap.getElem?_insert] at hr
  split_ifs at hr with heq
  · obtain rfl := eq_of_beq heq
    cases hr
    exact ⟨Nat.lt_succ_self _, hg⟩
  · obtain ⟨hlt, hfits⟩ := hd other r hr
    exact ⟨hlt.trans (Nat.lt_succ_self _), hfits⟩

theorem settle_plain {d : Desk} (hd : d.WellFormed) {k : ElementKind} {id : ℕ}
    (hid : id < d.store.next) (as : Option String) {r : Effect k.Carrier (Growable k.Carrier)}
    {q : Effect k.Carrier (Plain k.Carrier)} (h : r.Refines q) :
    (d.settle k id as r).plain = d.plain.settle k id as q ∧ (d.settle k id as r).WellFormed := by
  obtain ⟨answer, receiver, made⟩ := r
  obtain ⟨answer', receiver', made'⟩ := q
  obtain ⟨rfl, ⟨hfits, rfl⟩, hmade⟩ := h
  have hput : WellFormed { d with store := d.store.put k id receiver } := hd.put hid hfits
  cases hmade with
  | none => exact ⟨plain_put d k id receiver, hput⟩
  | some hg =>
    obtain ⟨hg, rfl⟩ := hg
    refine ⟨?_, hput.keep hg as⟩
    rw [settle, plain_keep, plain_put, PlainDesk.settle]

theorem edit_plain {d : Desk} (hd : d.WellFormed) (k : ElementKind) (name : String)
    (e : Edit (Source k.Carrier) k.Carrier) (as : Option String) :
    d.plain.edit k name e as = ((d.edit k name e as).1, (d.edit k name e as).2.plain) ∧
      (d.edit k name e as).2.WellFormed := by
  unfold edit PlainDesk.edit
  rw [lookup?_plain, read_plain]
  cases hlook : d.lookup? k name with
  | none => exact ⟨rfl, hd⟩
  | some r =>
    obtain ⟨id, g⟩ := r
    obtain ⟨hid, hg⟩ := hd id _ (lookup?_eq_some hlook)
    have hperform := Growable.perform_refines hg (e.map (d.read k))
    simp only [Option.map_some]
    revert hperform
    generalize g.perform (e.map (d.read k)) = x
    generalize g.plain.perform (e.map (d.read k)) = y
    intro hperform
    cases hperform with
    | error f => exact ⟨rfl, hd⟩
    | ok heffect =>
      obtain ⟨hplain, hwell⟩ := settle_plain hd hid as heffect
      refine ⟨?_, hwell⟩
      simp only [hplain, heffect.answer]

/-- One command on arrays is the same command on lists. -/
theorem step_plain {d : Desk} (hd : d.WellFormed) (c : Command) :
    d.plain.step c = ((d.step c).1, (d.step c).2.plain) ∧ (d.step c).2.WellFormed := by
  cases c with
  | make k xs as =>
    refine ⟨?_, hd.keep (Growable.fits_ofList xs) (some as)⟩
    rw [step, plain_keep, (Growable.refines_ofList xs).2, PlainDesk.step]
  | «alias» name as => exact ⟨rfl, hd⟩
  | edit k name e as => exact edit_plain hd k name e as

theorem wellFormed_empty : empty.WellFormed := by
  intro id r hr
  change (∅ : Std.HashMap ℕ _)[id]? = some r at hr
  rw [Std.HashMap.getElem?_empty] at hr
  cases hr

theorem keep_frame (d : Desk) (k : ElementKind) (g : Growable k.Carrier) (as : Option String)
    {id : ℕ} (hid : id < d.store.next) : (d.keep k g as).store.arrays[id]? = d.store.arrays[id]? := by
  change (d.store.arrays.insert d.store.next ⟨k, g⟩)[id]? = d.store.arrays[id]?
  rw [Std.HashMap.getElem?_insert, if_neg (by rw [beq_iff_eq]; omega)]

theorem put_frame (s : Store) (k : ElementKind) {id other : ℕ} (g : Growable k.Carrier)
    (h : id ≠ other) : (s.put k id g).arrays[other]? = s.arrays[other]? := by
  change (s.arrays.insert id ⟨k, g⟩)[other]? = s.arrays[other]?
  rw [Std.HashMap.getElem?_insert, if_neg (by rw [beq_iff_eq]; exact h)]

theorem step_frame (d : Desk) (c : Command) {id : ℕ} (hid : id < d.store.next)
    (hne : d.receiver? c ≠ some id) :
    (d.step c).2.store.arrays[id]? = d.store.arrays[id]? := by
  cases c with
  | make k xs as => exact keep_frame d k _ _ hid
  | «alias» name as => rfl
  | edit k name e as =>
    change (d.edit k name e as).2.store.arrays[id]? = d.store.arrays[id]?
    unfold edit
    unfold receiver? at hne
    cases hlook : d.lookup? k name with
    | none => rfl
    | some r =>
      obtain ⟨own, g⟩ := r
      have hown : own ≠ id := by
        rintro rfl
        exact hne (congrArg (Option.map (·.1)) hlook)
      cases hperform : g.perform (e.map (d.read k)) with
      | error f => simp only [hperform]
      | ok r =>
        simp only [hperform]
        unfold settle
        cases r.made with
        | none => exact put_frame d.store k r.receiver hown
        | some made =>
          have hput := put_frame d.store k r.receiver hown
          exact (keep_frame { d with store := d.store.put k own r.receiver } k made as hid).trans hput

/-- Runs of commands on named arrays are runs on plain lists: each command answers what it
answers there, the records hold what the lists hold, and a record that no
command works on stays as it is. -/
theorem trace_refines_lists (d : Desk) (hd : d.WellFormed) (cs : List Command) :
    (d.trace cs).map (fun r => (r.1, r.2.plain)) = d.plain.trace cs ∧
    (∀ r ∈ d.trace cs, r.2.WellFormed) ∧
    ∀ c id, id < (d.after cs).store.next → (d.after cs).receiver? c ≠ some id →
      ((d.after cs).step c).2.store.arrays[id]? = (d.after cs).store.arrays[id]? := by
  refine ⟨?_, ?_, fun c id hid hne => step_frame _ c hid hne⟩
  · induction cs generalizing d with
    | nil => rfl
    | cons c cs ih =>
      obtain ⟨hstep, hwell⟩ := step_plain hd c
      rw [trace, List.map_cons, ih _ hwell, PlainDesk.trace, hstep]
  · induction cs generalizing d with
    | nil =>
      intro r hr
      cases hr
    | cons c cs ih =>
      obtain ⟨-, hwell⟩ := step_plain hd c
      intro r hr
      rcases List.mem_cons.mp hr with rfl | hr
      · exact hwell
      · exact ih _ hwell r hr

/-- Two names of one record: the array is added to itself and spliced into itself, and the
part removed is kept under a third name. -/
theorem trace_refines_lists_aliased :
    empty.WellFormed ∧
    let cs : List Command := [.make .i32 ([1, 2, 3] : List Int32) "a", .alias "a" "b",
      .edit .i32 "a" (.push (.named "b")) none,
      .edit .i32 "b" (.splice (-2.5) (some 1) (some (.named "a"))) (some "c"),
      .edit .i32 "c" .shift none, .edit .i32 "c" .pop none]
    (empty.trace cs).map (fun r => (r.1, r.2.plain)) = empty.plain.trace cs :=
  ⟨wellFormed_empty, (trace_refines_lists empty wellFormed_empty _).1⟩

end Desk

end ValueEngine
