import ValueEngine.Proofs.Growable.Traversals

/-! Folds under mutation. A fold comes to the indices below the length that the array has at first,
in one order or the other, whatever the callback does to the array. An index that the array does
not have at that moment is passed over, and the fold goes on behind it; at every other one the
callback gets the accumulator, which is the result of the call before, and the element that is
live then. A callback that leaves the array alone makes the folds those of lists. -/

namespace ValueEngine.Growable

variable {σ α : Type} [Element α]

/-- What happens at an index that a fold comes to. -/
structure Turn (σ α : Type) where
  index : ℕ
  before : σ
  accumulator : α
  /-- The element that the callback is called with and what the call comes to; none if the index
  is passed over. -/
  call : Option (α × Except ArrayFault Result)
  after : σ

/-- What a turn hands on to the next one: the accumulator as it is, or the result of the call. A
failure and a result of another kind are handed on as failures. -/
def Turn.handsOn (v : Turn σ α) : Except ArrayFault α :=
  match v.call with
  | none => .ok v.accumulator
  | .some (_, .error f) => .error f
  | .some (_, .ok r) =>
    match Element.ofResult? r with
    | .some y => .ok y
    | none => .error (.wrongResult r.kind? (Element.kind α))

/-- The turns of a fold over the indices of an order, from an accumulator and a state to an
answer and a state. -/
structure Turns (place : Place σ (Growable α)) (c : Closure σ α) (order : List ℕ) (init : α)
    (s : σ) (turns : List (Turn σ α)) (answer : Except ArrayFault α) (t : σ) : Prop where
  /-- The indices of the order have their turns one after the other. -/
  inOrder : turns.map (·.index) <+: order
  /-- Each turn finds the state that the one before it has left. -/
  linked : turns.map (·.before) ++ [t] = s :: turns.map (·.after)
  /-- Each turn has the accumulator that the one before it hands on, so that nothing but the last
  one may fail, and what the last one hands on is the answer. -/
  threaded : turns.map (fun v => .ok v.accumulator) ++ [answer] = .ok init :: turns.map Turn.handsOn
  /-- An index is passed over if the array is too short for it at that moment. -/
  passed : ∀ v ∈ turns, v.call = none →
    (place.read v.before).toList.length ≤ v.index ∧ v.after = v.before
  /-- At any other one the callback is called with the element that is live there. -/
  called : ∀ v ∈ turns, ∀ x r, v.call = .some (x, r) →
    (place.read v.before).toList[v.index]? = .some x ∧
      (c.run [.context c.context, .element v.accumulator, .element x, .index v.index,
        .receiver]).outcome v.before = (r, v.after)
  /-- The whole order has its turns, unless one fails. -/
  ended : turns.length = order.length ∨ ∃ f, answer = .error f

/-! ### Turns -/

section Turns

variable (place : Place σ (Growable α)) (c : Closure σ α)

/-- The turn of an index, as the array and the callback have it. -/
def turnAt (i : ℕ) (acc : α) (s : σ) : Turn σ α :=
  match (place.read s).toList[i]? with
  | none => ⟨i, s, acc, none, s⟩
  | .some x =>
    let (r, t) := (c.onFold acc x i).outcome s
    ⟨i, s, acc, .some (x, r), t⟩

variable {place c} {order : List ℕ} {i : ℕ} {init acc : α} {s t : σ} {v : Turn σ α}
  {turns : List (Turn σ α)} {answer : Except ArrayFault α}

omit [Element α] in
theorem turnAt_passed (h : (place.read s).toList[i]? = none) :
    turnAt place c i acc s = ⟨i, s, acc, none, s⟩ := by
  rw [turnAt, h]

omit [Element α] in
theorem turnAt_called {x : α} (h : (place.read s).toList[i]? = .some x) :
    turnAt place c i acc s = ⟨i, s, acc, .some (x, ((c.onFold acc x i).outcome s).1),
      ((c.onFold acc x i).outcome s).2⟩ := by
  rw [turnAt, h]

omit [Element α] in
/-- What a turn says about itself settles which one it is. -/
theorem eq_turnAt_iff :
    v = turnAt place c i acc s ↔ v.index = i ∧ v.before = s ∧ v.accumulator = acc ∧
      (v.call = none → (place.read v.before).toList.length ≤ v.index ∧ v.after = v.before) ∧
      ∀ x r, v.call = .some (x, r) → (place.read v.before).toList[v.index]? = .some x ∧
        (c.onFold v.accumulator x v.index).outcome v.before = (r, v.after) := by
  obtain ⟨j, b, a, call, u⟩ := v
  constructor
  · intro h
    cases hlive : (place.read s).toList[i]? with
    | none =>
      rw [turnAt_passed hlive] at h
      cases h
      exact ⟨rfl, rfl, rfl, fun _ => ⟨List.getElem?_eq_none_iff.mp hlive, rfl⟩, nofun⟩
    | some x =>
      rw [turnAt_called hlive] at h
      cases h
      refine ⟨rfl, rfl, rfl, nofun, ?_⟩
      intro y r hcall
      cases hcall
      exact ⟨hlive, rfl⟩
  · rintro ⟨rfl, rfl, rfl, hpassed, hcalled⟩
    cases call with
    | none =>
      obtain ⟨hshort, hafter⟩ := hpassed rfl
      dsimp only at hshort hafter
      subst hafter
      exact (turnAt_passed (List.getElem?_eq_none hshort)).symm
    | some call =>
      obtain ⟨hlive, hcall⟩ := hcalled call.1 call.2 rfl
      dsimp only at hlive hcall
      rw [turnAt_called hlive, hcall]

/-- A fold takes the turn of the first index, and goes on with what it hands on. -/
theorem foldAt_cons_outcome :
    (foldAt place c (i :: order) acc).outcome s =
      match (turnAt place c i acc s).handsOn with
      | .ok next => (foldAt place c order next).outcome (turnAt place c i acc s).after
      | .error f => (.error f, (turnAt place c i acc s).after) := by
  rw [foldAt, Action.outcome_bind, Action.outcome_get]
  dsimp only
  rw [get?_eq_getElem?_toList]
  cases hlive : (place.read s).toList[i]? with
  | none => rw [turnAt_passed hlive, Turn.handsOn]
  | some x =>
    rw [turnAt_called hlive, Turn.handsOn, Action.outcome_bind]
    rcases (c.onFold acc x i).outcome s with ⟨r, t⟩
    cases r with
    | error f => rfl
    | ok r =>
      dsimp only
      rw [Action.outcome_bind, Action.outcome_ofExcept, unpack]
      cases (Element.ofResult? r : Option α) <;> rfl

theorem turns_nil_iff :
    Turns place c order init s [] answer t ↔ order = [] ∧ answer = .ok init ∧ t = s := by
  constructor
  · intro h
    have hlinked := h.linked
    have hthreaded := h.threaded
    have hended := h.ended
    simp only [List.map_nil, List.nil_append, List.cons.injEq, and_true] at hlinked hthreaded
    subst hlinked hthreaded
    simpa [eq_comm] using hended
  · rintro ⟨rfl, rfl, rfl⟩
    exact ⟨List.nil_prefix, rfl, rfl, by simp, by simp, .inl rfl⟩

/-- The first turn of a fold, and what follows it. -/
theorem turns_cons_iff :
    Turns place c (i :: order) init s (v :: turns) answer t ↔ v = turnAt place c i init s ∧
      ((∃ next, v.handsOn = .ok next ∧ Turns place c order next v.after turns answer t) ∨
        ∃ f, v.handsOn = .error f ∧ turns = [] ∧ answer = .error f ∧ t = v.after) := by
  constructor
  · intro h
    obtain ⟨hindex, horder⟩ := List.cons_prefix_cons.mp h.inOrder
    obtain ⟨hbefore, hlinked⟩ := List.cons.inj h.linked
    obtain ⟨hacc, hthreaded⟩ := List.cons.inj h.threaded
    refine ⟨eq_turnAt_iff.mpr ⟨hindex, hbefore, Except.ok.inj hacc, h.passed v List.mem_cons_self,
      h.called v List.mem_cons_self⟩, ?_⟩
    rw [List.map_cons] at hlinked hthreaded
    cases hon : v.handsOn with
    | ok next =>
      rw [hon] at hthreaded
      refine .inl ⟨next, rfl, horder, hlinked, hthreaded, ?_, ?_, ?_⟩
      · exact fun w hw => h.passed w (List.mem_cons_of_mem v hw)
      · exact fun w hw => h.called w (List.mem_cons_of_mem v hw)
      · exact h.ended.imp_left Nat.succ.inj
    | error f =>
      rw [hon] at hthreaded
      cases turns with
      | nil => exact .inr ⟨f, rfl, rfl, (List.cons.inj hthreaded).1, (List.cons.inj hlinked).1⟩
      | cons w rest => cases hthreaded
  · rintro ⟨hv, hrest⟩
    obtain ⟨rfl, rfl, rfl, hpassed, hcalled⟩ := eq_turnAt_iff.mp hv
    obtain ⟨next, hon, hrest⟩ | ⟨f, hon, rfl, rfl, rfl⟩ := hrest
    · refine ⟨List.cons_prefix_cons.mpr ⟨rfl, hrest.inOrder⟩, ?_, ?_, ?_, ?_, ?_⟩
      · rw [List.map_cons, List.cons_append, hrest.linked, List.map_cons]
      · rw [List.map_cons, List.cons_append, hrest.threaded, List.map_cons, hon]
      · exact List.forall_mem_cons.mpr ⟨hpassed, hrest.passed⟩
      · exact List.forall_mem_cons.mpr ⟨hcalled, hrest.called⟩
      · exact hrest.ended.imp_left (congrArg Nat.succ)
    · refine ⟨List.cons_prefix_cons.mpr ⟨rfl, List.nil_prefix⟩, rfl, ?_, ?_, ?_, .inr ⟨f, rfl⟩⟩
      · rw [List.map_singleton, List.map_singleton, hon]
        rfl
      · exact List.forall_mem_singleton.mpr hpassed
      · exact List.forall_mem_singleton.mpr hcalled

/-- The outcome of a fold is what some turns come to. -/
theorem foldAt_outcome_iff :
    (foldAt place c order init).outcome s = (answer, t) ↔
      ∃ turns, Turns place c order init s turns answer t := by
  induction order generalizing init s with
  | nil =>
    constructor
    · intro h
      cases h
      exact ⟨[], turns_nil_iff.mpr ⟨rfl, rfl, rfl⟩⟩
    · rintro ⟨turns, hturns⟩
      obtain rfl : turns = [] := List.map_eq_nil_iff.mp (List.prefix_nil.mp hturns.inOrder)
      obtain ⟨-, rfl, rfl⟩ := turns_nil_iff.mp hturns
      rfl
  | cons i order ih =>
    rw [foldAt_cons_outcome]
    constructor
    · intro h
      cases hon : (turnAt place c i init s).handsOn with
      | ok next =>
        rw [hon] at h
        obtain ⟨turns, hturns⟩ := ih.mp h
        exact ⟨_, turns_cons_iff.mpr ⟨rfl, .inl ⟨next, hon, hturns⟩⟩⟩
      | error f =>
        rw [hon] at h
        cases h
        exact ⟨_, turns_cons_iff.mpr ⟨rfl, .inr ⟨f, hon, rfl, rfl, rfl⟩⟩⟩
    · rintro ⟨turns, hturns⟩
      cases turns with
      | nil => cases (turns_nil_iff.mp hturns).1
      | cons v turns =>
        obtain ⟨rfl, ⟨next, hon, hrest⟩ | ⟨f, hon, rfl, rfl, rfl⟩⟩ := turns_cons_iff.mp hturns
        · rw [hon]
          exact ih.mpr ⟨turns, hrest⟩
        · rw [hon]

end Turns

/-! ### Callbacks that leave the array alone -/

section Steady

variable (place : Place σ (Growable α)) (c : Closure σ α)

/-- While the array is as it is in `s`, the callback succeeds on each accumulator and each element
with its index, leaves the array as it is and answers what `f` says. -/
def Steady (s : σ) (f : α → α × ℕ → α) : Prop :=
  ∀ t, place.read t = place.read s → ∀ acc, ∀ q ∈ (place.read s).toList.zipIdx,
    ∃ r u, (c.onFold acc q.1 q.2).outcome t = (.ok r, u) ∧ place.read u = place.read s ∧
      Element.ofResult? r = Option.some (f acc q)

variable {place c}

/-- With a steady callback, a fold is that of the list of what the array has at the indices. -/
theorem Steady.foldAt {s : σ} {f : α → α × ℕ → α} (hc : Steady place c s f) (order : List ℕ)
    (acc : α) (t : σ) (ht : place.read t = place.read s) :
    Action.Ensures (foldAt place c order acc) t fun x u =>
      x = (order.filterMap fun i => ((place.read s).toList[i]?).map (·, i)).foldl f acc ∧
        place.read u = place.read s := by
  induction order generalizing acc t with
  | nil => exact Action.ensures_pure ⟨rfl, ht⟩
  | cons i order ih =>
    rw [Action.Ensures, foldAt_cons_outcome]
    cases hlive : (place.read s).toList[i]? with
    | none =>
      rw [turnAt_passed (by rw [ht, hlive]), List.filterMap_cons, hlive]
      exact ih acc t ht
    | some x =>
      obtain ⟨r, u, hcall, hu, hr⟩ := hc t ht acc (x, i) (List.mem_zipIdx_iff_getElem?.mpr hlive)
      dsimp only at hcall
      rw [turnAt_called (by rw [ht, hlive]), hcall, List.filterMap_cons, hlive, Turn.handsOn]
      dsimp only
      rw [hr]
      exact ih (f acc (x, i)) u hu

omit [Element α] in
/-- What a list has at the indices below `n` are its first `n` elements. -/
theorem filterMap_range (xs : List α) (n : ℕ) :
    ((List.range n).filterMap fun i => (xs[i]?).map (·, i)) = (xs.take n).zipIdx := by
  induction n with
  | zero => rfl
  | succ n ih =>
    rw [List.range_succ, List.filterMap_append, ih, List.take_add_one, List.zipIdx_append]
    cases hx : xs[n]? with
    | none => simp [hx]
    | some x =>
      have hn : n ≤ xs.length := Nat.le_of_lt (List.getElem?_eq_some_iff.mp hx).1
      simp [hx, hn]

omit [Element α] in
/-- All elements are met below the length. -/
theorem filterMap_range_length (g : Growable α) :
    ((List.range g.length).filterMap fun i => (g.toList[i]?).map (·, i)) = g.toList.zipIdx := by
  have hlen : g.toList.length ≤ g.length := by
    rw [toList, Array.length_toList, Array.size_extract]
    omega
  rw [filterMap_range, List.take_of_length_le hlen]

theorem Steady.reduce {s : σ} {f : α → α × ℕ → α} (hc : Steady place c s f) (init : α) :
    Yields place (reduce place c init) s ((place.read s).toList.zipIdx.foldl f init) := by
  apply Action.ensures_get_bind
  rw [← filterMap_range_length]
  exact hc.foldAt _ init s rfl

theorem Steady.reduceRight {s : σ} {f : α → α × ℕ → α} (hc : Steady place c s f) (init : α) :
    Yields place (reduceRight place c init) s
      ((place.read s).toList.zipIdx.foldr (fun q acc => f acc q) init) := by
  apply Action.ensures_get_bind
  rw [← filterMap_range_length, ← List.foldl_reverse, ← List.filterMap_reverse]
  exact hc.foldAt _ init s rfl

end Steady

/-! ### The laws of folds -/

section Laws

variable (place : Place σ (Growable α)) (c : Closure σ α)

/-- A fold comes to the indices below the length that it finds, and to no others, in an order in
which one comes before another, and its outcome is what their turns come to. -/
structure FoldsBy (m : α → Action σ ArrayFault α) (order : ℕ → List ℕ) (before : ℕ → ℕ → Prop) :
    Prop where
  ordered : ∀ n, (order n).Pairwise before
  mem_order : ∀ n i, i ∈ order n ↔ i < n
  outcome : ∀ init s answer t, (m init).outcome s = (answer, t) ↔
    ∃ turns, Turns place c (order (place.read s).length) init s turns answer t

theorem foldsBy_reduce : FoldsBy place c (reduce place c) List.range (· < ·) where
  ordered _ := List.pairwise_lt_range
  mem_order _ _ := List.mem_range
  outcome _ _ _ _ := foldAt_outcome_iff

theorem foldsBy_reduceRight :
    FoldsBy place c (reduceRight place c) (fun n => (List.range n).reverse) (· > ·) where
  ordered _ := List.pairwise_reverse.mpr List.pairwise_lt_range
  mem_order _ _ := List.mem_reverse.trans List.mem_range
  outcome _ _ _ _ := foldAt_outcome_iff

/-- **Folds are correct under mutation.** Whatever a callback does to the array, a fold comes to
the indices below the first length upwards or downwards, passes over those that the array has
lost, threads the accumulator through its calls and ends with the first failure; with a callback
that leaves the array alone it is the fold of the list of the elements with their indices. -/
theorem folds_follow_their_turns :
    FoldsBy place c (reduce place c) List.range (· < ·) ∧
      FoldsBy place c (reduceRight place c) (fun n => (List.range n).reverse) (· > ·) ∧
      ∀ s f, Steady place c s f → ∀ init,
        Yields place (reduce place c init) s ((place.read s).toList.zipIdx.foldl f init) ∧
        Yields place (reduceRight place c init) s
          ((place.read s).toList.zipIdx.foldr (fun q acc => f acc q) init) :=
  ⟨foldsBy_reduce place c, foldsBy_reduceRight place c,
    fun _ _ hc init => ⟨hc.reduce init, hc.reduceRight init⟩⟩

end Laws

/-- A callback that appends a digit to a number, and removes elements from the array. -/
def digits (removed : ℕ) : Closure (Growable Int32) Int32 where
  context := 0
  returns := .i32
  run
    | [_, .element acc, .element x, _, _] => do
      modify fun g => g.setLength (g.length - removed)
      return .i32 (10 * acc + x)
    | _ => return .void

/-- From the right every other element is passed over if each call removes two of them; with
none removed, the digits are read in either direction. -/
theorem folds_follow_their_turns_digits :
    let whole : Place (Growable Int32) (Growable Int32) := .whole
    (reduceRight whole (digits 2) 0).outcome ⟨#[1, 2, 3, 4], 4⟩ = (.ok 42, ⟨#[0, 0, 0, 0], 0⟩) ∧
      Yields whole (reduce whole (digits 0) 0) ⟨#[1, 2, 3, 0], 3⟩ 123 ∧
      Yields whole (reduceRight whole (digits 0) 0) ⟨#[1, 2, 3, 0], 3⟩ 321 := by
  intro whole
  constructor
  · have hturns : Turns whole (digits 2) [3, 2, 1, 0] 0 ⟨#[1, 2, 3, 4], 4⟩
        [⟨3, ⟨#[1, 2, 3, 4], 4⟩, 0, .some (4, .ok (.i32 4)), ⟨#[1, 2, 0, 0], 2⟩⟩,
          ⟨2, ⟨#[1, 2, 0, 0], 2⟩, 4, none, ⟨#[1, 2, 0, 0], 2⟩⟩,
          ⟨1, ⟨#[1, 2, 0, 0], 2⟩, 4, .some (2, .ok (.i32 42)), ⟨#[0, 0, 0, 0], 0⟩⟩,
          ⟨0, ⟨#[0, 0, 0, 0], 0⟩, 42, none, ⟨#[0, 0, 0, 0], 0⟩⟩]
        (.ok 42) ⟨#[0, 0, 0, 0], 0⟩ := by
      refine turns_cons_iff.mpr ⟨rfl, .inl ⟨4, rfl, ?_⟩⟩
      refine turns_cons_iff.mpr ⟨rfl, .inl ⟨4, rfl, ?_⟩⟩
      refine turns_cons_iff.mpr ⟨rfl, .inl ⟨42, rfl, ?_⟩⟩
      refine turns_cons_iff.mpr ⟨rfl, .inl ⟨42, rfl, ?_⟩⟩
      exact turns_nil_iff.mpr ⟨rfl, rfl, rfl⟩
    exact ((folds_follow_their_turns whole (digits 2)).2.1.outcome _ _ _ _).mpr ⟨_, hturns⟩
  · have hsteady : Steady whole (digits 0) ⟨#[1, 2, 3, 0], 3⟩ fun acc q => 10 * acc + q.1 := by
      rintro t rfl acc q _
      exact ⟨_, _, rfl, rfl, rfl⟩
    exact (folds_follow_their_turns whole (digits 0)).2.2 _ _ hsteady 0

end ValueEngine.Growable
