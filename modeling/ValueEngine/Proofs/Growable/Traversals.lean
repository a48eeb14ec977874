import Mathlib.Tactic.SplitIfs
import ValueEngine.Growable.Function
import ValueEngine.Proofs.Action
import ValueEngine.Proofs.Growable.Visits

/-! The traversal methods answer by their calls. Each method makes the one list of calls that its
way of judging results allows, whatever the callback does to the array, and its answer is a
function of the elements and results heard. The number of elements is read once at the start,
and an element when its turn comes; a traversal ends where there is none any more. A callback
that leaves the array alone makes the methods the list functions of the same names. What a
method makes of its answers is new storage, which the callback cannot reach. -/

namespace ValueEngine.Growable

open ValueEngine.Action (Ensures)

variable {σ α β γ δ : Type}

section

variable (place : Place σ (Growable α)) (c : Closure σ α)
variable (judge : Result → Except ArrayFault γ) (halts : γ → Bool)

/-- A method makes the calls of a traversal of the array that it finds, and its outcome is
a reply to what it has heard. -/
def AnswersBy (m : Action σ ArrayFault δ) (reply : List (α × γ) → δ) : Prop :=
  ∀ s r t, m.outcome s = (r, t) ↔
    ∃ visits, Visits place c judge halts (place.read s).length 0 s visits t ∧
      r = (answers judge (visits.map Visit.heard)).map reply

/-- While the array is as it is in `s`, the callback succeeds on each element with its index,
leaves the array as it is and answers what `p` says. -/
def Quiet (s : σ) (p : α × ℕ → γ) : Prop :=
  ∀ t, place.read t = place.read s → ∀ q ∈ (place.read s).toList.zipIdx,
    ∃ r u, (c.onElement q.1 q.2).outcome t = (.ok r, u) ∧ place.read u = place.read s ∧
      judge r = .ok (p q)

/-- From `s` a method leaves the array as it is and answers `d`. -/
def Yields (m : Action σ ArrayFault δ) (s : σ) (d : δ) : Prop :=
  Ensures m s fun x t => x = d ∧ place.read t = place.read s

end

variable {place : Place σ (Growable α)} {c : Closure σ α}
variable {judge : Result → Except ArrayFault γ} {halts : γ → Bool}
variable {next : ℕ → α → γ → β → β} {f : ℕ → α → β → Action σ ArrayFault (β × Bool)}

/-- A method that works up what a traversal gathers. -/
theorem answersBy_of_takesIn (hf : TakesIn c judge halts next f) {init : β} (finish : β → δ)
    {reply : List (α × γ) → δ}
    (hreply : ∀ ps, (∀ p ∈ ps.dropLast, halts p.2 = false) →
      finish (gather next 0 ps init) = reply ps) :
    AnswersBy place c judge halts (do return finish (← visit place f init)) reply := by
  intro s r t
  obtain ⟨visits, u, hvisits, hout⟩ : ∃ visits u,
      Visits place c judge halts (place.read s).length 0 s visits u ∧
        (visitFrom place f (place.read s).length 0 init).outcome s =
          ((answers judge (visits.map Visit.heard)).map fun ps => gather next 0 ps init, u) :=
    visitFrom_visits hf (place.read s).length 0 init s
  have houtcome : (do return finish (← visit place f init) : Action σ ArrayFault δ).outcome s =
      ((answers judge (visits.map Visit.heard)).map reply, u) := by
    have hvisit : (visit place f init).outcome s =
        ((answers judge (visits.map Visit.heard)).map fun ps => gather next 0 ps init, u) := by
      rw [visit, Action.outcome_bind, Action.outcome_get]
      exact hout
    rw [Action.outcome_bind, hvisit]
    cases hps : answers judge (visits.map Visit.heard) with
    | error e => rfl
    | ok ps =>
      have hps' := hreply ps (hvisits.onward_answers hps)
      simp only [Except.map, Action.outcome_pure, hps']
  rw [houtcome]
  constructor
  · rintro h
    cases h
    exact ⟨visits, hvisits, rfl⟩
  · rintro ⟨visits', hvisits', rfl⟩
    obtain ⟨rfl, rfl⟩ := hvisits.unique hvisits'
    rfl

/-! ### Methods and the calls they make -/

section Methods

theorem outcome_ask (c : Closure σ α) (x : α) (i : ℕ) (s : σ) :
    (ask c x i).outcome s =
      (((c.onElement x i).outcome s).1 >>= Result.truthy, ((c.onElement x i).outcome s).2) := by
  rw [ask, Action.outcome_bind]
  rcases (c.onElement x i).outcome s with ⟨r, t⟩
  cases r with
  | error e => rfl
  | ok r => exact Action.outcome_ofExcept _ _

/-- A step that asks a predicate and does no more. -/
theorem takesIn_ask {halts : Bool → Bool} (next : ℕ → α → Bool → β → β) :
    TakesIn c Result.truthy halts next fun i x acc => do
      let b ← ask c x i
      return (next i x b acc, !halts b) := by
  intro i x acc s
  rw [Action.outcome_bind, outcome_ask]
  cases ((c.onElement x i).outcome s).1 >>= Result.truthy <;> rfl

theorem takesIn_discard :
    TakesIn c (fun _ => .ok ()) (fun _ => false) (fun _ _ _ _ => ()) fun i x (_ : Unit) => do
      discard (c.onElement x i)
      return ((), true) := by
  intro i x acc s
  have hcall : (discard (c.onElement x i)).outcome s =
      (((c.onElement x i).outcome s).1.map fun _ => (), ((c.onElement x i).outcome s).2) :=
    Action.outcome_map _ _ _
  rw [Action.outcome_bind, hcall]
  cases ((c.onElement x i).outcome s).1 <;> rfl

/-- With every answer but the last true, the last one decides whether all are. -/
theorem gather_all (i : ℕ) (ps : List (α × Bool)) (h : ∀ p ∈ ps.dropLast, (!p.2) = false) :
    gather (fun _ _ b _ => b) i ps true = ps.all (·.2) := by
  induction ps generalizing i with
  | nil => rfl
  | cons p ps ih =>
    cases ps with
    | nil => simp [gather]
    | cons q qs =>
      rw [List.dropLast_cons_cons, List.forall_mem_cons] at h
      obtain ⟨x, b⟩ := p
      obtain rfl : b = true := by simpa using h.1
      rw [gather, ih _ h.2]
      rfl

theorem gather_any (i : ℕ) (ps : List (α × Bool)) (h : ∀ p ∈ ps.dropLast, p.2 = false) :
    gather (fun _ _ b _ => b) i ps false = ps.any (·.2) := by
  induction ps generalizing i with
  | nil => rfl
  | cons p ps ih =>
    cases ps with
    | nil => simp [gather]
    | cons q qs =>
      rw [List.dropLast_cons_cons, List.forall_mem_cons] at h
      obtain ⟨x, b⟩ := p
      obtain rfl : b = false := h.1
      rw [gather, ih _ h.2]
      rfl

/-- With every answer but the last false, the last one is the entry found, if it is true. -/
theorem gather_entry (i : ℕ) (ps : List (α × Bool)) (h : ∀ p ∈ ps.dropLast, p.2 = false) :
    let entry := gather (fun i x b _ => if b then Option.some (i, x) else none) i ps none
    entry.map (·.2) = (ps.find? (·.2)).map (·.1) ∧
      entry.map (·.1) = (ps.findIdx? (·.2)).map (i + ·) := by
  induction ps generalizing i with
  | nil => exact ⟨rfl, rfl⟩
  | cons p ps ih =>
    obtain ⟨x, b⟩ := p
    cases ps with
    | nil => cases b <;> exact ⟨rfl, rfl⟩
    | cons q qs =>
      rw [List.dropLast_cons_cons, List.forall_mem_cons] at h
      obtain rfl : b = false := h.1
      obtain ⟨hfind, hindex⟩ := ih (i + 1) h.2
      refine ⟨hfind, ?_⟩
      rw [gather, List.findIdx?_cons]
      simp only [Bool.false_eq_true, if_false, Option.map_map]
      rw [hindex]
      congr 1
      funext k
      exact Nat.add_right_comm i 1 k

theorem gather_kept (i : ℕ) (ps : List (α × Bool)) (kept : List α) :
    gather (fun _ x b kept => if b then x :: kept else kept) i ps kept =
      ((ps.filter (·.2)).map (·.1)).reverse ++ kept := by
  induction ps generalizing i kept with
  | nil => rfl
  | cons p ps ih =>
    obtain ⟨x, b⟩ := p
    rw [gather, ih]
    cases b <;> simp

theorem gather_results (i : ℕ) (ps : List (α × γ)) (results : List γ) :
    gather (fun _ _ y results => y :: results) i ps results = (ps.map (·.2)).reverse ++ results := by
  induction ps generalizing i results with
  | nil => rfl
  | cons p ps ih =>
    rw [gather, ih]
    simp

variable (place c)

theorem every_answersBy : AnswersBy place c Result.truthy (!·) (every place c) (·.all (·.2)) := by
  have hstep : TakesIn c Result.truthy (!·) (fun _ _ b (_ : Bool) => b) fun i x _ => do
      let b ← ask c x i
      return (b, !!b) := takesIn_ask _
  simp only [Bool.not_not] at hstep
  have hm : every place c = (do return id (← visit place _ true)) := (bind_pure _).symm
  rw [hm]
  exact answersBy_of_takesIn hstep id fun ps hps => gather_all 0 ps hps

theorem some_answersBy : AnswersBy place c Result.truthy id (some place c) (·.any (·.2)) := by
  have hm : some place c = (do return id (← visit place _ false)) := (bind_pure _).symm
  rw [hm]
  exact answersBy_of_takesIn (takesIn_ask fun _ _ b _ => b) id fun ps hps => gather_any 0 ps hps

theorem forEach_answersBy :
    AnswersBy place c (fun _ => .ok ()) (fun _ => false) (forEach place c) fun _ => () := by
  have hm : forEach place c = (do return id (← visit place _ ())) := (bind_pure _).symm
  rw [hm]
  exact answersBy_of_takesIn takesIn_discard id fun _ _ => rfl

theorem filter_answersBy :
    AnswersBy place c Result.truthy (fun _ => false) (filter place c)
      fun ps => ofList ((ps.filter (·.2)).map (·.1)) := by
  have hstep : TakesIn c Result.truthy (fun _ => false)
      (fun _ x b kept => if b then x :: kept else kept) fun i x kept => do
        return (if ← ask c x i then x :: kept else kept, true) := takesIn_ask _
  apply answersBy_of_takesIn hstep (fun kept => ofList kept.reverse)
  intro ps _
  rw [gather_kept, List.append_nil, List.reverse_reverse]

theorem findEntry_takesIn : TakesIn c Result.truthy id
    (fun i x b (_ : Option (ℕ × α)) => if b then Option.some (i, x) else none) fun i x _ => do
      let b ← ask c x i
      return (if b then Option.some (i, x) else none, !b) :=
  takesIn_ask _

theorem find_answersBy :
    AnswersBy place c Result.truthy id (find? place c) fun ps => (ps.find? (·.2)).map (·.1) :=
  answersBy_of_takesIn (findEntry_takesIn c) (·.map (·.2)) fun ps hps => (gather_entry 0 ps hps).1

theorem findIndex_answersBy :
    AnswersBy place c Result.truthy id (findIndex? place c) fun ps => ps.findIdx? (·.2) := by
  apply answersBy_of_takesIn (findEntry_takesIn c) (·.map (·.1))
  intro ps hps
  rw [(gather_entry 0 ps hps).2]
  simp

theorem takesIn_unpack [Element β] :
    TakesIn c (unpack (β := β)) (fun _ => false) (fun _ _ y results => y :: results)
      fun i x results => do
        let y ← .ofExcept (unpack (← c.onElement x i))
        return ((y : β) :: results, true) := by
  intro i x acc s
  rw [Action.outcome_bind]
  rcases (c.onElement x i).outcome s with ⟨r, t⟩
  cases r with
  | error e => rfl
  | ok r =>
    change (Action.ofExcept (unpack r) >>= fun y : β => pure (y :: acc, true)).outcome t =
      ((unpack r).map fun y => (y :: acc, true), t)
    rw [Action.outcome_bind, Action.outcome_ofExcept]
    cases (unpack r : Except ArrayFault β) <;> rfl

theorem collect_answersBy [Element β] :
    AnswersBy place c unpack (fun _ => false) (collect place c)
      fun ps => ofList (ps.map fun p => (p.2 : β)) := by
  apply answersBy_of_takesIn (takesIn_unpack c) (fun results => ofList results.reverse)
  intro ps _
  rw [gather_results, List.append_nil, List.reverse_reverse]

/-- A mapping is refused at once, or it collects the results. -/
theorem map_outcome [Memory] [Element β] (config : Config) (s : σ) :
    (map place c config : Action σ ArrayFault (Growable β)).outcome s =
      if ¬ config.hasKind c.returns then (.error (.unregistered c.returns), s)
      else if c.returns ≠ Element.kind β then
        (.error (.wrongResult (Option.some c.returns) (Element.kind β)), s)
      else if Memory.grants 0 (place.read s).length then (collect place c).outcome s
      else (.error (.allocation (place.read s).length), s) := by
  rw [map, Action.outcome_bind, Action.outcome_get]
  dsimp only
  split_ifs <;> rfl

theorem map_eq_collect [Element β] {config : Config} (hkind : config.hasKind c.returns = true)
    (hreturns : c.returns = Element.kind β) :
    (map place c config : Action σ ArrayFault (Growable β)) = collect place c := by
  refine Action.ext fun s => ?_
  rw [map_outcome, if_neg (· hkind), if_neg (· hreturns), Memory.grants_boundless, if_pos rfl]

end Methods

/-! ### Callbacks that leave the array alone -/

section Quiet

/-- What has been heard of a list settles the outcome: it is the whole list, or its last
answer halts. -/
def Settles (halts : γ → Bool) (p : α × ℕ → γ) (zs : List (α × ℕ)) (n : ℕ) : Prop :=
  zs.length ≤ n ∨ ∃ q, (zs.take n).getLast? = Option.some q ∧ halts (p q) = true

/-- A quiet callback is called on the elements in order, until its answers settle the
outcome, and the array is then as it was. -/
theorem Visits.quiet {s u t : σ} {p : α × ℕ → γ} (hq : Quiet place c judge s p) {count i : ℕ}
    {visits : List (Visit σ α)} (h : Visits place c judge halts count i u visits t)
    (hu : place.read u = place.read s) (hcount : i + count = (place.read s).length) :
    let zs := (place.read s).toList.zipIdx.drop i
    answers judge (visits.map Visit.heard) =
        .ok ((zs.take visits.length).map fun q => (q.1, p q)) ∧
      place.read t = place.read s ∧ Settles halts p zs visits.length := by
  induction visits generalizing count i u with
  | nil =>
    obtain ⟨rfl, hend⟩ := visits_nil_iff.mp h
    refine ⟨rfl, hu, Or.inl ?_⟩
    rw [List.length_drop, List.length_zipIdx, List.length_nil, Nat.le_zero_eq,
      Nat.sub_eq_zero_iff_le]
    obtain hzero | hnone := hend
    · have hlen : (place.read s).toList.length ≤ (place.read s).length := by
        rw [toList, Array.length_toList, Array.size_extract]
        omega
      omega
    · rw [hu, get?_eq_getElem?_toList] at hnone
      exact List.getElem?_eq_none_iff.mp hnone
  | cons v rest ih =>
    obtain ⟨⟨rfl, hpos, hlive, hcall⟩, hrest⟩ := visits_cons_iff.mp h
    rw [hu, get?_eq_getElem?_toList, List.getElem?_eq_some_iff] at hlive
    obtain ⟨hi, hx⟩ := hlive
    have hi' : i < (place.read s).toList.zipIdx.length := by rwa [List.length_zipIdx]
    have hhead : (place.read s).toList.zipIdx[i] = (v.element, i) := by
      rw [List.getElem_zipIdx, hx, Nat.zero_add]
    have hdrop := List.drop_eq_getElem_cons hi'
    rw [hhead] at hdrop
    obtain ⟨r, w, hout, hw, hr⟩ := hq v.before hu (v.element, i) (hhead ▸ List.getElem_mem hi')
    rw [hout, Prod.mk.injEq] at hcall
    obtain ⟨hresult, rfl⟩ := hcall
    have hanswer : v.result >>= judge = .ok (p (v.element, i)) := by
      rw [← hresult]
      exact hr
    dsimp only
    rw [hdrop, List.length_cons, List.take_succ_cons, List.map_cons, List.map_cons, Visit.heard,
      answers, hanswer]
    obtain ⟨-, hmore⟩ | ⟨hstop, rfl, rfl⟩ := hrest
    · obtain ⟨hlater, ht, hsettled⟩ := ih hmore hw (by omega)
      refine ⟨by rw [hlater]; rfl, ht, ?_⟩
      obtain hall | ⟨q, hlast, hhalts⟩ := hsettled
      · exact Or.inl (by rw [List.length_cons]; omega)
      · refine Or.inr ⟨q, ?_, hhalts⟩
        rw [List.take_succ_cons, List.getLast?_cons, hlast, Option.getD_some]
    · refine ⟨rfl, hw, Or.inr ⟨(v.element, i), rfl, ?_⟩⟩
      cases hhalts : halts (p (v.element, i)) with
      | true => rfl
      | false => exact absurd ⟨_, hanswer, hhalts⟩ hstop

theorem AnswersBy.quiet {m : Action σ ArrayFault δ} {reply : List (α × γ) → δ} {s : σ} {d : δ}
    {p : α × ℕ → γ} (hm : AnswersBy place c judge halts m reply) (hq : Quiet place c judge s p)
    (hreply : ∀ n, Settles halts p (place.read s).toList.zipIdx n →
      reply (((place.read s).toList.zipIdx.take n).map fun q => (q.1, p q)) = d) :
    Yields place m s d := by
  obtain ⟨visits, hvisits, hout⟩ := (hm s _ _).mp rfl
  obtain ⟨hanswers, hread, hsettled⟩ := hvisits.quiet hq rfl (Nat.zero_add _)
  rw [List.drop_zero] at hanswers hsettled
  rw [hanswers] at hout
  refine ⟨d, (m.outcome s).2, ?_, rfl, hread⟩
  rw [← hreply _ hsettled]
  exact Prod.ext hout rfl

variable {zs : List (α × ℕ)} {n : ℕ}

/-- Where nothing halts, everything is heard. -/
theorem Settles.take_eq {p : α × ℕ → γ} (h : Settles (fun _ => false) p zs n) : zs.take n = zs := by
  obtain hall | ⟨q, -, hq⟩ := h
  · exact List.take_of_length_le hall
  · cases hq

variable {p : α × ℕ → Bool}

theorem Settles.all (h : Settles (!·) p zs n) :
    ((zs.take n).map fun q => (q.1, p q)).all (·.2) = zs.all p := by
  have hsplit : zs.all p = ((zs.take n).all p && (zs.drop n).all p) := by
    rw [← List.all_append, List.take_append_drop]
  rw [List.all_map, hsplit]
  change (zs.take n).all p = _
  obtain hall | ⟨q, hlast, hq⟩ := h
  · rw [List.drop_eq_nil_of_le hall, List.all_nil, Bool.and_true]
  · have hfalse : (zs.take n).all p = false :=
      List.all_eq_false.mpr ⟨q, List.mem_of_getLast? hlast, by simpa using hq⟩
    rw [hfalse, Bool.false_and]

theorem Settles.any (h : Settles id p zs n) :
    ((zs.take n).map fun q => (q.1, p q)).any (·.2) = zs.any p := by
  have hsplit : zs.any p = ((zs.take n).any p || (zs.drop n).any p) := by
    rw [← List.any_append, List.take_append_drop]
  rw [List.any_map, hsplit]
  change (zs.take n).any p = _
  obtain hall | ⟨q, hlast, hq⟩ := h
  · rw [List.drop_eq_nil_of_le hall, List.any_nil, Bool.or_false]
  · have htrue : (zs.take n).any p = true :=
      List.any_eq_true.mpr ⟨q, List.mem_of_getLast? hlast, hq⟩
    rw [htrue, Bool.true_or]

theorem Settles.find? (h : Settles id p zs n) :
    (((zs.take n).map fun q => (q.1, p q)).find? (·.2)).map (·.1) = (zs.find? p).map (·.1) := by
  have hsplit : zs.find? p = ((zs.take n).find? p).or ((zs.drop n).find? p) := by
    rw [← List.find?_append, List.take_append_drop]
  rw [List.find?_map, Option.map_map, hsplit]
  change ((zs.take n).find? p).map (·.1) = _
  obtain hall | ⟨q, hlast, hq⟩ := h
  · rw [List.drop_eq_nil_of_le hall, List.find?_nil, Option.or_none]
  · have hsome : ((zs.take n).find? p).isSome = true :=
      List.find?_isSome.mpr ⟨q, List.mem_of_getLast? hlast, hq⟩
    rw [Option.or_of_isSome hsome]

theorem Settles.findIdx? (h : Settles id p zs n) :
    ((zs.take n).map fun q => (q.1, p q)).findIdx? (·.2) = zs.findIdx? p := by
  have hsplit : zs.findIdx? p =
      ((zs.take n).findIdx? p).or (((zs.drop n).findIdx? p).map (· + (zs.take n).length)) := by
    rw [← List.findIdx?_append, List.take_append_drop]
  rw [List.findIdx?_map, hsplit]
  change (zs.take n).findIdx? p = _
  obtain hall | ⟨q, hlast, hq⟩ := h
  · rw [List.drop_eq_nil_of_le hall, List.findIdx?_nil, Option.map_none, Option.or_none]
  · have hsome : ((zs.take n).findIdx? p).isSome = true := by
      rw [List.findIdx?_isSome]
      exact List.any_eq_true.mpr ⟨q, List.mem_of_getLast? hlast, hq⟩
    rw [Option.or_of_isSome hsome]

theorem filter_map_fst (zs : List (α × ℕ)) (p : α × ℕ → Bool) :
    ((zs.map fun q => (q.1, p q)).filter (·.2)).map (·.1) = (zs.filter p).map (·.1) := by
  rw [List.filter_map, List.map_map]
  rfl

end Quiet

/-- Every method answers by the calls it makes. Nothing is called if the kind of result
that a mapping wants is not registered or not the one that the callback declares. -/
structure HeedsCalls {H : Type} [Element α] (place : Place (World H) (Growable α))
    (c : Closure (World H) α) : Prop where
  every : AnswersBy place c Result.truthy (!·) (every place c) (·.all (·.2))
  some : AnswersBy place c Result.truthy id (some place c) (·.any (·.2))
  forEach : AnswersBy place c (fun _ => .ok ()) (fun _ => false) (forEach place c) fun _ => ()
  filter : AnswersBy place c Result.truthy (fun _ => false) (filter place c)
    fun ps => ofList ((ps.filter (·.2)).map (·.1))
  find : AnswersBy place c Result.truthy id (find? place c) fun ps => (ps.find? (·.2)).map (·.1)
  /-- The element found is boxed by the engine as the calls have left it. -/
  boxed : ∀ w, (findBoxed place c).outcome w =
    match (find? place c).outcome w with
    | (.ok (.some x), u) =>
      (.ok (Element.box x u.engine).1, { u with engine := (Element.box x u.engine).2 })
    | (.ok none, u) => (.ok Box.undefined, u)
    | (.error e, u) => (.error e, u)
  findIndex : AnswersBy place c Result.truthy id (findIndex? place c) fun ps => ps.findIdx? (·.2)
  map : ∀ {β : Type} [Element β] (config : Config), config.hasKind c.returns = true →
    c.returns = Element.kind β → AnswersBy place c unpack (fun _ => false) (map place c config)
      fun ps => ofList (ps.map fun p => (p.2 : β))
  unregistered : ∀ {β : Type} [Element β] (config : Config) w, config.hasKind c.returns = false →
    (Growable.map (β := β) place c config).outcome w = (.error (.unregistered c.returns), w)
  mismatched : ∀ {β : Type} [Element β] (config : Config) w, config.hasKind c.returns = true →
    c.returns ≠ Element.kind β → (Growable.map (β := β) place c config).outcome w =
      (.error (.wrongResult (.some c.returns) (Element.kind β)), w)

/-- With a quiet callback every method is the list function of its name on the elements with
their indices. -/
structure ActsOnList {H : Type} (place : Place (World H) (Growable α)) (c : Closure (World H) α)
    (w : World H) (zs : List (α × ℕ)) : Prop where
  every : ∀ p, Quiet place c Result.truthy w p → Yields place (every place c) w (zs.all p)
  some : ∀ p, Quiet place c Result.truthy w p → Yields place (some place c) w (zs.any p)
  forEach : ∀ p, Quiet place c (fun _ => .ok ()) w p → Yields place (forEach place c) w ()
  filter : ∀ p, Quiet place c Result.truthy w p →
    Yields place (filter place c) w (ofList ((zs.filter p).map (·.1)))
  find : ∀ p, Quiet place c Result.truthy w p →
    Yields place (find? place c) w ((zs.find? p).map (·.1))
  findIndex : ∀ p, Quiet place c Result.truthy w p →
    Yields place (findIndex? place c) w (zs.findIdx? p)
  map : ∀ {β : Type} [Element β] (config : Config) p, config.hasKind c.returns = true →
    c.returns = Element.kind β → Quiet place c unpack w p →
      Yields place (map place c config) w (ofList (zs.map fun q => (p q : β)))

/-! ### The laws of traversals -/

section Laws

variable {H : Type} [Element α] (place : Place (World H) (Growable α)) (c : Closure (World H) α)

theorem findBoxed_outcome (w : World H) :
    (findBoxed place c).outcome w =
      match (find? place c).outcome w with
      | (.ok (.some x), u) =>
        (.ok (Element.box x u.engine).1, { u with engine := (Element.box x u.engine).2 })
      | (.ok none, u) => (.ok Box.undefined, u)
      | (.error e, u) => (.error e, u) := by
  rw [findBoxed, Action.outcome_bind]
  rcases (find? place c).outcome w with ⟨r, u⟩
  cases r with
  | error e => rfl
  | ok found => cases found <;> rfl

theorem heedsCalls : HeedsCalls place c where
  every := every_answersBy place c
  some := some_answersBy place c
  forEach := forEach_answersBy place c
  filter := filter_answersBy place c
  find := find_answersBy place c
  boxed := findBoxed_outcome place c
  findIndex := findIndex_answersBy place c
  map _ hkind hreturns := by
    rw [map_eq_collect place c hkind hreturns]
    exact collect_answersBy place c
  unregistered config w hkind := by
    rw [map_outcome, if_pos (by rw [hkind]; exact Bool.false_ne_true)]
  mismatched config w hkind hreturns := by
    rw [map_outcome, if_neg (· hkind), if_pos hreturns]

omit [Element α] in
theorem actsOnList (w : World H) : ActsOnList place c w (place.read w).toList.zipIdx where
  every _ hq := (every_answersBy place c).quiet hq fun _ hn => hn.all
  some _ hq := (some_answersBy place c).quiet hq fun _ hn => hn.any
  forEach _ hq := (forEach_answersBy place c).quiet hq fun _ _ => rfl
  filter p hq := by
    apply (filter_answersBy place c).quiet hq
    intro n hn
    rw [hn.take_eq, filter_map_fst]
  find _ hq := (find_answersBy place c).quiet hq fun _ hn => hn.find?
  findIndex _ hq := (findIndex_answersBy place c).quiet hq fun _ hn => hn.findIdx?
  map config p hkind hreturns hq := by
    rw [map_eq_collect place c hkind hreturns]
    apply (collect_answersBy place c).quiet hq
    intro n hn
    rw [hn.take_eq, List.map_map]
    rfl

/-- **Traversals are well behaved under re-entrant mutation.** Whatever a callback does to the
array and to the rest of the world, each method calls it on the indices in order with
the elements live at the time, stops at the first reason to, and answers by the
elements and results heard; with a callback that leaves the array alone it is the list
function of its name. -/
theorem traversals_follow_their_calls :
    HeedsCalls place c ∧ ∀ w, ActsOnList place c w (place.read w).toList.zipIdx :=
  ⟨heedsCalls place c, actsOnList place c⟩

end Laws

/-- A callback that removes the last element of an array kept by the host and says yes. -/
def popping : Closure (World (Growable Int32)) Int32 where
  context := 0
  returns := .bool
  run _ := do
    modify fun w => { w with host := (w.host.pop.map (·.2)).toOption.getD w.host }
    return .bool true

def evenness : Closure (World (Growable Int32)) Int32 where
  context := 0
  returns := .bool
  run
    | _ :: .element x :: _ => return .bool (x % 2 == 0)
    | _ => return .void

/-- Of three elements two are called, because by then only one is left; and the even ones of
four elements are kept. -/
theorem traversals_follow_their_calls_popping :
    let world (g : Growable Int32) : World (Growable Int32) := ⟨Engine.new .standard, .empty, g⟩
    (every World.hostPlace popping).outcome (world ⟨#[7, 8, 9], 3⟩) =
        (.ok true, world ⟨#[7, 0, 0], 1⟩) ∧
      Yields World.hostPlace (filter World.hostPlace evenness) (world ⟨#[1, 2, 3, 4, 0], 4⟩)
        (ofList [2, 4]) := by
  intro world
  constructor
  · have hcalls : Visits World.hostPlace popping Result.truthy (!·) 3 0 (world ⟨#[7, 8, 9], 3⟩)
        [⟨world ⟨#[7, 8, 9], 3⟩, 7, .ok (.bool true), world ⟨#[7, 8, 0], 2⟩⟩,
          ⟨world ⟨#[7, 8, 0], 2⟩, 8, .ok (.bool true), world ⟨#[7, 0, 0], 1⟩⟩]
        (world ⟨#[7, 0, 0], 1⟩) := by
      have hgo : GoesOn Result.truthy (!·) (.ok (.bool true)) := ⟨true, rfl, rfl⟩
      refine visits_cons_iff.mpr ⟨⟨rfl, by decide, rfl, rfl⟩, Or.inl ⟨hgo, ?_⟩⟩
      refine visits_cons_iff.mpr ⟨⟨rfl, by decide, rfl, rfl⟩, Or.inl ⟨hgo, ?_⟩⟩
      exact visits_nil_iff.mpr ⟨rfl, Or.inr rfl⟩
    have hevery := (traversals_follow_their_calls World.hostPlace popping).1.every
    exact (hevery _ _ _).mpr ⟨_, hcalls, rfl⟩
  · have hquiet : Quiet World.hostPlace evenness Result.truthy (world ⟨#[1, 2, 3, 4, 0], 4⟩)
        fun q => q.1 % 2 == 0 :=
      fun t ht q _ => ⟨_, t, rfl, ht, rfl⟩
    have hkept : ((⟨#[1, 2, 3, 4, 0], 4⟩ : Growable Int32).toList.zipIdx.filter
        fun q => q.1 % 2 == 0).map (·.1) = [2, 4] := by decide
    rw [← hkept]
    exact ((traversals_follow_their_calls World.hostPlace evenness).2 _).filter _ hquiet

end ValueEngine.Growable
