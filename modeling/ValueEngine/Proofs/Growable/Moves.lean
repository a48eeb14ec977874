import Mathlib.Data.Nat.Init
import Mathlib.Tactic.SplitIfs
import ValueEngine.Growable.Sort
import ValueEngine.Proofs.Growable.Traversals

/-! What methods with callbacks do to the state. Whatever a callback does and whatever it
answers, a traversal or a fold reaches its final state by calls of the callback alone, and
sorting by calls of the comparator and exchanges of elements. -/

namespace ValueEngine

variable {σ α : Type}

/-- A call of a closure leads from one state to the other. -/
def Closure.Calls (c : Closure σ α) (s t : σ) : Prop := ∃ args, ((c.run args).outcome s).2 = t

namespace Growable

open ValueEngine.Action

variable {β γ δ : Type} {place : Place σ (Growable α)} {c : Closure σ α}

/-- A call of the comparator or an exchange of two elements. -/
def Sorts (place : Place σ (Growable α)) (c : Closure σ α) (s t : σ) : Prop :=
  c.Calls s t ∨ ∃ i j, place.write ((place.read s).swap i j) s = t

theorem reaches_run (args : List (Argument α)) (s : σ) : Reaches c.Calls (c.run args) s :=
  Relation.ReflTransGen.single ⟨args, rfl⟩

theorem Visits.calls {judge : Result → Except ArrayFault γ} {halts : γ → Bool} {count i : ℕ}
    {s t : σ} {visits : List (Visit σ α)} (h : Visits place c judge halts count i s visits t) :
    Relation.ReflTransGen c.Calls s t := by
  induction visits generalizing count i s with
  | nil => rw [(visits_nil_iff.mp h).1]
  | cons v visits ih =>
    obtain ⟨⟨-, -, -, hcall⟩, hrest⟩ := visits_cons_iff.mp h
    have hfirst : c.Calls s v.after := ⟨_, congrArg (·.2) hcall⟩
    obtain ⟨-, hmore⟩ | ⟨-, -, rfl⟩ := hrest
    · exact (ih hmore).head hfirst
    · exact .single hfirst

/-- A method that answers by its calls does nothing but call. -/
theorem AnswersBy.reaches {judge : Result → Except ArrayFault γ} {halts : γ → Bool}
    {m : Action σ ArrayFault δ} {reply : List (α × γ) → δ}
    (h : AnswersBy place c judge halts m reply) (s : σ) : Reaches c.Calls m s := by
  obtain ⟨visits, hvisits, -⟩ := (h s _ _).mp rfl
  exact hvisits.calls

theorem Visits.length_le {judge : Result → Except ArrayFault γ} {halts : γ → Bool} {count i : ℕ}
    {s t : σ} {visits : List (Visit σ α)} (h : Visits place c judge halts count i s visits t) :
    visits.length ≤ count := by
  refine Nat.le_of_not_lt fun hmore => ?_
  have hvisit := List.getElem?_eq_getElem hmore
  exact Nat.lt_irrefl _ (h.called count _ hvisit).1

theorem length_answers {judge : Result → Except ArrayFault γ}
    {heard : List (α × Except ArrayFault Result)} {ps : List (α × γ)}
    (h : answers judge heard = .ok ps) : ps.length = heard.length := by
  induction heard generalizing ps with
  | nil =>
    cases h
    rfl
  | cons p heard ih =>
    obtain ⟨y, -, h⟩ := bind_eq_ok h
    obtain ⟨qs, hqs, h⟩ := bind_eq_ok h
    cases h
    rw [List.length_cons, List.length_cons, ih hqs]

/-- A result is a reply to no more calls than the array has elements. -/
theorem AnswersBy.reply_of_ok {judge : Result → Except ArrayFault γ} {halts : γ → Bool}
    {m : Action σ ArrayFault δ} {reply : List (α × γ) → δ}
    (h : AnswersBy place c judge halts m reply) {d : δ} {s t : σ}
    (hout : m.outcome s = (.ok d, t)) :
    ∃ ps, ps.length ≤ (place.read s).length ∧ reply ps = d := by
  obtain ⟨visits, hvisits, hd⟩ := (h s _ t).mp hout
  cases hps : answers judge (visits.map Visit.heard) with
  | error e =>
    rw [hps] at hd
    cases hd
  | ok ps =>
    have hlength := length_answers hps
    rw [List.length_map] at hlength
    rw [hps] at hd
    exact ⟨ps, Nat.le_trans (Nat.le_of_eq hlength) hvisits.length_le, (Except.ok.inj hd).symm⟩

theorem reaches_map [Memory] [Element β] (config : Config) (s : σ) :
    Reaches c.Calls (map place c config : Action σ ArrayFault (Growable β)) s := by
  rw [Reaches, map_outcome]
  split_ifs
  · exact .refl
  · exact (collect_answersBy place c).reaches s
  · exact .refl
  · exact .refl

/-- A mapping makes an array without spare cells, and no longer than the one mapped. -/
theorem map_eq_ofList [Memory] [Element β] {config : Config} {g : Growable β} {s t : σ}
    (hout : (map place c config).outcome s = (.ok g, t)) :
    ∃ xs, xs.length ≤ (place.read s).length ∧ ofList xs = g := by
  rw [map_outcome] at hout
  split_ifs at hout
  · cases hout
  · obtain ⟨ps, hlength, hps⟩ := (collect_answersBy place c).reply_of_ok hout
    exact ⟨_, Nat.le_trans (Nat.le_of_eq (List.length_map _)) hlength, hps⟩
  · cases hout
  · cases hout

/-- A filter makes an array without spare cells, and no longer than the one filtered. -/
theorem filter_eq_ofList {g : Growable α} {s t : σ}
    (hout : (filter place c).outcome s = (.ok g, t)) :
    ∃ xs, xs.length ≤ (place.read s).length ∧ ofList xs = g := by
  obtain ⟨ps, hlength, hps⟩ := (filter_answersBy place c).reply_of_ok hout
  refine ⟨_, ?_, hps⟩
  rw [List.length_map]
  exact Nat.le_trans (List.length_filter_le _ ps) hlength

section Folds

variable [Element α]

theorem reaches_foldAt (is : List ℕ) (acc : α) (s : σ) :
    Reaches c.Calls (foldAt place c is acc) s := by
  induction is generalizing acc s with
  | nil => exact reaches_pure acc
  | cons i is ih =>
    rw [foldAt]
    apply reaches_get_bind
    cases (place.read s).get? i with
    | none => exact ih acc s
    | some x =>
      refine (reaches_run _ s).bind fun r t _ => ?_
      exact (reaches_ofExcept (unpack r)).bind fun y u _ => ih y u

theorem reaches_reduce (init : α) (s : σ) : Reaches c.Calls (reduce place c init) s :=
  reaches_get_bind (reaches_foldAt _ init s)

theorem reaches_reduceRight (init : α) (s : σ) : Reaches c.Calls (reduceRight place c init) s :=
  reaches_get_bind (reaches_foldAt _ init s)

end Folds

section Sorting

variable {l r p q : ℕ} {pivot : α}

theorem reaches_judge (test : Float → Bool) (pivot x : α) (s : σ) :
    Reaches (Sorts place c) (judge c test pivot x) s := by
  have hcall : Reaches (Sorts place c) (c.onPair pivot x) s :=
    (reaches_run _ s).mono fun _ _ => Or.inl
  refine hcall.bind fun r t _ => ?_
  exact (reaches_ofExcept r.number).bind fun y _ _ => reaches_pure (test y)

theorem reaches_scanUp (h : p ≤ r) (s : σ) :
    Reaches (Sorts place c) (scanUp place c pivot r p h) s := by
  induction hn : r - p generalizing p s with
  | zero =>
    rw [scanUp, dif_neg (by omega)]
    exact reaches_pure _
  | succ n ih =>
    rw [scanUp, dif_pos (by omega)]
    apply reaches_get_bind
    cases (place.read s).get? p with
    | none => exact reaches_pure none
    | some x =>
      refine (reaches_judge _ pivot x s).bind fun b t _ => ?_
      cases b with
      | true => exact reaches_pure _
      | false => exact (ih _ t (by omega)).bind fun _ _ _ => reaches_pure _

theorem reaches_scanDown (h : l ≤ q) (s : σ) :
    Reaches (Sorts place c) (scanDown place c pivot l q h) s := by
  induction hn : q - l generalizing q s with
  | zero =>
    rw [scanDown, dif_neg (by omega)]
    exact reaches_pure _
  | succ n ih =>
    rw [scanDown, dif_pos (by omega)]
    apply reaches_get_bind
    cases (place.read s).get? q with
    | none => exact reaches_pure none
    | some x =>
      refine (reaches_judge _ pivot x s).bind fun b t _ => ?_
      cases b with
      | true => exact reaches_pure _
      | false => exact (ih _ t (by omega)).bind fun _ _ _ => reaches_pure _

theorem reaches_partitionFrom (p q : Between l r) (s : σ) :
    Reaches (Sorts place c) (partitionFrom place c pivot l r p q) s := by
  induction hn : r - p.1 using Nat.strong_induction_on generalizing p q s with
  | _ n ih =>
  rw [partitionFrom]
  refine (reaches_scanUp p.2.2 s).bind fun found t _ => ?_
  cases found with
  | none => exact reaches_pure none
  | some i =>
    obtain ⟨i, hpi, hir⟩ := i
    refine (reaches_scanDown q.2.1 t).bind fun found u _ => ?_
    cases found with
    | none => exact reaches_pure none
    | some j =>
      obtain ⟨j, hlj, hjq⟩ := j
      dsimp only
      split_ifs with hij
      · have hswap : Sorts place c u (place.write ((place.read u).swap i j) u) :=
          Or.inr ⟨_, _, rfl⟩
        exact (reaches_modify hswap).bind fun _ v _ => ih (r - (i + 1)) (by omega) _ _ v rfl
      · exact reaches_pure _

theorem reaches_sortRange (l r : ℕ) (s : σ) :
    Reaches (Sorts place c) (sortRange place c l r) s := by
  induction hn : r - l using Nat.strong_induction_on generalizing l r s with
  | _ n ih =>
  rw [sortRange]
  split_ifs with hlr
  · apply reaches_get_bind
    cases (place.read s).get? (l + (r - l) / 2) with
    | none => exact reaches_pure ()
    | some pivot =>
      refine (reaches_partitionFrom _ _ s).bind fun found t _ => ?_
      cases found with
      | none => exact reaches_pure ()
      | some j =>
        dsimp only
        refine (ih _ (by omega) l _ t rfl).bind fun _ u _ => ?_
        exact ih _ (by omega) _ r u rfl
  · exact reaches_pure ()

theorem reaches_sort (s : σ) : Reaches (Sorts place c) (sort place c) s := by
  rw [sort]
  apply reaches_get_bind
  dsimp only
  split_ifs
  · exact reaches_sortRange _ _ s
  · exact reaches_pure ()

end Sorting

end Growable

end ValueEngine
