import ValueEngine.Proofs.Growable.Moves
import ValueEngine.Proofs.Growable.Tasks
import ValueEngine.World

/-! The courses of requests. A program works on the arrays of a store by requests, one after
the other. A request does one task by itself, or has a method of an array call a closure, and
the closure works on the same store in the midst of the method. The course of a run lists all
these tasks in their order: each request's own one, and for a method its exchanges, the array
that it makes, and what every call comes to. A call starts in the world that everything before
it in the course has left, so the stores in which closures are called are stores on the way. -/

namespace ValueEngine

open ValueEngine.Action (Reaches reaches_pure reaches_get_bind reaches_modify)
open Store (Task Led)

variable {H : Type} {k : ElementKind}

/-- A method of an array of a kind that calls a closure. -/
inductive Method (k : ElementKind)
  | every
  | some
  | forEach
  | filter
  | find
  | findIndex
  | map (target : ElementKind)
  | reduce (init : k.Carrier)
  | reduceRight (init : k.Carrier)
  | sort

/-- Elements that a request lists, or those of the array of a number. -/
inductive Operand (α : Type)
  | listed (xs : List α)
  | held (id : ℕ)

/-- What a program may ask of the arrays. -/
inductive ArrayRequest (H : Type)
  | make (k : ElementKind) (xs : List k.Carrier)
  | makeFilled (k : ElementKind) (n : ℕ) (x : k.Carrier)
  | edit (k : ElementKind) (id : ℕ) (e : Edit (Operand k.Carrier) k.Carrier)
  | call (k : ElementKind) (id : ℕ) (m : Method k) (c : Closure (World H) k.Carrier)

def Operand.elements (s : Store) : Operand k.Carrier → List k.Carrier
  | listed xs => xs
  | held id => (s.get k id).toList

namespace Operation

/-- Carry out a task on the arrays of the world. -/
def work [Memory] (t : Task) : Action (World H) ArrayFault Unit := do
  let s ← .ofExcept ((← get).arrays.perform t)
  modify fun w => { w with arrays := s }

/-- Keep an array that a method has made. -/
def keep (k : ElementKind) (g : Growable k.Carrier) : Action (World H) ArrayFault Unit :=
  modify fun w => { w with arrays := (w.arrays.add k g).2 }

end Operation

variable [Memory]

namespace Operation

variable {may : Store → Task → Prop} {t : Task} {w : World H}

theorem outcome_work (t : Task) (w : World H) :
    ((work t).outcome w).2.arrays = w.arrays.step t := by
  rw [work, Action.outcome_bind, Action.outcome_get]
  dsimp only
  rw [Action.outcome_bind, Action.outcome_ofExcept, Store.step]
  cases w.arrays.perform t <;> rfl

/-- A permitted task is a step by permitted tasks. -/
theorem reaches_work (ht : may w.arrays t) :
    Reaches (fun u v => Led may u.arrays v.arrays) (work t) w := by
  apply Relation.ReflTransGen.single
  rw [outcome_work]
  exact .of_task ht

/-- Where single steps are by permitted tasks, the whole is. -/
theorem led_of_reaches {ε α : Type} {x : Action (World H) ε α}
    (h : Reaches (fun u v => Led may u.arrays v.arrays) x w) :
    Led may w.arrays (x.outcome w).2.arrays := by
  rw [Reaches] at h
  generalize (x.outcome w).2 = v at h
  induction h with
  | refl => exact .refl _
  | tail _ hstep ih => exact ih.trans hstep

end Operation

/-! ### What a method does itself -/

namespace Method

def run (id : ℕ) (c : Closure (World H) k.Carrier) (m : Method k) :
    Action (World H) ArrayFault Unit :=
  let place := World.arrayPlace k id
  match m with
  | every => discard (Growable.every place c)
  | some => discard (Growable.some place c)
  | forEach => Growable.forEach place c
  | filter => do Operation.keep k (← Growable.filter place c)
  | find => discard (Growable.findBoxed place c)
  | findIndex => discard (Growable.findIndex? place c)
  | map target => do Operation.keep target (← Growable.map place c (← get).engine.config)
  | reduce init => discard (Growable.reduce place c init)
  | reduceRight init => discard (Growable.reduceRight place c init)
  | sort => Growable.sort place c

omit [Memory] in
/-- The tasks that a method itself may do, besides those of its calls. -/
def Does (id : ℕ) (m : Method k) (t : Task) : Prop :=
  match m with
  | filter => ∃ xs, t = .make k xs
  | map target => ∃ xs, t = .make target xs
  | sort => ∃ i j, t = .exchange k id i j
  | _ => False

end Method

namespace ArrayRequest

/-- Carry a request out. Nothing is called for an array that is not there. -/
def run : ArrayRequest H → Action (World H) ArrayFault Unit
  | make k xs => Operation.work (.make k xs)
  | makeFilled k n x => Operation.work (.makeFilled k n x)
  | edit k id e => do
    let w ← get
    Operation.work (.edit k id (e.map (Operand.elements w.arrays)))
  | call k id m c => do
    let w ← get
    if w.arrays.kind? id = some k then m.run id c

/-- Carry requests out one after the other, whether they succeed or fail. -/
def runAll : List (ArrayRequest H) → World H → World H
  | [], w => w
  | r :: rs, w => runAll rs (r.run.outcome w).2

omit [Memory] in
/-- The tasks that a request itself may do. -/
def Does (r : ArrayRequest H) (t : Task) : Prop :=
  match r with
  | make k xs => t = .make k xs
  | makeFilled k n x => t = .makeFilled k n x
  | edit k id e => ∃ s, t = .edit k id (e.map (Operand.elements s))
  | call _ id m _ => m.Does id t

omit [Memory] in
/-- The one task of a request that calls nothing. -/
def task? (s : Store) : ArrayRequest H → Option Task
  | make k xs => some (.make k xs)
  | makeFilled k n x => some (.makeFilled k n x)
  | edit k id e => some (.edit k id (e.map (Operand.elements s)))
  | call .. => none

end ArrayRequest

/-! ### Courses of methods -/

namespace Method

/-- One stage of a method at work: a call, or something of its own. An array that it keeps has
a greatest length. -/
inductive Stage (id : ℕ) (c : Closure (World H) k.Carrier) (m : Method k) (longest : ℕ) :
    World H → World H → Prop
  | call (args : List (Argument k.Carrier)) (w : World H) :
    Stage id c m longest w ((c.run args).outcome w).2
  /-- What has been found is boxed. -/
  | box (x : k.Carrier) (w : World H) :
    Stage id c m longest w { w with engine := (Element.box x w.engine).2 }
  | keep {target : ElementKind} (xs : List target.Carrier) (w : World H)
    (hlength : xs.length ≤ longest) (h : m.Does id (.make target xs)) :
    Stage id c m longest w { w with arrays := (w.arrays.add target (.ofList xs)).2 }
  | exchange (i j : ℕ) (w : World H) (h : m.Does id (.exchange k id i j)) :
    Stage id c m longest w
      { w with arrays := w.arrays.put k id ((w.arrays.get k id).swap i j) }

/-- A world that a method may have got to by its stages. -/
def Reaching (id : ℕ) (c : Closure (World H) k.Carrier) (m : Method k) (w : World H) :
    World H → Prop :=
  Relation.ReflTransGen (m.Stage id c (w.arrays.get k id).length) w

variable {id : ℕ} {c : Closure (World H) k.Carrier} {m : Method k} {w : World H}

/-- A method gets to its end by stages. -/
theorem reaching_run (m : Method k) (c : Closure (World H) k.Carrier) (w : World H) :
    m.Reaching id c w ((m.run id c).outcome w).2 := by
  change Reaches (m.Stage id c (w.arrays.get k id).length) (m.run id c) w
  have hcall : ∀ u v, c.Calls u v → m.Stage id c (w.arrays.get k id).length u v := by
    rintro u v ⟨args, rfl⟩
    exact .call args u
  cases m with
  | every => exact (((Growable.every_answersBy _ c).reaches w).mono hcall).map _
  | some => exact (((Growable.some_answersBy _ c).reaches w).mono hcall).map _
  | forEach => exact ((Growable.forEach_answersBy _ c).reaches w).mono hcall
  | filter =>
    have hfilter := Growable.filter_answersBy (World.arrayPlace k id) c
    refine ((hfilter.reaches w).mono hcall).bind fun g t hout => ?_
    obtain ⟨xs, hlength, rfl⟩ := Growable.filter_eq_ofList hout
    exact reaches_modify (.keep xs t hlength ⟨xs, rfl⟩)
  | find =>
    have hfind := Growable.find_answersBy (World.arrayPlace k id) c
    have hfound : Reaches (Stage id c find (w.arrays.get k id).length)
        (Growable.findBoxed (World.arrayPlace k id) c) w := by
      refine ((hfind.reaches w).mono hcall).bind fun found t _ => ?_
      cases found with
      | none => exact reaches_pure _
      | some x => exact Relation.ReflTransGen.single (.box x t)
    exact hfound.map _
  | findIndex => exact (((Growable.findIndex_answersBy _ c).reaches w).mono hcall).map _
  | map target =>
    apply reaches_get_bind
    refine ((Growable.reaches_map _ w).mono hcall).bind fun g t hout => ?_
    obtain ⟨xs, hlength, rfl⟩ := Growable.map_eq_ofList hout
    exact reaches_modify (.keep xs t hlength ⟨xs, rfl⟩)
  | reduce init => exact ((Growable.reaches_reduce init w).mono hcall).map _
  | reduceRight init => exact ((Growable.reaches_reduceRight init w).mono hcall).map _
  | sort =>
    refine (Growable.reaches_sort w).mono fun u v huv => ?_
    obtain hcalls | ⟨i, j, rfl⟩ := huv
    · exact hcall u v hcalls
    · exact .exchange i j u ⟨i, j, rfl⟩

/-- The tasks of a method in their order. Those of a call are permitted to calls; those of the
method itself fit. -/
inductive Course (may fits : Store → Task → Prop) (id : ℕ) (c : Closure (World H) k.Carrier)
    (m : Method k) : World H → List Task → World H → Prop
  | done (w : World H) : Course may fits id c m w [] w
  | call {args : List (Argument k.Carrier)} {u w : World H} {us ts : List Task}
    (hus : u.arrays.AllPermitted may us)
    (hcall : u.arrays.after us = ((c.run args).outcome u).2.arrays)
    (hrest : Course may fits id c m ((c.run args).outcome u).2 ts w) :
    Course may fits id c m u (us ++ ts) w
  | own {t : Task} {u v w : World H} {ts : List Task} (ht : m.Does id t)
    (hfits : fits u.arrays t) (hstep : u.arrays.step t = v.arrays)
    (hrest : Course may fits id c m v ts w) : Course may fits id c m u (t :: ts) w
  | box {x : k.Carrier} {u w : World H} {ts : List Task}
    (hrest : Course may fits id c m { u with engine := (Element.box x u.engine).2 } ts w) :
    Course may fits id c m u ts w

variable {may fits : Store → Task → Prop}

/-- A method takes a course of permitted tasks, if its calls come to such tasks in the worlds
that it may have got to. -/
theorem exists_course
    (hcalls : ∀ u, m.Reaching id c w u → u.arrays.Has k id →
      ∀ args, Led may u.arrays ((c.run args).outcome u).2.arrays)
    (hmake : ∀ s target (xs : List target.Carrier), xs.length ≤ (w.arrays.get k id).length →
      fits s (.make target xs))
    (hexchange : ∀ s i j, fits s (.exchange k id i j)) (hw : w.arrays.Has k id) :
    ∃ ts, m.Course may fits id c w ts ((m.run id c).outcome w).2 := by
  have hfrom : ∀ u, m.Reaching id c w u → u.arrays.Has k id →
      Relation.ReflTransGen (m.Stage id c (w.arrays.get k id).length) u
        ((m.run id c).outcome w).2 →
      ∃ ts, m.Course may fits id c u ts ((m.run id c).outcome w).2 := by
    intro u hu hhas hrest
    induction hrest using Relation.ReflTransGen.head_induction_on with
    | refl => exact ⟨[], .done _⟩
    | @head u v hstage _ ih =>
      have hv := hu.tail hstage
      cases hstage with
      | call args =>
        obtain ⟨us, hus, hcall⟩ := hcalls u hu hhas args
        obtain ⟨ts, hts⟩ := ih hv (Led.has ⟨us, hus, hcall⟩ hhas)
        exact ⟨us ++ ts, .call hus hcall hts⟩
      | box x =>
        obtain ⟨ts, hts⟩ := ih hv hhas
        exact ⟨ts, .box hts⟩
      | @keep target xs _ hlength hdoes =>
        have hmade : Led (fun _ _ => True) u.arrays (u.arrays.step (.make target xs)) :=
          Led.of_task trivial
        obtain ⟨ts, hts⟩ := ih hv (hmade.has hhas)
        exact ⟨.make target xs :: ts, .own hdoes (hmake _ _ _ hlength) rfl hts⟩
      | exchange i j _ hdoes =>
        have hstep : u.arrays.step (.exchange k id i j) =
            u.arrays.put k id ((u.arrays.get k id).swap i j) := by
          rw [Store.step, Store.perform, if_pos hhas.2]
          rfl
        have hswapped : Led (fun _ _ => True) u.arrays (u.arrays.step (.exchange k id i j)) :=
          Led.of_task trivial
        rw [hstep] at hswapped
        obtain ⟨ts, hts⟩ := ih hv (hswapped.has hhas)
        exact ⟨.exchange k id i j :: ts, .own hdoes (hexchange _ _ _) hstep hts⟩
  exact hfrom w .refl hw (reaching_run m c w)

/-- The tasks of a course lead from the arrays at its start to those at its end. -/
theorem Course.led {u v : World H} {ts : List Task} (h : m.Course may fits id c u ts v)
    (ok : Store → Task → Prop) (hmay : ∀ s t, may s t → ok s t)
    (hown : ∀ s t, m.Does id t → fits s t → ok s t) :
    u.arrays.AllPermitted ok ts ∧ u.arrays.after ts = v.arrays := by
  induction h with
  | done w => exact ⟨trivial, rfl⟩
  | @call args u w us ts hus hcall _ ih =>
    rw [← hcall] at ih
    refine ⟨(hus.mono hmay).append ih.1, ?_⟩
    rw [← ih.2]
    exact List.foldl_append
  | own ht hfits hstep _ ih =>
    rw [← hstep] at ih
    exact ⟨⟨hown _ _ ht hfits, ih.1⟩, ih.2⟩
  | box _ ih => exact ih

end Method

/-! ### Courses of requests -/

namespace ArrayRequest

variable {may fits : Store → Task → Prop} {r : ArrayRequest H} {rs : List (ArrayRequest H)}
variable {w : World H} {t : Task}

omit [Memory] in
theorem does_of_task? {s : Store} (h : r.task? s = some t) : r.Does t := by
  cases r with
  | make k xs => exact (Option.some.inj h).symm
  | makeFilled k n x => exact (Option.some.inj h).symm
  | edit k id e => exact ⟨s, (Option.some.inj h).symm⟩
  | call => cases h

theorem outcome_of_task? (h : r.task? w.arrays = some t) :
    (r.run.outcome w).2.arrays = w.arrays.step t := by
  cases r with
  | make k xs =>
    cases h
    exact Operation.outcome_work _ w
  | makeFilled k n x =>
    cases h
    exact Operation.outcome_work _ w
  | edit k id e =>
    cases h
    rw [run, Action.outcome_bind, Action.outcome_get]
    exact Operation.outcome_work _ w
  | call => cases h

theorem outcome_call (k : ElementKind) (id : ℕ) (m : Method k) (c : Closure (World H) k.Carrier)
    (w : World H) : (call k id m c).run.outcome w =
      if w.arrays.kind? id = some k then (m.run id c).outcome w else (.ok (), w) := by
  rw [run, Action.outcome_bind, Action.outcome_get]
  dsimp only
  split_ifs <;> rfl

/-- The tasks of requests one after the other: of each its one task, or the course of the method
that it has run, in the world that the requests before it have left. -/
inductive Course (may fits : Store → Task → Prop) :
    List (ArrayRequest H) → World H → List Task → Prop
  | done (w : World H) : Course may fits [] w []
  | task {r : ArrayRequest H} {rs : List (ArrayRequest H)} {w : World H} {t : Task} {ts : List Task}
    (ht : r.task? w.arrays = some t) (hfits : fits w.arrays t)
    (hrest : Course may fits rs (r.run.outcome w).2 ts) : Course may fits (r :: rs) w (t :: ts)
  | call {k : ElementKind} {id : ℕ} {m : Method k} {c : Closure (World H) k.Carrier}
    {rs : List (ArrayRequest H)} {w : World H} {ts us : List Task}
    (hk : w.arrays.kind? id = some k)
    (hmethod : m.Course may fits id c w ts ((m.run id c).outcome w).2)
    (hrest : Course may fits rs ((m.run id c).outcome w).2 us) :
    Course may fits (call k id m c :: rs) w (ts ++ us)
  /-- There is no array to call for. -/
  | absent {k : ElementKind} {id : ℕ} {m : Method k} {c : Closure (World H) k.Carrier}
    {rs : List (ArrayRequest H)} {w : World H} {ts : List Task} (hk : w.arrays.kind? id ≠ some k)
    (hrest : Course may fits rs w ts) : Course may fits (call k id m c :: rs) w ts

/-- What a request does by itself fits, and its calls come to permitted tasks in the worlds that
its method may have got to. -/
def Behaves (may fits : Store → Task → Prop) (w : World H) : ArrayRequest H → Prop
  | call k id m c => ∀ u, m.Reaching id c w u → u.arrays.Has k id →
    ∀ args, Led may u.arrays ((c.run args).outcome u).2.arrays
  | r => ∀ t, r.task? w.arrays = some t → fits w.arrays t

/-- Every request behaves when its turn comes. -/
def AllBehave (may fits : Store → Task → Prop) : List (ArrayRequest H) → World H → Prop
  | [], _ => True
  | r :: rs, w => r.Behaves may fits w ∧ AllBehave may fits rs (r.run.outcome w).2

/-- The tasks of a course lead from the arrays at its start to those at its end. -/
theorem Course.led {ts : List Task} (h : Course may fits rs w ts) (ok : Store → Task → Prop)
    (hmay : ∀ s t, may s t → ok s t)
    (hown : ∀ r ∈ rs, ∀ s t, r.Does t → fits s t → ok s t) :
    w.arrays.AllPermitted ok ts ∧ w.arrays.after ts = (runAll rs w).arrays := by
  induction h with
  | done w => exact ⟨trivial, rfl⟩
  | @task r rs w t ts ht hfits _ ih =>
    obtain ⟨hpermitted, hafter⟩ := ih fun r hr => hown r (List.mem_cons_of_mem _ hr)
    rw [outcome_of_task? ht] at hpermitted hafter
    exact ⟨⟨hown r List.mem_cons_self _ _ (does_of_task? ht) hfits, hpermitted⟩, hafter⟩
  | @call k id m c rs w ts us hk hmethod _ ih =>
    obtain ⟨hpermitted, hafter⟩ := ih fun r hr => hown r (List.mem_cons_of_mem _ hr)
    obtain ⟨hfirst, hmid⟩ := hmethod.led ok hmay (hown _ List.mem_cons_self)
    rw [← hmid] at hpermitted hafter
    refine ⟨hfirst.append hpermitted, ?_⟩
    rw [runAll, outcome_call, if_pos hk, ← hafter]
    exact List.foldl_append
  | @absent k id m c rs w ts hk _ ih =>
    rw [runAll, outcome_call, if_neg hk]
    exact ih fun r hr => hown r (List.mem_cons_of_mem _ hr)

/-- Requests that behave take a course. What holds of the store at first and is kept by the tasks
of the course says that the arrays that methods make fit. -/
theorem exists_course {holds : Store → Prop} (hclean : ∀ s, holds s → s.Clean)
    (hstep : ∀ s t, holds s → may s t ∨ fits s t → holds (s.step t))
    (hmake : ∀ s, holds s → ∀ (k : ElementKind) id, s.kind? id = some k →
      ∀ s' target (xs : List target.Carrier), xs.length ≤ (s.get k id).length →
        fits s' (.make target xs))
    (hexchange : ∀ s k id i j, fits s (.exchange k id i j)) (hrs : AllBehave may fits rs w)
    (hw : holds w.arrays) : ∃ ts, Course may fits rs w ts := by
  induction rs generalizing w with
  | nil => exact ⟨[], .done w⟩
  | cons r rs ih =>
    have htask : ∀ t, r.task? w.arrays = some t → fits w.arrays t →
        ∃ ts, Course may fits (r :: rs) w ts := by
      intro t ht hfits
      have hnext := hstep _ t hw (.inr hfits)
      rw [← outcome_of_task? ht] at hnext
      obtain ⟨ts, hts⟩ := ih hrs.2 hnext
      exact ⟨t :: ts, .task ht hfits hts⟩
    cases r with
    | make k xs => exact htask _ rfl (hrs.1 _ rfl)
    | makeFilled k n x => exact htask _ rfl (hrs.1 _ rfl)
    | edit k id e => exact htask _ rfl (hrs.1 _ rfl)
    | call k id m c =>
      have hrest := hrs.2
      rw [outcome_call] at hrest
      split_ifs at hrest with hk
      · obtain ⟨ts, hts⟩ := Method.exists_course hrs.1 (hmake _ hw k id hk)
          (fun s => hexchange s k id) ⟨hclean _ hw, hk⟩
        obtain ⟨hpermitted, hmid⟩ := hts.led (fun s t => may s t ∨ fits s t)
          (fun _ _ => .inl) (fun _ _ _ => .inr)
        have hnext := hpermitted.keeps hw hstep (List.prefix_refl ts)
        rw [hmid] at hnext
        obtain ⟨us, hus⟩ := ih hrest hnext
        exact ⟨ts ++ us, .call hk hts hus⟩
      · obtain ⟨ts, hts⟩ := ih hrest hw
        exact ⟨ts, .absent hk hts⟩

end ArrayRequest

end ValueEngine
