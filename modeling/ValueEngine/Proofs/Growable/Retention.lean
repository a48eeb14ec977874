import ValueEngine.Proofs.Engine.Rules
import ValueEngine.Proofs.Growable.Courses

/-! No dead cell keeps an element. Whatever a program asks of the arrays that it makes takes a
course of tasks, if its callbacks come to tasks; and no task leaves a dead cell that holds
anything but the filler, or changes a capacity but by the rule of its operation. So this is
true of every store on the way, also while callbacks are at work, and whatever memory refuses.
A callback is only bound to change the arrays by tasks: it may do as many as it likes, on the
array that is being traversed as well, and it may fail after any of them. -/

namespace ValueEngine

open ValueEngine.Action (reaches_pure)
open Store (Task Led)

variable {H : Type}

section Confinement

variable [Memory] {k : ElementKind} {may : Task → Prop}

/-- A call in a world whose arrays are clean does to them only tasks that are permitted. If all
tasks are, this says that a callback works on arrays by their operations alone. -/
def Closure.Confined {α : Type} (may : Task → Prop) (c : Closure (World H) α) : Prop :=
  ∀ args w, w.arrays.Clean → Led (fun _ => may) w.arrays ((c.run args).outcome w).2.arrays

/-- The closure that a request hands over does only tasks that are permitted. -/
def ArrayRequest.Confined (may : Task → Prop) : ArrayRequest H → Prop
  | call _ _ _ c => c.Confined may
  | _ => True

section FunctionValues

/-- The functions of a host do to clean arrays only tasks that are permitted. -/
structure Host.Confined (may : Task → Prop) (host : Host H) : Prop where
  native : ∀ name this args w, w.arrays.Clean →
    Led (fun _ => may) w.arrays ((host.native name this args).outcome w).2.arrays
  dispatch : ∀ function environment this args w, w.arrays.Clean →
    Led (fun _ => may) w.arrays ((host.dispatch function environment this args).outcome w).2.arrays

/-- The rules that the arrays come from those of a store by permitted tasks. -/
def Rules.onArrays (may : Task → Prop) (s : Store) : Rules H where
  admits _ _ := True
  yields _ _ := True
  leads _ _ := True
  holds w := w.arrays.Clean ∧ Led (fun _ => may) s w.arrays
  leads_refl _ := trivial
  leads_trans _ _ := trivial
  admits_of_leads _ _ := trivial
  yields_of_leads _ _ := trivial
  holds_of_leads hw _ := hw
  yields_of_admits _ := trivial
  yields_of_ne_object _ := trivial
  yields_of_read _ _ := trivial
  leads_of_change _ _ _ _ := trivial
  leads_of_setPrototype _ _ := trivial
  leads_of_createWithPrototype _ _ := trivial

theorem Host.Confined.keeps {host : Host H} (h : host.Confined may) (s : Store) :
    host.Keeps (Rules.onArrays may s) where
  native name this args w _ hw :=
    have hled := h.native name this args w hw.1
    ⟨⟨⟨hled.clean hw.1, hw.2.trans hled⟩, trivial⟩, fun _ _ => trivial⟩
  dispatch function environment this args w _ hw :=
    have hled := h.dispatch function environment this args w hw.1
    ⟨⟨⟨hled.clean hw.1, hw.2.trans hled⟩, trivial⟩, fun _ _ => trivial⟩

/-- A function value as a closure is as confined as the functions of the host are. -/
theorem Closure.confined_ofFunction {α : Type} [Element α] {host : Host H}
    (hhost : host.Confined may) (f : Box) (returns : ElementKind) :
    (Closure.ofFunction host f returns : Closure (World H) α).Confined may := by
  intro args w hw
  have hkeeps : (callBoxed host f returns args).Keeps (Rules.onArrays may w.arrays) w := by
    refine (Operation.keeps_make trivial).bind fun args t _ _ _ => ?_
    refine (Operation.keeps_box _).bind fun this u _ _ _ => ?_
    have hcall :
        (Operation.callValue host f.value this args).Keeps (Rules.onArrays may w.arrays) u :=
      (Operation.keepsTo_callValue (hhost.keeps w.arrays) f.value fun _ _ => trivial).keeps
    exact hcall.bind fun b v _ _ _ => Operation.keeps_ask _
  exact (hkeeps ⟨hw, Led.refl _⟩).1.1.2

end FunctionValues

namespace ArrayRequest

variable {rs : List (ArrayRequest H)} {w : World H}

/-- Requests whose closures are confined behave. -/
theorem allBehave_of_confined (hrs : ∀ r ∈ rs, r.Confined may) :
    AllBehave (fun _ => may) (fun _ _ => True) rs w := by
  induction rs generalizing w with
  | nil => trivial
  | cons r rs ih =>
    rw [List.forall_mem_cons] at hrs
    refine ⟨?_, ih hrs.2⟩
    cases r with
    | call k id m c => exact fun u _ hu args => hrs.1 args u hu.1
    | _ => exact fun _ _ => trivial

/-- **No dead cell keeps an element.** Whatever is asked of the arrays that a program makes,
callbacks and failures included, takes a course of tasks of the requests and of the calls.
Throughout, every array's elements fit in its storage, its dead cells hold the filler,
and no capacity changes but by a task that succeeds, and then by the rule. -/
theorem dead_cells_hold_fillers (hrs : ∀ r ∈ rs, r.Confined may) (hw : w.arrays = .empty) :
    (runAll rs w).arrays.Clean ∧
      ∃ ts, Course (fun _ => may) (fun _ _ => True) rs w ts ∧
        (∀ t ∈ ts, may t ∨ ∃ r ∈ rs, r.Does t) ∧
        Store.empty.after ts = (runAll rs w).arrays ∧
        ∀ done, done <+: ts →
          (Store.empty.after done).Clean ∧ ∀ t, (Store.empty.after done).Regulates t := by
  have hclean : w.arrays.Clean := hw ▸ Store.clean_empty
  obtain ⟨ts, hcourse⟩ := exists_course (fun _ h => h) (fun s t hs _ => (hs.regulates t).clean)
    (fun _ _ _ _ _ _ _ _ _ => trivial) (fun _ _ _ _ _ => trivial) (allBehave_of_confined hrs) hclean
  obtain ⟨hpermitted, hafter⟩ := hcourse.led (fun _ t => may t ∨ ∃ r ∈ rs, r.Does t)
    (fun _ _ => .inl) (fun r hr _ _ ht _ => .inr ⟨r, hr, ht⟩)
  rw [hw] at hafter
  refine ⟨?_, ts, hcourse, Store.allPermitted_const.mp hpermitted, hafter, fun done _ => ?_⟩
  · rw [← hafter]
    exact Store.clean_empty.after ts
  · have hdone := Store.clean_empty.after done
    exact ⟨hdone, hdone.regulates⟩

end ArrayRequest

/-- A callback that lengthens an array by one element, removes two, and answers 1. -/
def draining (id : ℕ) : Closure (World H) Int32 where
  context := 0
  returns := .i32
  run _ := do
    Operation.work (.edit .i32 id (.push ([7] : List Int32)))
    Operation.work (.edit .i32 id .shift)
    Operation.work (.edit .i32 id .shift)
    return .i32 1

theorem draining_confined (id : ℕ) :
    (draining id : Closure (World H) Int32).Confined fun t => ∃ e, t = .edit .i32 id e := by
  intro args w _
  apply Operation.led_of_reaches
  refine (Operation.reaches_work ⟨_, rfl⟩).bind fun _ _ _ => ?_
  refine (Operation.reaches_work ⟨_, rfl⟩).bind fun _ _ _ => ?_
  exact (Operation.reaches_work ⟨_, rfl⟩).bind fun _ _ _ => reaches_pure _

end Confinement

/-- An array is drained while it is sorted, and once more, until that fails; what is left of
it is added to it twice. -/
theorem dead_cells_hold_fillers_drained :
    let rs : List (ArrayRequest Unit) := [.make .i32 ([3, 1, 2, 4] : List Int32),
      .call .i32 0 .sort (draining 0), .call .i32 0 .filter (draining 0),
      .edit .i32 0 (.push (.held 0)), .edit .i32 0 (.splice 0 (some 1) (some (.held 0)))]
    let w : World Unit := ⟨Engine.new .standard, .empty, ()⟩
    (∀ r ∈ rs, r.Confined fun t => ∃ e, t = .edit .i32 0 e) ∧ w.arrays = .empty ∧
      (ArrayRequest.runAll rs w).arrays.Clean ∧
      ∃ ts, (∀ t ∈ ts, (∃ e, t = .edit .i32 0 e) ∨ ∃ r ∈ rs, r.Does t) ∧
        Store.empty.after ts = (ArrayRequest.runAll rs w).arrays := by
  intro rs w
  have hrs : ∀ r ∈ rs, r.Confined fun t => ∃ e, t = .edit .i32 0 e := by
    simp only [rs, List.forall_mem_cons, List.not_mem_nil, false_imp_iff, implies_true, and_true]
    exact ⟨trivial, draining_confined 0, draining_confined 0, trivial, trivial⟩
  have hw : w.arrays = .empty := rfl
  obtain ⟨hclean, ts, -, hts, hafter, -⟩ := ArrayRequest.dead_cells_hold_fillers hrs hw
  exact ⟨hrs, hw, hclean, ts, hts, hafter⟩

end ValueEngine
