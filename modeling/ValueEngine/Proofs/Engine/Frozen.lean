import ValueEngine.Proofs.Engine.Permanence
import ValueEngine.Proofs.Value.Sameness

/-! Frozen properties. A data property that can be neither written nor configured keeps the
content of its value along every run of steps: a redefinition of it is only let through if it
states the same content. What is read of it then cannot be told apart from what was there,
unless it is zero, whose sign a redefinition can change: sameness takes the two zeros for one,
and what has been found to be the same is stored all the same. An object that is not an array
keeps its class as well. -/

namespace ValueEngine

/-- A data property that can be neither written nor configured, with the content of its value. -/
structure Property.Frozen (p : Property) (content : Option Value.Content) : Prop where
  writable : p.flags.writable = false
  fixed : p.flags.configurable = false
  value : ∃ v, p.slot = .data v ∧ v.content? = content

variable {content : Option Value.Content}

theorem Property.frozen_data (key : String) (v : Value) :
    Property.Frozen ⟨key, .data v, Flags.none⟩ v.content? :=
  ⟨rfl, rfl, v, rfl, rfl⟩

/-- Merging what a frozen property admits leaves it frozen with the same content. -/
theorem Property.Frozen.merge {p : Property} (h : p.Frozen content) {d : Descriptor}
    (hadmitted : d.admittedBy p.slot p.flags = true) (key : String) :
    Property.Frozen ⟨key, (d.merge p.slot p.flags).1, (d.merge p.slot p.flags).2⟩ content := by
  obtain ⟨v, hp, hv⟩ := h.value
  rw [Descriptor.admittedBy.eq_def, Bool.and_eq_true, Bool.and_eq_true, hp] at hadmitted
  obtain ⟨⟨hconfigurable, -⟩, hslot⟩ := hadmitted
  simp only [Bool.and_eq_true, Bool.not_eq_true', h.writable, Bool.false_or] at hslot
  obtain ⟨ha, hwritable, hvalue⟩ := hslot
  rw [Descriptor.merge, hp, mergedSlot_data ha v p.flags.writable]
  refine ⟨?_, ?_, _, rfl, ?_⟩
  · show d.writable.getD p.flags.writable = false
    cases hw : d.writable with
    | none => exact h.writable
    | some b =>
      rw [hw] at hwritable
      cases b <;> first | rfl | cases hwritable
  · show d.configurable.getD p.flags.configurable = false
    cases hc : d.configurable with
    | none => exact h.fixed
    | some b =>
      rw [hc] at hconfigurable
      cases b <;> first | rfl | cases hconfigurable
  · cases hu : d.value with
    | none => exact hv
    | some u =>
      rw [hu] at hvalue
      exact (Value.sameOrBothNaN_iff.mp hvalue).trans hv

namespace Object

variable [Library] {o : Object} {name : String}

def Freezes (o : Object) (name : String) (content : Option Value.Content) : Prop :=
  ∃ p, o.named? name = some p ∧ p.Frozen content

theorem Freezes.of_named? {o' : Object} (h : o.Freezes name content)
    (heq : o'.named? name = o.named? name) : o'.Freezes name content := by
  obtain ⟨p, hp, hfrozen⟩ := h
  exact ⟨p, heq.trans hp, hfrozen⟩

theorem Freezes.own? (h : o.Freezes name content) (ho : o.Sound) :
    ∃ p, o.own? name = some p ∧ p.Frozen content := by
  obtain ⟨p, hp, hfrozen⟩ := h
  exact ⟨p, (own?_eq_named? (ho.apart name p hp)).trans hp, hfrozen⟩

end Object

namespace Engine

variable [Library] {e e' : Engine} {id : ObjectId} {name : String} {f : Object → Object}

theorem freezes_modify (target : ObjectId) (h : (e.object id).Freezes name content)
    (hf : target = id → (f (e.object id)).Freezes name content) :
    ((e.modify target f).object id).Freezes name content := by
  obtain hsame | ⟨htarget, hchanged⟩ := object_modify_cases e target f id
  · rw [hsame]
    exact h
  · rw [hchanged]
    exact hf htarget

theorem Change.freezes (h : Change e e') (he : e.Sound)
    (hfreezes : (e.object id).Freezes name content) : (e'.object id).Freezes name content := by
  obtain ⟨p, hp, hfrozen⟩ := hfreezes
  have hid : id < e.objects.size := lt_size_of_named? hp
  have ho := he id hid
  have hthere : (e.object id).Freezes name content := ⟨p, hp, hfrozen⟩
  cases h with
  | none h => exact hthere.of_named? (by rw [object, h, object])
  | made os h hos => exact hthere.of_named? (by rw [object_made h hid])
  | elements id' elements _ => exact freezes_modify id' hthere fun _ => hthere.of_named? rfl
  | stored id' name' v hvirtual hmet =>
    refine freezes_modify id' hthere fun hid' => hthere.of_named? ?_
    subst hid'
    rw [ho.named?_set, if_neg]
    rintro rfl
    -- An assignment that met the frozen property would have been refused.
    obtain ⟨q, hown, hq⟩ := hthere.own? ho
    obtain hnone | ⟨key, current, flags, hsome, hw⟩ := hmet
    · cases (lookup_of_own? hown).symm.trans hnone
    · cases (lookup_of_own? hown).symm.trans hsome
      cases hq.writable.symm.trans hw
  | defined id' name' d _ _ hnone =>
    refine freezes_modify id' hthere fun hid' => hthere.of_named? ?_
    subst hid'
    rw [ho.named?_define, if_neg]
    rintro rfl
    cases hp.symm.trans hnone
  | merged id' name' d q _ _ hq hadmitted =>
    refine freezes_modify id' hthere fun hid' => ?_
    subst hid'
    by_cases hname : name = name'
    · subst hname
      cases hp.symm.trans hq
      have hagreed := hadmitted.resolve_left (Bool.eq_false_iff.mp hfrozen.fixed)
      exact ⟨_, by rw [ho.named?_define, if_pos rfl], hfrozen.merge hagreed name⟩
    · exact hthere.of_named? (by rw [ho.named?_define, if_neg hname])
  | erased id' name' q hq hconfigurable =>
    refine freezes_modify id' hthere fun hid' => hthere.of_named? ?_
    subst hid'
    rw [ho.named?_erase, if_neg]
    rintro rfl
    cases hp.symm.trans hq
    cases hfrozen.fixed.symm.trans hconfigurable

theorem Effect.freezes (h : Effect e e') (he : e.Sound)
    (hfreezes : (e.object id).Freezes name content) : (e'.object id).Freezes name content := by
  cases h with
  | change h => exact h.freezes he hfreezes
  | derived proto h =>
    have hthere := hfreezes
    obtain ⟨p, hp, -⟩ := hthere
    rw [Array.push_eq_append] at h
    exact hfreezes.of_named? (by rw [object_made h (lt_size_of_named? hp)])
  | relinked id' proto _ => exact freezes_modify id' hfreezes fun _ => hfreezes.of_named? rfl

/-- A frozen property keeps the content of its value along any run of steps. -/
theorem Steps.freezes (h : Steps e e') (he : e.Sound)
    (hfreezes : (e.object id).Freezes name content) : (e'.object id).Freezes name content := by
  induction h with
  | refl => exact hfreezes
  | tail hrest hstep ih => exact hstep.effect.freezes (Steps.sound hrest he) ih

/-- An object keeps its class, but for the elements of an array. -/
theorem Effect.payload_cases (h : Effect e e') (hid : id < e.objects.size) :
    (e'.object id).payload = (e.object id).payload ∨
      (e.object id).elements?.isSome ∧ (e'.object id).elements?.isSome := by
  have hmodify : ∀ (target : ObjectId) (f : Object → Object), (∀ o, (f o).payload = o.payload) →
      ((e.modify target f).object id).payload = (e.object id).payload := by
    intro target f hf
    obtain hsame | ⟨-, hchanged⟩ := object_modify_cases e target f id
    · rw [hsame]
    · rw [hchanged, hf]
  cases h with
  | change h =>
    cases h with
    | none h => exact .inl (by rw [object, h, object])
    | made os h _ => exact .inl (by rw [object_made h hid])
    | elements id' elements harray =>
      obtain hsame | ⟨hid', hchanged⟩ := object_modify_cases e id' (·.withElements elements) id
      · exact .inl (by rw [hsame])
      · rw [hchanged]
        exact .inr ⟨hid' ▸ harray, rfl⟩
    | _ => exact .inl (hmodify _ _ fun _ => rfl)
  | derived proto h =>
    rw [Array.push_eq_append] at h
    exact .inl (by rw [object_made h hid])
  | relinked id' proto _ => exact .inl (hmodify _ _ fun _ => rfl)

theorem Effect.payload_eq (h : Effect e e') (hid : id < e.objects.size)
    (hplain : (e.object id).elements? = none) : (e'.object id).payload = (e.object id).payload := by
  obtain heq | ⟨harray, -⟩ := h.payload_cases hid
  · exact heq
  · rw [hplain] at harray
    cases harray

theorem Steps.payload_eq (h : Steps e e') (hid : id < e.objects.size)
    (hplain : (e.object id).elements? = none) : (e'.object id).payload = (e.object id).payload := by
  induction h with
  | refl => rfl
  | @tail e₁ e₂ hrest hstep ih =>
    have hplain₁ : (e₁.object id).elements? = none := by
      rw [Object.elements?, ih]
      exact hplain
    exact (hstep.effect.payload_eq (hid.trans_le (Steps.size_le hrest)) hplain₁).trans ih

theorem readOwn_of_freezes (he : e.Sound) (h : (e.object id).Freezes name content) :
    ∃ v, e.readOwn (.object id) name = .ok (some (.data v)) ∧ v.content? = content := by
  obtain ⟨p, hp, hfrozen⟩ := h
  have hid : id < e.objects.size := lt_size_of_named? hp
  obtain ⟨q, hown, hq⟩ := Object.Freezes.own? ⟨p, hp, hfrozen⟩ (he id hid)
  obtain ⟨v, hslot, hv⟩ := hq.value
  have hread : e.readOwn (.object id) name = .ok (((e.object id).own? name).map (·.slot)) := rfl
  exact ⟨v, by rw [hread, hown, Option.map_some, hslot], hv⟩

end Engine

variable {H : Type} {host : Host H} {w : World H}

/-- **Frozen values stay, up to the sign of zero.** In every reachable engine, and whatever requests
are then carried out, a data property that can be neither written nor configured is read as a
value that cannot be told apart from the one that it held; if it held a zero, it is read as a
zero. -/
theorem frozen_value_stays [Library] [Memory] (hhost : host.Conforms) (hw : w.engine.Reachable)
    {id : ObjectId} {name : String} {p : Property} (hp : (w.engine.object id).named? name = some p)
    (hwritable : p.flags.writable = false) (hfixed : p.flags.configurable = false) {v : Value}
    (hv : p.slot = .data v) (rs : List Request) :
    ∃ v', (Request.runAll host rs w).engine.readOwn (.object id) name = .ok (some (.data v')) ∧
      (v.Indistinct v' ∨ v.isZero = true ∧ v'.isZero = true) := by
  have hsteps : Engine.Steps w.engine (Request.runAll host rs w).engine :=
    Request.runAll_steps hhost rs w
  have hfreezes : (w.engine.object id).Freezes name v.content? :=
    ⟨p, hp, hwritable, hfixed, v, hv, rfl⟩
  obtain ⟨v', hread, hv'⟩ :=
    Engine.readOwn_of_freezes (hsteps.sound hw.sound) (hsteps.freezes hw.sound hfreezes)
  exact ⟨v', hread, Value.indistinct_or_isZero hv'.symm⟩

/-- State a value for the property `z` of object 0 by the descriptor that object 1 is. -/
def Request.stating (v : Value) : List Request :=
  [.setProperty ⟨3, .object 1⟩ "value" ⟨4, v⟩, .defineProperty ⟨2, .object 0⟩ "z" ⟨3, .object 1⟩]

/-- A world in which `z` of object 0 is frozen. -/
def World.freezing (v : Value) : World Unit :=
  Request.runAll Host.idle (.newObject :: .newObject :: Request.stating v)
    ⟨.new .standard, .empty, ()⟩

theorem World.freezing_reachable (v : Value) : (World.freezing v).engine.Reachable :=
  Request.runAll_reachable .standard _

/-- A frozen NaN takes another one in its place. -/
theorem frozen_value_stays_nan :
    let nan : Value := .number (.ofBits 0x7ff8000000000000)
    let other : Value := .number (.ofBits 0xfff8000000000001)
    ∃ v, (Request.runAll Host.idle (Request.stating other) (World.freezing nan)).engine.readOwn
        (.object 0) "z" = .ok (some (.data v)) ∧
      (nan.Indistinct v ∨ nan.isZero = true ∧ v.isZero = true) := by
  intro nan other
  have hheld : ((World.freezing nan).engine.object 0).named? "z" =
      some ⟨"z", .data nan, Flags.none⟩ := by decide +kernel
  exact frozen_value_stays Host.idle_conforms (World.freezing_reachable nan) hheld rfl rfl rfl
    (Request.stating other)

/-- A frozen zero takes the zero of the other sign in its place, and the two can be told apart. -/
theorem frozen_zero_turns :
    let zero : Value := .number (.ofBits 0)
    let other : Value := .number (.ofBits 0x8000000000000000)
    (World.freezing zero).engine.Reachable ∧
      ((World.freezing zero).engine.object 0).named? "z" = some ⟨"z", .data zero, Flags.none⟩ ∧
      (Request.runAll Host.idle (Request.stating other) (World.freezing zero)).engine.readOwn
        (.object 0) "z" = .ok (some (.data other)) ∧
      ¬ zero.Indistinct other := by
  intro zero other
  refine ⟨World.freezing_reachable zero, by decide +kernel, by decide +kernel, ?_⟩
  simp only [zero, other, Value.Indistinct]
  decide

end ValueEngine
