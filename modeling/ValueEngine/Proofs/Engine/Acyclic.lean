import ValueEngine.Proofs.Engine.Requests

/-! Prototype chains end. A link is only made behind a walk to the end of the chain that it
leads to, or to a new object that no chain contains yet; so the chain of every object
ends, and a chain that ends never comes back to an object. A new object could be on a
chain already if a link led to an object before it is made; programs cannot do that,
since all their values come from the engine, and the rules here say so. -/

namespace ValueEngine

namespace Engine

variable {e e' : Engine} {id target : ObjectId} {start : Option ObjectId} {ids : List ObjectId}

/-- The objects met on the way from a first one, if there is one, along prototype links to
an object without prototype. -/
inductive Chain (e : Engine) : Option ObjectId → List ObjectId → Prop
  | nil : Chain e none []
  | cons {id : ObjectId} {ids : List ObjectId} (h : Chain e (e.prototype? id) ids) :
    Chain e (some id) (id :: ids)

namespace Chain

theorem unique {ids' : List ObjectId} (h : e.Chain start ids) (h' : e.Chain start ids') :
    ids = ids' := by
  induction h generalizing ids' with
  | nil =>
    cases h'
    rfl
  | cons _ ih =>
    cases h' with
    | cons h' => rw [ih h']

/-- From every object on a chain the rest of it is the chain of that object. -/
theorem of_mem (h : e.Chain start ids) (hid : id ∈ ids) :
    ∃ rest, e.Chain (some id) rest ∧ rest <:+ ids := by
  induction h with
  | nil => cases hid
  | @cons first ids hrest ih =>
    obtain rfl | hid := List.mem_cons.mp hid
    · exact ⟨id :: ids, .cons hrest, List.suffix_rfl⟩
    · obtain ⟨rest, hchain, hsuffix⟩ := ih hid
      exact ⟨rest, hchain, hsuffix.trans (List.suffix_cons first ids)⟩

/-- A chain that ends never comes back to an object. -/
theorem nodup (h : e.Chain start ids) : ids.Nodup := by
  induction h with
  | nil => exact List.nodup_nil
  | @cons id ids hrest ih =>
    refine List.nodup_cons.mpr ⟨?_, ih⟩
    intro hid
    -- What follows the second occurrence would be as long as the whole.
    obtain ⟨rest, hchain, hsuffix⟩ := hrest.of_mem hid
    have hlength := hsuffix.length_le
    rw [hchain.unique (.cons hrest), List.length_cons] at hlength
    omega

theorem congr (h : e.Chain start ids) (hsame : ∀ id ∈ ids, e'.prototype? id = e.prototype? id) :
    e'.Chain start ids := by
  induction h with
  | nil => exact .nil
  | @cons id ids _ ih =>
    obtain ⟨hid, hids⟩ := List.forall_mem_cons.mp hsame
    refine .cons ?_
    rw [hid]
    exact ih hids

end Chain

/-- A walk that has not met its target has seen the whole chain. -/
theorem chain_of_leadsTo {links : ℕ} (h : e.leadsTo target links start = .ok false) :
    ∃ ids, e.Chain start ids ∧ target ∉ ids := by
  induction links generalizing start with
  | zero =>
    cases start with
    | none => exact ⟨[], .nil, List.not_mem_nil⟩
    | some id =>
      rw [leadsTo.eq_def] at h
      by_cases hid : id = target
      · simp only [hid, if_true] at h
        cases h
      · simp only [hid, if_false] at h
        cases h
  | succ links ih =>
    cases start with
    | none => exact ⟨[], .nil, List.not_mem_nil⟩
    | some id =>
      rw [leadsTo.eq_def] at h
      by_cases hid : id = target
      · simp only [hid, if_true] at h
        cases h
      · simp only [hid, if_false] at h
        obtain ⟨ids, hchain, hnot⟩ := ih h
        refine ⟨id :: ids, .cons hchain, ?_⟩
        rw [List.mem_cons, not_or]
        exact ⟨fun heq => hid heq.symm, hnot⟩

/-- Chains still end when one object is linked to a chain that it is not on. -/
theorem chain_of_relinked {proto : Option ObjectId} {ps : List ObjectId}
    (hother : ∀ other, other ≠ id → e'.prototype? other = e.prototype? other)
    (hid : e'.prototype? id = proto) (hproto : e.Chain proto ps) (hnot : id ∉ ps)
    (h : e.Chain start ids) : ∃ ids', e'.Chain start ids' := by
  induction h with
  | nil => exact ⟨[], .nil⟩
  | @cons first ids _ ih =>
    by_cases hfirst : first = id
    · subst hfirst
      have hps : e'.Chain proto ps :=
        hproto.congr fun other hmem => hother other fun heq => hnot (heq ▸ hmem)
      rw [← hid] at hps
      exact ⟨first :: ps, .cons hps⟩
    · obtain ⟨ids', hids'⟩ := ih
      rw [← hother first hfirst] at hids'
      exact ⟨first :: ids', .cons hids'⟩

/-! ### Steps and links -/

section Links

theorem prototype?_of_size_le (h : e.objects.size ≤ id) : e.prototype? id = none := by
  rw [prototype?, object, Array.getElem?_eq_none h]
  rfl

theorem prototype?_modify {f : Object → Object} (h : ∀ o, (f o).prototype = o.prototype)
    (id other : ObjectId) : (e.modify id f).prototype? other = e.prototype? other := by
  by_cases hid : id = other
  · subst hid
    by_cases hsize : id < e.objects.size
    · rw [prototype?, object_modify_self e f hsize, h, prototype?]
    · have hsize' : (e.modify id f).objects.size ≤ id := by
        rw [modify, Array.size_modify]
        exact Nat.not_lt.mp hsize
      rw [prototype?_of_size_le hsize', prototype?_of_size_le (Nat.not_lt.mp hsize)]
  · rw [prototype?, object_modify_of_ne e f hid, prototype?]

variable [Library]

theorem prototype_eq_none_of_fresh {o : Object} (h : o.Fresh) :
    o.prototype = none := by
  induction h with
  | ofClass c => rfl
  | set _ _ _ _ ih => exact ih
  | define _ _ _ _ _ ih => exact ih

/-- A change that is not one of prototypes leaves every link as it is. -/
theorem Change.prototype?_eq (h : Change e e') (id : ObjectId) :
    e'.prototype? id = e.prototype? id := by
  cases h with
  | none h => rw [prototype?, prototype?, object, object, h]
  | made os h hos =>
    by_cases hold : id < e.objects.size
    · rw [prototype?, prototype?, object, object, h, Array.getElem?_append_left hold]
    · rw [prototype?_of_size_le (Nat.not_lt.mp hold), prototype?, object, h,
        Array.getElem?_append_right (Nat.not_lt.mp hold)]
      cases hnew : os.toArray[id - e.objects.size]? with
      | none => rfl
      | some o =>
        have ho : o ∈ os := List.mem_toArray.mp (Array.mem_of_getElem? hnew)
        exact prototype_eq_none_of_fresh (hos o ho)
  | _ =>
    apply prototype?_modify
    intro o
    rfl

/-- At most one link differs after a step, and it is that of a new object or one that has
been checked. -/
theorem Effect.links (h : Effect e e') :
    (∀ id, e'.prototype? id = e.prototype? id) ∨
      ∃ id proto, (∀ other, other ≠ id → e'.prototype? other = e.prototype? other) ∧
        e'.prototype? id = proto ∧
        (e.objects.size ≤ id ∨ e.leadsTo id e.config.maxPrototypeDepth proto = .ok false) := by
  cases h with
  | change h => exact Or.inl h.prototype?_eq
  | derived proto h =>
    refine Or.inr ⟨e.objects.size, proto, ?_, ?_, Or.inl (Nat.le_refl _)⟩
    · intro other hother
      rw [prototype?, prototype?, object, object, h, Array.getElem?_push, if_neg hother]
    · rw [prototype?, object, h, Array.getElem?_push, if_pos rfl]
      rfl
  | relinked id proto h =>
    by_cases hsize : id < e.objects.size
    · refine Or.inr ⟨id, proto, ?_, ?_, Or.inr h⟩
      · intro other hother
        rw [prototype?, object_modify_of_ne e _ (Ne.symm hother), prototype?]
      · rw [prototype?, object_modify_self e _ hsize]
    · refine Or.inl fun other => ?_
      by_cases hother : other = id
      · subst hother
        have hsize' := Nat.not_lt.mp hsize
        rw [prototype?_of_size_le hsize',
          prototype?_of_size_le (by rwa [modify, Array.size_modify])]
      · rw [prototype?, object_modify_of_ne e _ (Ne.symm hother), prototype?]

end Links

/-- What holds of the links of a grounded engine. -/
structure Rooted (e : Engine) : Prop where
  bounded : ∀ id target, e.prototype? id = some target → target < e.objects.size
  ends : ∀ id, ∃ ids, e.Chain (some id) ids

namespace Rooted

theorem new (config : Config) : (Engine.new config).Rooted where
  bounded _ _ h := by cases h
  ends id := ⟨[id], .cons .nil⟩

theorem ends_of_start (he : e.Rooted) (start : Option ObjectId) : ∃ ids, e.Chain start ids := by
  cases start with
  | none => exact ⟨[], .nil⟩
  | some id => exact he.ends id

theorem lt_size_of_mem (he : e.Rooted) (h : e.Chain start ids)
    (hstart : ∀ first, start = some first → first < e.objects.size) (hid : id ∈ ids) :
    id < e.objects.size := by
  induction h with
  | nil => cases hid
  | @cons first _ _ ih =>
    obtain rfl | hid := List.mem_cons.mp hid
    · exact hstart id rfl
    · exact ih (he.bounded first) hid

end Rooted

variable [Library]

/-- A step whose new links lead to objects that have been there before it. -/
def GroundedStep (e e' : Engine) : Prop :=
  Step e e' ∧ ∀ id target, e'.prototype? id = some target → e.prototype? id ≠ some target →
    target < e.objects.size

abbrev GroundedSteps : Engine → Engine → Prop := Relation.ReflTransGen GroundedStep

theorem GroundedSteps.steps (h : GroundedSteps e e') : Steps e e' :=
  Relation.ReflTransGen.mono (fun _ _ => And.left) _ _ h

/-- An engine that has come about from a new one with links to existing objects only. -/
def Grounded (e : Engine) : Prop := ∃ config, GroundedSteps (new config) e

theorem GroundedSteps.size_le (h : GroundedSteps e e') : e.objects.size ≤ e'.objects.size := by
  induction h with
  | refl => exact Nat.le_refl _
  | tail _ hstep ih => exact Nat.le_trans ih hstep.1.effect.size_le

theorem Rooted.step (he : e.Rooted) (h : GroundedStep e e') : e'.Rooted where
  bounded id target htarget := by
    by_cases hold : e.prototype? id = some target
    · exact Nat.lt_of_lt_of_le (he.bounded id target hold) h.1.effect.size_le
    · exact Nat.lt_of_lt_of_le (h.2 id target htarget hold) h.1.effect.size_le
  ends start := by
    obtain ⟨ids, hids⟩ := he.ends start
    obtain hsame | ⟨id, proto, hother, hid, hchecked⟩ := h.1.effect.links
    · exact ⟨ids, hids.congr fun id _ => hsame id⟩
    · have hwalked : ∃ ps, e.Chain proto ps ∧ id ∉ ps := by
        obtain hnew | hwalk := hchecked
        · obtain ⟨ps, hps⟩ := he.ends_of_start proto
          refine ⟨ps, hps, fun hmem => ?_⟩
          have hfirst : ∀ first, proto = some first → first < e.objects.size := by
            intro first hproto
            refine h.2 id first (hid.trans hproto) ?_
            rw [prototype?_of_size_le hnew]
            exact nofun
          exact absurd (he.lt_size_of_mem hps hfirst hmem) (Nat.not_lt.mpr hnew)
        · exact chain_of_leadsTo hwalk
      obtain ⟨ps, hps, hnot⟩ := hwalked
      exact chain_of_relinked hother hid hps hnot hids

theorem Rooted.steps (he : e.Rooted) (h : GroundedSteps e e') : e'.Rooted := by
  induction h with
  | refl => exact he
  | tail _ hstep ih => exact ih.step hstep

theorem Grounded.rooted (h : e.Grounded) : e.Rooted := by
  obtain ⟨config, hsteps⟩ := h
  exact (Rooted.new config).steps hsteps

theorem groundedStep_of_change (h : Step e e') (hchange : Change e e') : GroundedStep e e' := by
  refine ⟨h, fun id target hlink hold => absurd ?_ hold⟩
  rw [← hchange.prototype?_eq, hlink]

theorem groundedStep_of_setPrototype {v proto : Value} (hproto : e.Knows proto)
    (h : e.setPrototype v proto = .ok e') : GroundedStep e e' := by
  refine ⟨Step.setPrototype h, fun other target hlink hold => ?_⟩
  obtain rfl | ⟨id, proto', hproto', -, rfl⟩ := setPrototype_eq_ok h
  · exact absurd hlink hold
  · by_cases hother : other = id
    · subst hother
      by_cases hsize : other < e.objects.size
      · rw [prototype?, object_modify_self e _ hsize] at hlink
        change proto' = some target at hlink
        rw [hlink] at hproto'
        exact hproto.of_asPrototype hproto'
      · rw [prototype?_of_size_le] at hlink
        · cases hlink
        · rw [modify, Array.size_modify]
          exact Nat.not_lt.mp hsize
    · rw [prototype?, object_modify_of_ne e _ (Ne.symm hother)] at hlink
      exact absurd hlink hold

theorem groundedStep_of_createWithPrototype {proto : Value} {b : Box} (hproto : e.Knows proto)
    (h : e.createWithPrototype proto = .ok (b, e')) : GroundedStep e e' := by
  refine ⟨Step.createWithPrototype h, fun other target hlink hold => ?_⟩
  obtain ⟨proto', hproto', hpair⟩ := createWithPrototype_eq_ok h
  have hobjects : e'.objects = e.objects.push _ := congrArg (·.2.objects) hpair.symm
  by_cases hother : other = e.objects.size
  · rw [prototype?, object, hobjects, Array.getElem?_push, if_pos hother] at hlink
    change proto' = some target at hlink
    rw [hlink] at hproto'
    exact hproto.of_asPrototype hproto'
  · rw [prototype?, object, hobjects, Array.getElem?_push, if_neg hother] at hlink
    exact absurd hlink hold

end Engine

open Engine (GroundedSteps)

/-! ### Rules that ground the links -/

section Grounding

variable [Library] {H : Type} {rules : Rules H}

/-- Rules by which links lead to objects that are there. -/
def Rules.Grounds (rules : Rules H) : Prop := ∀ e e', rules.leads e e' → GroundedSteps e e'

/-- The rules of programs that link objects that are there: the values they give the engine, and
those in the boxes that the arrays and the state of the host hold, refer to such objects. Of what
they find stored nothing is said. -/
def Rules.grounded (held : Store → H → List Box) : Rules H where
  admits e v := e.Knows v
  yields _ _ := True
  leads := GroundedSteps
  holds w := ∀ b ∈ held w.arrays w.host, w.engine.Knows b.value
  leads_refl _ := Relation.ReflTransGen.refl
  leads_trans h h' := h.trans h'
  admits_of_leads h hv := hv.mono h.size_le
  yields_of_leads _ _ := trivial
  holds_of_leads hw h b hb := (hw b hb).mono h.size_le
  yields_of_admits _ := trivial
  yields_of_ne_object _ := trivial
  yields_of_read _ _ := trivial
  leads_of_change _ h hchange _ := .single (Engine.groundedStep_of_change h hchange)
  leads_of_setPrototype hproto h := .single (Engine.groundedStep_of_setPrototype hproto h)
  leads_of_createWithPrototype hproto h :=
    .single (Engine.groundedStep_of_createWithPrototype hproto h)

theorem Rules.grounds_grounded (held : Store → H → List Box) : (grounded held).Grounds :=
  fun _ _ h => h

/-- The rules of programs that get all their values from the engine. Besides what they give it and
what the host holds, whatever the engine stores refers to objects that are there; so does what they
find in it and what its functions answer, and they may give it that again. -/
def Rules.closed (held : Store → H → List Box) : Rules H where
  admits e v := e.Knows v
  yields e v := e.Knows v
  leads e e' := GroundedSteps e e' ∧ (e.Sound → e.Closed → e'.Closed)
  holds w := (w.engine.Sound ∧ w.engine.Closed) ∧ ∀ b ∈ held w.arrays w.host, w.engine.Knows b.value
  leads_refl _ := ⟨Relation.ReflTransGen.refl, fun _ he => he⟩
  leads_trans h h' := ⟨h.1.trans h'.1, fun hs he => h'.2 (h.1.steps.sound hs) (h.2 hs he)⟩
  admits_of_leads h hv := hv.mono h.1.size_le
  yields_of_leads h hv := hv.mono h.1.size_le
  holds_of_leads hw h := ⟨⟨h.1.steps.sound hw.1.1, h.2 hw.1.1 hw.1.2⟩,
    fun b hb => (hw.2 b hb).mono h.1.size_le⟩
  yields_of_admits hv := hv
  yields_of_ne_object hv id hid := absurd hid (hv id)
  yields_of_read hw h := hw.1.2.knows_read h
  leads_of_change hvs h hchange hstores :=
    ⟨.single (Engine.groundedStep_of_change h hchange), fun hs he => hstores hs he hvs⟩
  leads_of_setPrototype hproto h := ⟨.single (Engine.groundedStep_of_setPrototype hproto h),
    fun hs he => Engine.storesOnly_setPrototype h hs he (List.forall_mem_singleton.mpr hproto)⟩
  leads_of_createWithPrototype hproto h :=
    ⟨.single (Engine.groundedStep_of_createWithPrototype hproto h), fun hs he =>
      Engine.storesOnly_createWithPrototype h hs he (List.forall_mem_singleton.mpr hproto)⟩

theorem Rules.grounds_closed (held : Store → H → List Box) : (closed held).Grounds :=
  fun _ _ h => h.1

theorem Rules.holds_closed_new {held : Store → H → List Box} {w : World H} {config : Config}
    (hw : w.engine = .new config) (hheld : ∀ b ∈ held w.arrays w.host, w.engine.Knows b.value) :
    (closed held).holds w := by
  have hnew : w.engine.Reachable := ⟨config, hw ▸ Relation.ReflTransGen.refl⟩
  exact ⟨⟨hnew.sound, hw ▸ Engine.closed_new config⟩, hheld⟩

/-- **The prototype graph is acyclic.** Whatever requests are carried out by rules that ground the
links, and whatever the functions that they run do by these rules, from every object the prototype
links lead to an end and never come back to an object. Such rules are those of programs that link
objects that are there, and those of programs that get all their values from the engine. -/
theorem prototype_chains_end [Memory] {host : Host H} (hrules : rules.Grounds)
    (hhost : host.Keeps rules) {w : World H} (hw : w.engine.Grounded) (hholds : rules.holds w)
    {rs : List Request}
    (hrs : Request.AllAdmitted rules host rs w) (id : ObjectId) :
    ∃ ids, (Request.runAll host rs w).engine.Chain (some id) ids ∧ ids.Nodup := by
  obtain ⟨config, hsteps⟩ := hw
  have hrun := hrules _ _ (Request.runAll_keeps hhost hrs hholds).2
  have hgrounded : (Request.runAll host rs w).engine.Grounded := ⟨config, hsteps.trans hrun⟩
  obtain ⟨ids, hids⟩ := hgrounded.rooted.ends id
  exact ⟨ids, hids, hids.nodup⟩

end Grounding

/-- A host with two functions. One makes the object it was last given the prototype of the next,
the other makes the object in a property of an object the prototype of that object. -/
def Host.linking : Host Box where
  native name this _ := do
    if name = "adopt" then
      let parent ← Operation.getProperty .idle this "parent"
      Operation.update (.setPrototype this.value (parent.getD .null).value)
    else
      let w ← get
      Operation.update (.setPrototype this.value w.host.value)
      modify fun w => { w with host := this }
    return this
  dispatch _ _ this _ := pure this

theorem Host.linking_keeps :
    Host.linking.Keeps (Rules.closed fun _ (last : Box) => [last]) where
  native name this args w hargs := by
    have hthis := hargs this List.mem_cons_self
    by_cases hname : name = "adopt"
    · simp only [linking, hname, if_true]
      apply (Operation.keepsTo_getProperty Host.idle_keeps hthis).bind
      intro parent t _ ht hparent
      have hproto : t.engine.Knows (parent.getD .null).value := by
        cases parent with
        | none => exact nofun
        | some b => exact hparent b rfl
      apply (Operation.keeps_update_unit (Engine.Update.atomic_setPrototype _ _) fun _ h =>
        Rules.leads_of_setPrototype _ hproto h).bind
      exact fun _ u _ hu _ => Operation.keepsTo_pure ((hthis.mono ht.1.size_le).mono hu.1.size_le)
    · simp only [linking, hname, if_false]
      apply Operation.keepsTo_of_holds
      intro hw
      apply Operation.keepsTo_get_bind
      have hlast : w.engine.Knows w.host.value := hw.2 _ List.mem_cons_self
      apply (Operation.keeps_update_unit (Engine.Update.atomic_setPrototype _ _) fun _ h =>
        Rules.leads_of_setPrototype _ hlast h).bind
      intro _ t _ ht _ hheld
      have hknown : t.engine.Knows this.value := hthis.mono ht.1.size_le
      exact ⟨⟨⟨hheld.1, List.forall_mem_singleton.mpr hknown⟩, Rules.leads_refl _ _⟩,
        fun _ hx => Except.ok.inj hx ▸ hknown⟩
  dispatch _ _ this _ _ hargs := Operation.keepsTo_pure (hargs this List.mem_cons_self)

/-- An object adopts what it has been told to be its parent, and is given to the next. The last
call would close a cycle; it fails, and the chain stays. -/
theorem prototype_chains_end_linked :
    let first : Box := ⟨2, .object 0⟩
    let second : Box := ⟨3, .object 1⟩
    let third : Box := ⟨4, .object 2⟩
    let adopt : Box := ⟨5, .object 3⟩
    let stack : Box := ⟨6, .object 4⟩
    let rs : List Request := [.newObject, .newObject, .newObject, .newFunction "adopt",
      .newFunction "stack", .setProperty first "parent" second, .call adopt first [],
      .call stack second [], .call stack third [], .setProperty second "parent" first,
      .call adopt second []]
    let w : World Box := ⟨Engine.new .standard, .empty, Box.null⟩
    let rules : Rules Box := .closed fun _ last => [last]
    let e := (Request.runAll Host.linking rs w).engine
    rules.Grounds ∧ Host.linking.Keeps rules ∧ w.engine.Grounded ∧ rules.holds w ∧
      Request.AllAdmitted rules Host.linking rs w ∧
      e.prototype? 0 = some 1 ∧ e.prototype? 2 = some 1 ∧ e.prototype? 1 = none ∧
      ∃ ids, e.Chain (some 0) ids ∧ ids.Nodup := by
  intro first second third adopt stack rs w rules e
  have hgrounds : rules.Grounds := Rules.grounds_closed _
  have hnew : w.engine.Grounded := ⟨.standard, Relation.ReflTransGen.refl⟩
  have hholds : rules.holds w :=
    Rules.holds_closed_new rfl (List.forall_mem_singleton.mpr nofun)
  have hrs : Request.AllAdmitted rules Host.linking rs w := by
    -- The first five requests make the objects that the others are about.
    let made : List Request :=
      [.newObject, .newObject, .newObject, .newFunction "adopt", .newFunction "stack"]
    have hadmitted : Request.AllAdmitted rules Host.linking made w :=
      ⟨nofun, nofun, nofun, nofun, nofun, trivial⟩
    have hmade := (Request.runAll_keeps Host.linking_keeps hadmitted hholds).1
    have hknown : ∀ id < 5, rules.admits (Request.runAll Host.linking made w).engine (.object id) :=
      fun _ hid => Engine.knows_object hid
    have hfirst := hknown 0 (by decide)
    have hsecond := hknown 1 (by decide)
    have hthird := hknown 2 (by decide)
    have hadopt := hknown 3 (by decide)
    have hstack := hknown 4 (by decide)
    refine ⟨nofun, nofun, nofun, nofun, nofun, ?_⟩
    apply Request.allAdmitted_of_admitsAll Host.linking_keeps hmade
    simp only [List.forall_mem_cons, List.not_mem_nil, false_imp_iff, implies_true, and_true,
      Request.boxes, Rules.AdmitsAll]
    exact ⟨⟨hfirst, hsecond⟩, ⟨hadopt, hfirst⟩, ⟨hstack, hsecond⟩, ⟨hstack, hthird⟩,
      ⟨hsecond, hfirst⟩, hadopt, hsecond⟩
  refine ⟨hgrounds, Host.linking_keeps, hnew, hholds, hrs, by decide +kernel, by decide +kernel,
    by decide +kernel, ?_⟩
  exact prototype_chains_end hgrounds Host.linking_keeps hnew hholds hrs 0

end ValueEngine
