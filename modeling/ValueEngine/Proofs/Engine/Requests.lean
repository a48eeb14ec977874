import ValueEngine.Proofs.Engine.Rules

/-! Runs of requests. A request is an operation that a program makes of the engine, with
whatever arguments; its answer is left aside, and a request that fails leaves
behind what it has done until then. Reads that run no function are not requests:
they leave the engine as it is. A run of requests keeps the rules that the functions
of the host keep; in particular it amounts to steps of the engine if they do. That is so
whatever storage memory grants: a request that is refused some has taken no step. -/

namespace ValueEngine

/-- An operation on the engine with its arguments. -/
inductive Request
  | getProperty (receiver : Box) (name : String)
  | setProperty (receiver : Box) (name : String) (v : Box)
  | defineProperty (receiver : Box) (name : String) (descriptor : Box)
  | deleteProperty (receiver : Box) (name : String)
  | setElement (receiver : Box) (index : Int) (v : Box)
  | setPrototype (v proto : Box)
  | call (f this : Box) (args : List Box)
  | instanceOf (v type : Box)
  | newObject
  | newArray
  | newArrayOfLength (n : ℕ)
  | newObjectWithPrototype (proto : Box)
  | newReference (tag : TypeTag) (handle environment : UInt64)
  | newFunction (key : String)
  | newSymbol (description : Option String)
  | newText (bytes : List UInt8) (length : ℕ)
  | newValue (v : Value)
  | parse (text : String)
  | throwException (b : Box)
  | takeException
  | registerDispatcher

namespace Request

open Operation

variable [Library] {H : Type}

def run [Memory] (host : Host H) : Request → Operation H Unit
  | getProperty receiver name => discard (Operation.getProperty host receiver name)
  | setProperty receiver name v => Operation.setProperty host receiver name v
  | defineProperty receiver name descriptor =>
    Operation.defineProperty host receiver name descriptor
  | deleteProperty receiver name => discard (update (.delete receiver.value name))
  | setElement receiver index v => update (.setElement receiver.value index v.value)
  | setPrototype v proto => update (.setPrototype v.value proto.value)
  | call f this args => discard (Operation.call host f this args)
  | instanceOf v type => discard (Operation.instanceOf host v type)
  | newObject => discard (make (·.create (.ofClass .plain)))
  | newArray => discard (make (·.create (.ofClass (.array #[]))))
  | newArrayOfLength n => discard (update (.createArray n))
  | newObjectWithPrototype proto => discard (update (.createWithPrototype proto.value))
  | newReference tag handle environment =>
    discard (update (.createReference tag handle environment))
  | newFunction key => discard (make (·.createNative key))
  | newSymbol description => discard (make (·.createSymbol description))
  | newText bytes length => discard (make (·.createText bytes length))
  | newValue v => discard (box v)
  | parse text => discard (update (.parse text))
  | throwException b => make fun e => ((), e.throwException b)
  | takeException => discard (make Engine.takeException)
  | registerDispatcher => make fun e => ((), { e with hasDispatcher := true })

/-- Carry requests out one after the other, whether they succeed or fail. -/
def runAll [Memory] (host : Host H) : List Request → World H → World H
  | [], w => w
  | r :: rs, w => runAll host rs ((r.run host).outcome w).2

/-- The boxes that a request hands to the engine. -/
def boxes : Request → List Box
  | getProperty receiver _ => [receiver]
  | setProperty receiver _ v => [receiver, v]
  | defineProperty receiver _ descriptor => [receiver, descriptor]
  | deleteProperty receiver _ => [receiver]
  | setElement receiver _ v => [receiver, v]
  | setPrototype v proto => [v, proto]
  | call f this args => f :: this :: args
  | instanceOf v type => [v, type]
  | newObjectWithPrototype proto => [proto]
  | throwException b => [b]
  | newObject | newArray | newArrayOfLength _ | newReference _ _ _ | newFunction _ | newSymbol _
  | newText _ _ | newValue _ | parse _ | takeException | registerDispatcher => []

end Request

open Engine (Step Steps Change StoresOnly)

variable [Library] [Memory] {H : Type} {host : Host H} {rules : Rules H} {w : World H}

namespace Request

open Operation

omit [Memory] in
/-- What stores no values that it is given leads on. -/
theorem leads_of_own {e e' : Engine} (h : Step e e') (hchange : Change e e')
    (hstores : StoresOnly [] e e') : rules.leads e e' :=
  rules.leads_of_change (List.forall_mem_nil _) h hchange hstores

omit [Memory] in
theorem leads_create {e : Engine} {o : Object} (h : Step e (e.create o).2) (hfresh : o.Fresh)
    (hbelow : ∀ n, o.Below n) : rules.leads e (e.create o).2 :=
  leads_of_own h (Engine.change_create hfresh) (Engine.storesOnly_create hbelow)

/-- A request that is given what it may be given keeps the rules, if the functions it runs do. -/
theorem run_keeps (hhost : host.Keeps rules) (r : Request) (hr : rules.AdmitsAll w.engine r.boxes) :
    (r.run host).Keeps rules w := by
  have hdone : ∀ {α : Type} {a : Operation H α}, a.Keeps rules w → (discard a).Keeps rules w :=
    fun ha => ha.map fun _ _ _ => trivial
  have hsame : ∀ {e' : Engine}, Step w.engine e' → e'.objects = w.engine.objects →
      (∀ b ∈ e'.pending, b ∈ w.engine.pending) → rules.leads w.engine e' :=
    fun h hobjects hpending => leads_of_own h (Change.none hobjects)
      (Engine.storesOnly_pending hobjects fun b hb => .inl (hpending b hb))
  unfold run
  cases r with
  | getProperty receiver name =>
    exact hdone (keepsTo_getProperty hhost (hr _ (by simp [boxes]))).keeps
  | setProperty receiver name v => exact keeps_setProperty hhost hr
  | defineProperty receiver name d => exact keeps_defineProperty hhost (hr _ (by simp [boxes]))
  | deleteProperty receiver name =>
    exact hdone (keeps_update (Engine.Update.atomic_delete _ _) fun _ _ h =>
      leads_of_own (Step.delete h) (Engine.change_delete h) (Engine.storesOnly_delete h))
  | setElement receiver index v =>
    have hv := rules.yields_of_admits (hr v (by simp [boxes]))
    apply keeps_update_unit (Engine.Update.atomic_setElement _ _ _)
    intro e h
    replace h := Engine.setElement_granted h
    exact rules.leads_of_change (List.forall_mem_singleton.mpr hv) (Step.setElement h)
      (Engine.change_setElement h) (Engine.storesOnly_setElement h)
  | setPrototype v proto =>
    have hproto := hr proto (by simp [boxes])
    exact keeps_update_unit (Engine.Update.atomic_setPrototype _ _) fun _ h =>
      rules.leads_of_setPrototype hproto h
  | call f this args =>
    exact hdone
      (keepsTo_callValue hhost f.value fun b hb => hr b (List.mem_cons_of_mem f hb)).keeps
  | instanceOf v type => exact hdone (keeps_instanceOf hhost (hr _ (by simp [boxes])))
  | newObject =>
    exact hdone (keeps_make (leads_create Step.newObject (.ofClass .plain)
      fun _ => Object.below_ofClass rfl))
  | newArray =>
    exact hdone (keeps_make (leads_create Step.newArray (.ofClass (.array #[]))
      fun _ => Object.below_ofArray nofun))
  | newArrayOfLength n =>
    apply hdone
    apply keeps_update (Engine.Update.atomic_createArray n)
    intro b e h
    replace h := Engine.createArray_granted h
    exact leads_of_own (Step.createArray h) (Engine.change_createArray h)
      (Engine.storesOnly_createArray h)
  | newObjectWithPrototype proto =>
    have hproto := hr proto (by simp [boxes])
    exact hdone (keeps_update (Engine.Update.atomic_createWithPrototype _) fun _ _ h =>
      rules.leads_of_createWithPrototype hproto h)
  | newReference tag handle environment =>
    exact hdone (keeps_update (Engine.Update.atomic_createReference _ _ _) fun _ _ h =>
      leads_of_own (Step.createReference h) (Engine.change_createReference h)
        (Engine.storesOnly_createReference h))
  | newFunction key =>
    have hfresh := Object.Fresh.ofClass (.function (.native key))
    exact hdone (keeps_make (leads_create (Step.createNative key) hfresh
      fun _ => Object.below_ofClass rfl))
  | newSymbol d => exact hdone (keeps_make (hsame (Step.createSymbol d) rfl fun _ => id))
  | newText bytes n => exact hdone (keeps_make (hsame (Step.createText bytes n) rfl fun _ => id))
  | newValue v => exact hdone (keeps_box v)
  | parse text =>
    exact hdone (keeps_update (Engine.Update.atomic_parse _) fun _ _ h =>
      leads_of_own (Step.parse h) (Engine.change_parse h) (Engine.storesOnly_parse h))
  | throwException b =>
    have hb := rules.yields_of_admits (hr b (by simp [boxes]))
    exact keeps_make (rules.leads_of_change (List.forall_mem_singleton.mpr hb)
      (Step.throwException b) (Change.none rfl) (Engine.storesOnly_throwException b))
  | takeException => exact hdone (keeps_make (hsame Step.takeException rfl nofun))
  | registerDispatcher => exact keeps_make (hsame Step.registerDispatcher rfl fun _ => id)

/-- Every request of a run is given what it may be given when its turn comes. -/
def AllAdmitted (rules : Rules H) (host : Host H) : List Request → World H → Prop
  | [], _ => True
  | r :: rs, w =>
    rules.AdmitsAll w.engine r.boxes ∧ AllAdmitted rules host rs ((r.run host).outcome w).2

theorem runAll_keeps (hhost : host.Keeps rules) {rs : List Request}
    (hrs : AllAdmitted rules host rs w) (hw : rules.holds w) :
    rules.holds (runAll host rs w) ∧ rules.leads w.engine (runAll host rs w).engine := by
  induction rs generalizing w with
  | nil => exact ⟨hw, rules.leads_refl _⟩
  | cons r rs ih =>
    obtain ⟨hfirst, hleads⟩ := (run_keeps hhost r hrs.1 hw).1
    obtain ⟨hlast, hrest⟩ := ih hrs.2 hfirst
    exact ⟨hlast, rules.leads_trans hleads hrest⟩

/-- What may be given at first may be given whenever its turn comes. -/
theorem allAdmitted_of_admitsAll (hhost : host.Keeps rules) {rs : List Request} (hw : rules.holds w)
    (hrs : ∀ r ∈ rs, rules.AdmitsAll w.engine r.boxes) : AllAdmitted rules host rs w := by
  induction rs generalizing w with
  | nil => trivial
  | cons r rs ih =>
    obtain ⟨hr, hrs⟩ := List.forall_mem_cons.mp hrs
    obtain ⟨hnext, hleads⟩ := (run_keeps hhost r hr hw).1
    exact ⟨hr, ih hnext fun r' hr' => (hrs r' hr').of_leads hleads⟩

theorem allAdmitted_free (rs : List Request) (w : World H) : AllAdmitted Rules.free host rs w := by
  induction rs generalizing w with
  | nil => trivial
  | cons r rs ih => exact ⟨fun _ _ => trivial, ih _⟩

/-- A run of requests amounts to steps of the engine, if the functions it runs do. -/
theorem runAll_steps (hhost : host.Conforms) (rs : List Request) (w : World H) :
    Steps w.engine (runAll host rs w).engine :=
  (runAll_keeps hhost.keeps (allAdmitted_free rs w) trivial).2

theorem runAll_reachable (config : Config) (rs : List Request) :
    (runAll (Host.idle : Host Unit) rs ⟨.new config, .empty, ()⟩).engine.Reachable :=
  ⟨config, runAll_steps Host.idle_conforms rs ⟨.new config, .empty, ()⟩⟩

end Request

end ValueEngine
