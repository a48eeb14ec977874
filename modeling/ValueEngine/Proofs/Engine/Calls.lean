import ValueEngine.Engine.Comparison
import ValueEngine.Proofs.Engine.Atomicity

/-! The calls that operations make. A host can note down every call of its functions beside running
them; an operation on that host leaves the list of the calls that it has made by itself, whatever
the functions do in between. What an operation comes to on any host depends on the engine only: it
makes no call, or it is one call and hands the result on. -/

namespace ValueEngine

/-- A call of a function of the host. -/
structure Invocation where
  callee : Callable
  this : Box
  args : List Box

variable {H α : Type}

def Host.invoke (host : Host H) (call : Invocation) : Operation H Box :=
  match call.callee with
  | .native name => host.native name call.this call.args
  | .external function environment => host.dispatch function environment call.this call.args

namespace World

/-- The world with a list of calls beside the state of the host. -/
def noting (w : World H) (calls : List Invocation) : World (H × List Invocation) :=
  ⟨w.engine, w.arrays, (w.host, calls)⟩

def calls (w : World (H × List Invocation)) : List Invocation := w.host.2

def unnoted (w : World (H × List Invocation)) : World H := ⟨w.engine, w.arrays, w.host.1⟩

end World

namespace Host

variable {host : Host H}

/-- Make a call and note it down. -/
def invokeNoting (host : Host H) (call : Invocation) : Operation (H × List Invocation) Box :=
  ExceptT.mk fun w =>
    let (result, t) := (host.invoke call).outcome w.unnoted
    (result, t.noting (w.calls ++ [call]))

/-- The host that notes down the calls of its functions. -/
def noting (host : Host H) : Host (H × List Invocation) where
  native name this args := host.invokeNoting ⟨.native name, this, args⟩
  dispatch function environment this args :=
    host.invokeNoting ⟨.external function environment, this, args⟩

theorem outcome_invoke_noting (call : Invocation) (w : World H) (calls : List Invocation) :
    (host.noting.invoke call).outcome (w.noting calls) =
      (((host.invoke call).outcome w).1,
        ((host.invoke call).outcome w).2.noting (calls ++ [call])) := by
  obtain ⟨callee, this, args⟩ := call
  cases callee <;> rfl

end Host

namespace Operation

/-- What an operation comes to, and the calls that it makes by itself. -/
def traced (op : ∀ H : Type, Host H → Operation H α) (host : Host H) (w : World H) :
    (Except Fault α × World H) × List Invocation :=
  let result := (op _ host.noting).outcome (w.noting [])
  ((result.1, result.2.unnoted), result.2.calls)

/-- The operation makes no call. -/
def Quiet (op : ∀ H : Type, Host H → Operation H α) (host : Host H) (w : World H) : Prop :=
  traced op host w = ((op H host).outcome w, [])

/-- The operation makes one call and no other, in the world as it is. It has the result that `f`
makes of the result of the function, or the fault of it, and leaves the world as the function
does. -/
def Delegates (op : ∀ H : Type, Host H → Operation H α) (host : Host H) (w : World H)
    (call : Invocation) (f : Box → α) : Prop :=
  let (result, t) := (host.invoke call).outcome w
  (op H host).outcome w = (result.map f, t) ∧ traced op host w = ((result.map f, t), [call])

variable {op : ∀ H : Type, Host H → Operation H α} {host : Host H} {w : World H}
variable {call : Invocation} {f : Box → α}

/-- An operation that comes to the same on every host makes no call. -/
theorem quiet_of_outcome (op : ∀ H : Type, Host H → Operation H α) (result : Except Fault α)
    (e : Engine) (h : ∀ (H' : Type) (host' : Host H') (w' : World H'), w'.engine = w.engine →
      (op H' host').outcome w' = (result, { w' with engine := e })) :
    (op H host).outcome w = (result, { w with engine := e }) ∧ Quiet op host w := by
  rw [Quiet, traced, h _ host.noting (w.noting []) rfl, h _ host w rfl]
  exact ⟨rfl, rfl⟩

/-- An operation that comes to a call on every host makes this call. -/
theorem delegates_of_outcome
    (h : ∀ (H' : Type) (host' : Host H') (w' : World H'), w'.engine = w.engine →
      (op H' host').outcome w' = (f <$> host'.invoke call).outcome w') :
    Delegates op host w call f := by
  rw [Delegates, traced, h _ host.noting (w.noting []) rfl, h _ host w rfl, Action.outcome_map,
    Action.outcome_map, Host.outcome_invoke_noting]
  exact ⟨rfl, rfl⟩

end Operation

/-- A function can be run: one of the host always, an external one if a dispatcher is registered. -/
def Engine.Runs (e : Engine) (c : Callable) : Prop :=
  ∀ function environment, c = .external function environment → e.hasDispatcher = true

namespace Operation

variable {host : Host H} {w : World H} {receiver this v : Box} {args : List Box} {name : String}
variable {f : Value} {c : Callable}

theorem outcome_callValue (hc : w.engine.callable? f = some c) (hruns : w.engine.Runs c) :
    (callValue host f this args).outcome w = (host.invoke ⟨c, this, args⟩).outcome w := by
  rw [callValue, Action.outcome_bind, Action.outcome_get]
  dsimp only
  rw [hc]
  cases c with
  | native name => rfl
  | external function environment =>
    dsimp only
    rw [Action.outcome_bind, Action.outcome_get]
    dsimp only
    rw [hruns function environment rfl]
    rfl

variable [Library]

/-- Reading through a getter is a call of it with the receiver and no argument. -/
theorem delegates_getProperty (hread : w.engine.read receiver.value name = .ok (.getter f))
    (hc : w.engine.callable? f = some c) (hruns : w.engine.Runs c) :
    Delegates (fun _ host => getProperty host receiver name) host w ⟨c, receiver, []⟩ some := by
  apply delegates_of_outcome
  intro H' host' w' hw
  rw [← hw] at hread hc hruns
  rw [getProperty, Action.outcome_bind, outcome_ask, hread]
  dsimp only
  rw [bind_pure_comp, Action.outcome_map, Action.outcome_map, outcome_callValue hc hruns]

/-- Assigning through a setter is a call of it with the receiver and the value. -/
theorem delegates_setProperty
    (hassign : w.engine.assign receiver.value name v.value = .ok (.setter f))
    (hc : w.engine.callable? f = some c) (hruns : w.engine.Runs c) :
    Delegates (fun _ host => setProperty host receiver name v) host w ⟨c, receiver, [v]⟩
      fun _ => () := by
  apply delegates_of_outcome
  intro H' host' w' hw
  rw [← hw] at hassign hc hruns
  rw [setProperty_eq, Action.outcome_bind, outcome_ask, hassign]
  change ((fun _ => ()) <$> callValue host' f receiver [v]).outcome w' = _
  rw [Action.outcome_map, Action.outcome_map, outcome_callValue hc hruns]

theorem getProperty_unreadable (hread : w.engine.read receiver.value name = .ok .unreadable) :
    (getProperty host receiver name).outcome w = (.ok (some Box.undefined), w) ∧
      Quiet (fun _ host => getProperty host receiver name) host w := by
  apply quiet_of_outcome (fun _ host => getProperty host receiver name) (.ok (some Box.undefined))
    w.engine
  intro H' host' w' hw
  rw [← hw] at hread ⊢
  rw [getProperty, Action.outcome_bind, outcome_ask, hread]
  rfl

theorem setProperty_refused (host : Host H) {fault : Fault}
    (hassign : w.engine.assign receiver.value name v.value = .error fault) :
    (setProperty host receiver name v).outcome w = (.error fault, w) ∧
      Quiet (fun _ host => setProperty host receiver name v) host w := by
  apply quiet_of_outcome (fun _ host => setProperty host receiver name v) (.error fault) w.engine
  intro H' host' w' hw
  rw [← hw] at hassign ⊢
  rw [setProperty_eq, Action.outcome_bind, outcome_ask, hassign]

end Operation

/-- A question to the engine that no function takes part in, with its answer. Deleting counts as
one. That none runs a function is the shape of the model: a question is put to the engine
alone, which holds keys of functions and cannot run them. -/
inductive Query : Type → Type
  | has (receiver : Value) (name : String) : Query Bool
  | readOwn (receiver : Value) (name : String) : Query (Option Slot)
  | delete (receiver : Value) (name : String) : Query Bool
  | typeOf (v : Value) : Query TypeTag
  | compare (l r : Box) (op : Operator) : Query Bool
  | compareAtBoundary (l r : Box) (op : Operator) (table : UInt64 → Option UInt64) : Query Bool

def Query.run [Library] : Query α → Operation H α
  | has receiver name => .ask (·.has receiver name)
  | readOwn receiver name => .ask (·.readOwn receiver name)
  | delete receiver name => .update (.delete receiver name)
  | typeOf v => .ask fun e => return e.typeOf v
  | compare l r op => .ask fun e => return e.compare l r op
  | compareAtBoundary l r op table => .ask fun e => return e.compareAtBoundary l r op table

namespace Operation

variable {host : Host H} {w : World H}

theorem quiet_ask (g : Engine → Except Fault α) : Quiet (fun _ _ => ask g) host w := by
  refine (quiet_of_outcome _ (g w.engine) w.engine fun H' host' w' hw => ?_).2
  rw [outcome_ask, ← hw]

theorem quiet_update (u : Engine.Update α) : Quiet (fun _ _ => update u) host w := by
  refine (quiet_of_outcome _ (u.outcome w.engine).1 (u.outcome w.engine).2
    fun H' host' w' hw => ?_).2
  rw [outcome_update, hw]

theorem quiet_query [Library] (q : Query α) : Quiet (fun _ _ => q.run) host w := by
  cases q with
  | delete receiver name => exact quiet_update _
  | _ => exact quiet_ask _

end Operation

end ValueEngine
