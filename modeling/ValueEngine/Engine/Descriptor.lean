import ValueEngine.Engine.Access

/-! Defining properties by descriptors. A descriptor says what it wants of a property and
leaves the rest open. It is checked as a whole before the object is touched; a
property that is not configurable takes only what it already is, except that a
writable one may be given another value or made read-only. -/

namespace ValueEngine

/-- What a descriptor object states; a part that is `none` is left open. -/
structure Descriptor where
  value : Option Value
  writable : Option Bool
  getter : Option Value
  setter : Option Value
  enumerable : Option Bool
  configurable : Option Bool
  deriving Inhabited

namespace Descriptor

def isAccessor (d : Descriptor) : Bool := d.getter.isSome || d.setter.isSome
def isData (d : Descriptor) : Bool := d.value.isSome || d.writable.isSome

/-- A stated accessor function; undefined states that there is none. -/
def half (stated : Option Value) : Option Value := stated.filter (!·.isUndefined)

/-- A stated accessor function is the one that is there. -/
def sameHalf (stated current : Option Value) : Bool :=
  match half stated, half current with
  | none, none => true
  | some f, some g => f.same g
  | _, _ => false

/-- A part of a descriptor agrees with what is there, or is left open. -/
def openOr (agrees : Value → Bool) (stated : Option Value) : Bool := stated.all agrees

/-- The property that is not configurable admits what the descriptor states. -/
def admittedBy (d : Descriptor) (slot : Slot) (flags : Flags) : Bool :=
  d.configurable != some true && d.enumerable.all (· == flags.enumerable) &&
  match slot with
  | .data current =>
    !d.isAccessor &&
      (flags.writable || (d.writable != some true && openOr (·.sameOrBothNaN current) d.value))
  | .accessor getter setter =>
    !d.isData && openOr (fun f => sameHalf (some f) getter) d.getter &&
      openOr (fun f => sameHalf (some f) setter) d.setter

def newSlot (d : Descriptor) : Slot :=
  if d.isAccessor then .accessor (half d.getter) (half d.setter)
  else .data (d.value.getD .undefined)

/-- A new property has the flags that are stated and no others. -/
def newFlags (d : Descriptor) : Flags :=
  ⟨d.writable.getD false, d.enumerable.getD false, d.configurable.getD false⟩

def mergedHalf (stated current : Option Value) : Option Value :=
  match stated with
  | some f => half (some f)
  | none => current

/-- The slot and the writable flag after the descriptor is applied to a property. A
property that changes its kind keeps nothing of its old slot. -/
def mergedSlot (d : Descriptor) (slot : Slot) (writable : Bool) : Slot × Bool :=
  if d.isAccessor then
    match slot with
    | .accessor getter setter =>
      (.accessor (mergedHalf d.getter getter) (mergedHalf d.setter setter), false)
    | .data _ => (.accessor (half d.getter) (half d.setter), false)
  else if d.isData then
    match slot with
    | .data current => (.data (d.value.getD current), d.writable.getD writable)
    | .accessor .. => (.data (d.value.getD .undefined), d.writable.getD false)
  else (slot, writable)

def merge (d : Descriptor) (slot : Slot) (flags : Flags) : Slot × Flags :=
  let (slot, writable) := d.mergedSlot slot flags.writable
  (slot, ⟨writable, d.enumerable.getD flags.enumerable, d.configurable.getD flags.configurable⟩)

end Descriptor

namespace Engine

/-- A descriptor must not be of both kinds, and its functions must be functions. -/
def checkDescriptor (e : Engine) (d : Descriptor) : Except Fault Unit :=
  if d.isAccessor && d.isData then .error .mixedDescriptor
  else if [d.getter, d.setter].all (·.all fun f => f.isUndefined || e.isFunction f) then .ok ()
  else .error .halfNotFunction

namespace Update

variable [Library] [Memory]

/-- Define the length or an element of an array: only a value can be stated, and it is
assigned. -/
def defineVirtual (id : ObjectId) (name : String) (d : Descriptor) : Update Unit :=
  if d.isAccessor then throw .accessorOnElement
  else
    match d.value with
    | none => return ()
    | some v => discard (assignVirtual id name v)

def defineNamed (id : ObjectId) (name : String) (d : Descriptor) : Update Unit := do
  match ← look fun e => (e.object id).named? name with
  | none => write id (·.define name d.newSlot d.newFlags)
  | some p =>
    if p.flags.configurable || d.admittedBy p.slot p.flags then
      let (slot, flags) := d.merge p.slot p.flags
      write id (·.define name slot flags)
    else throw (.cannotRedefine name)

def define (id : ObjectId) (name : String) (d : Descriptor) : Update Unit := do
  ask (·.checkDescriptor d)
  if ← look fun e => (e.object id).isVirtual name then defineVirtual id name d
  else defineNamed id name d

end Update

def defineOwn [Library] [Memory] (e : Engine) (id : ObjectId) (name : String) (d : Descriptor) :
    Except Fault Engine :=
  (Update.define id name d).final e

end Engine

end ValueEngine
