import ValueEngine.Engine.State

/-! Prototype chains. A walk along a chain follows a bounded number of links, and a chain
with more links is a fault. A search stops at the first object that has the
property. -/

namespace ValueEngine.Engine

variable [Library]

def prototype? (e : Engine) (id : ObjectId) : Option ObjectId := (e.object id).prototype

/-- The nearest property of a name, found over at most `links` links. -/
def lookupWithin (e : Engine) (name : String) :
    (links : Nat) → ObjectId → Except Fault (Option Property)
  | links, id =>
    match (e.object id).own? name with
    | some p => .ok (some p)
    | none =>
      match links, e.prototype? id with
      | _, none => .ok none
      | 0, some _ => .error .chainTooDeep
      | links + 1, some next => lookupWithin e name links next

/-- The property that reading or assigning a name meets first. -/
def lookup (e : Engine) (id : ObjectId) (name : String) : Except Fault (Option Property) :=
  e.lookupWithin name e.config.maxPrototypeDepth id

/-- Whether a chain, given by its first object if it has one, comes to a target. An
object is compared before it is counted as a link. -/
def leadsTo (e : Engine) (target : ObjectId) : (links : Nat) → Option ObjectId → Except Fault Bool
  | _, none => .ok false
  | links, some id =>
    if id = target then .ok true
    else
      match links with
      | 0 => .error .chainTooDeep
      | links + 1 => leadsTo e target links (e.prototype? id)

/-- Whether an object or one of its prototypes has a property. -/
def has (e : Engine) (v : Value) (name : String) : Except Fault Bool := do
  return (← e.lookup (← v.toObject) name).isSome

end ValueEngine.Engine
