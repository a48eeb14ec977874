import ValueEngine.Engine.Lookup
import ValueEngine.Engine.Update

/-! Prototype links. A link is refused when it would close a cycle, and also when the
chain behind it is too long to be sure. -/

namespace ValueEngine.Engine

/-- What a value says as a prototype: an object, or null for none. -/
def asPrototype : Value → Except Fault (Option ObjectId)
  | .object id => .ok (some id)
  | .null => .ok none
  | _ => .error .prototypeNotObject

/-- Make a plain object with a given prototype. -/
def Update.createWithPrototype (proto : Value) : Update Box := do
  let proto ← .ofExcept (asPrototype proto)
  make (·.create { Object.ofClass .plain with prototype := proto })

def createWithPrototype (e : Engine) (proto : Value) : Except Fault (Box × Engine) :=
  (Update.createWithPrototype proto).result e

/-- Replace the prototype of an object. Other values have none, and setting it has no
effect on them. -/
def Update.setPrototype (v proto : Value) : Update Unit := do
  if v.isNothing then throw .setPrototypeOfNothing
  else
    let proto ← .ofExcept (asPrototype proto)
    match v with
    | .object id =>
      if ← ask fun e => e.leadsTo id e.config.maxPrototypeDepth proto then throw .circularChain
      else write id fun o => { o with prototype := proto }
    | _ => return ()

def setPrototype (e : Engine) (v proto : Value) : Except Fault Engine :=
  (Update.setPrototype v proto).final e

/-- The prototype of a value, if it has one. -/
def getPrototype (e : Engine) (v : Value) : Except Fault (Option ObjectId) :=
  if v.isNothing then .error .readPrototypeOfNothing
  else .ok (v.object?.bind e.prototype?)

end ValueEngine.Engine
