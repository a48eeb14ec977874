/-! Memory. What needs storage asks for it before it is used, and may be refused, whatever
the limits of the engine allow. So what grants storage is a parameter of the operations
that need some. Where none is named it is the memory that refuses nothing. -/

namespace ValueEngine

/-- What grants storage. -/
class Memory where
  /-- Whether an array of `held` elements gets storage for `more` of them. -/
  grants (held more : Nat) : Bool

namespace Memory

/-- The memory that refuses nothing. -/
instance boundless : Memory := ⟨fun _ _ => true⟩

@[simp] theorem grants_boundless (held more : Nat) : boundless.grants held more = true := rfl

end Memory

end ValueEngine
