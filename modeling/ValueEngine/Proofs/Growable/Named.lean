import ValueEngine.Growable.Store
import ValueEngine.Proofs.Growable.Plain

/-! Commands on named arrays. A name stands for a record of a store, several names may
stand for one record, and the elements that a command adds are given with it or
read from a named array before anything changes. The same commands run on a
table of plain lists. -/

namespace ValueEngine

/-- An operation on an array. What it adds is given by an `ι`. -/
inductive Edit (ι α : Type)
  | push (items : ι)
  | pop
  | shift
  | unshift (items : ι)
  | splice (start : Float) (number : Option Float) (items : Option ι)
  | slice (first : Float) (last : Option Float)
  | concat (other : ι)
  | reverse
  | fill (x : α) (first : Float) (last : Option Float)
  | copyWithin (target first : Float) (last : Option Float)
  | set (i : ℕ) (x : α)

/-- What an operation answers. -/
inductive Answer (α : Type)
  | nothing
  | length (n : ℕ)
  | element (x : α)
  | elements (xs : List α)
  | changed (b : Bool)

/-- What an operation comes to: its answer, the array that it works on as it is
afterwards, and the array that it makes, if it makes one. -/
structure Effect (α γ : Type) where
  answer : Answer α
  receiver : γ
  made : Option γ

variable {ι κ α : Type}

def Edit.map (f : ι → κ) : Edit ι α → Edit κ α
  | push items => push (f items)
  | pop => pop
  | shift => shift
  | unshift items => unshift (f items)
  | splice start number items => splice start number (items.map f)
  | slice first last => slice first last
  | concat other => concat (f other)
  | reverse => reverse
  | fill x first last => fill x first last
  | copyWithin target first last => copyWithin target first last
  | set i x => set i x

def Growable.perform [Memory] [Cell α] (g : Growable α) :
    Edit (List α) α → Except ArrayFault (Effect α (Growable α))
  | .push items => do
    let (n, g) ← g.push items
    return ⟨.length n, g, none⟩
  | .pop => do
    let (x, g) ← g.pop
    return ⟨.element x, g, none⟩
  | .shift => do
    let (x, g) ← g.shift
    return ⟨.element x, g, none⟩
  | .unshift items => do
    let (n, g) ← g.unshift items
    return ⟨.length n, g, none⟩
  | .splice start number items => do
    let (removed, g) ← g.splice start number (items.getD [])
    return ⟨.elements removed.toList, g, .some removed⟩
  | .slice first last => return ⟨.elements (g.slice first last).toList, g, .some (g.slice first last)⟩
  | .concat other => do
    let made ← g.append (.ofList other)
    return ⟨.elements made.toList, g, .some made⟩
  | .reverse => return ⟨.nothing, g.reverse, none⟩
  | .fill x first last => return ⟨.nothing, g.fill x first last, none⟩
  | .copyWithin target first last => return ⟨.nothing, g.copyWithin target first last, none⟩
  | .set i x => return ⟨.changed (g.set i x).1, (g.set i x).2, none⟩

def Plain.perform (p : Plain α) : Edit (List α) α → Except ArrayFault (Effect α (Plain α))
  | .push items => do
    let (n, p) ← p.push items
    return ⟨.length n, p, none⟩
  | .pop => do
    let (x, p) ← p.pop
    return ⟨.element x, p, none⟩
  | .shift => do
    let (x, p) ← p.shift
    return ⟨.element x, p, none⟩
  | .unshift items => do
    let (n, p) ← p.unshift items
    return ⟨.length n, p, none⟩
  | .splice start number items => do
    let (removed, p) ← p.splice start number (items.getD [])
    return ⟨.elements removed, p, .some (.ofList removed)⟩
  | .slice first last => return ⟨.elements (p.slice first last), p, .some (.ofList (p.slice first last))⟩
  | .concat other => return ⟨.elements (p.elements ++ other), p, .some (.ofList (p.elements ++ other))⟩
  | .reverse => return ⟨.nothing, p.reverse, none⟩
  | .fill x first last => return ⟨.nothing, p.fill x first last, none⟩
  | .copyWithin target first last => return ⟨.nothing, p.copyWithin target first last, none⟩
  | .set i x => return ⟨.changed (p.set i x).1, (p.set i x).2, none⟩

/-- Elements that a command lists, or those of a named array. -/
inductive Source (α : Type)
  | listed (xs : List α)
  | named (name : String)

/-- A command makes an array, gives an array a further name, or works on the array of a
name. An array that is made by the work is named if a name is given for it. -/
inductive Command
  | make (k : ElementKind) (xs : List k.Carrier) (as : String)
  | alias (name as : String)
  | edit (k : ElementKind) (name : String) (e : Edit (Source k.Carrier) k.Carrier)
      (as : Option String)

/-- The outcome of an edit. There is none if its name stands for no array of its kind, and
none of giving an array a further name. -/
abbrev Outcome := Option (Except ArrayFault ((k : ElementKind) × Answer k.Carrier))

/-- The records that names stand for. -/
abbrev Naming := String → Option ℕ

def Naming.bind (names : Naming) (as : Option String) (id : Option ℕ) : Naming :=
  match as with
  | some name => Function.update names name id
  | none => names

/-- Names over a store of growable arrays. -/
structure Desk where
  names : Naming
  store : Store

namespace Desk

/-- The array of a name, with the number of its record. -/
def lookup? (d : Desk) (k : ElementKind) (name : String) : Option (ℕ × Growable k.Carrier) :=
  match d.names name with
  | some id => if d.store.kind? id = some k then some (id, d.store.get k id) else none
  | none => none

def read (d : Desk) (k : ElementKind) : Source k.Carrier → List k.Carrier
  | .listed xs => xs
  | .named name =>
    match d.lookup? k name with
    | some (_, g) => g.toList
    | none => []

/-- Keep an array that was made, under a record of its own. -/
def keep (d : Desk) (k : ElementKind) (g : Growable k.Carrier) (as : Option String) : Desk :=
  let (id, store) := d.store.add k g
  ⟨d.names.bind as (some id), store⟩

/-- Write back what an operation leaves, and keep what it makes. -/
def settle (d : Desk) (k : ElementKind) (id : ℕ) (as : Option String)
    (r : Effect k.Carrier (Growable k.Carrier)) : Desk :=
  match r.made with
  | some made => keep { d with store := d.store.put k id r.receiver } k made as
  | none => { d with store := d.store.put k id r.receiver }

def edit (d : Desk) (k : ElementKind) (name : String) (e : Edit (Source k.Carrier) k.Carrier)
    (as : Option String) : Outcome × Desk :=
  match d.lookup? k name with
  | none => (none, d)
  | some (id, g) =>
    match g.perform (e.map (d.read k)) with
    | .error f => (some (.error f), d)
    | .ok r => (some (.ok ⟨k, r.answer⟩), d.settle k id as r)

def step (d : Desk) : Command → Outcome × Desk
  | .make k xs as => (some (.ok ⟨k, .elements xs⟩), d.keep k (.ofList xs) (some as))
  | .alias name as => (none, { d with names := d.names.bind as (d.names name) })
  | .edit k name e as => d.edit k name e as

/-- The outcomes of commands one after another, each with the desk that it leaves. -/
def trace (d : Desk) : List Command → List (Outcome × Desk)
  | [] => []
  | c :: cs => d.step c :: (d.step c).2.trace cs

def after (d : Desk) : List Command → Desk
  | [] => d
  | c :: cs => (d.step c).2.after cs

/-- The record that a command works on. -/
def receiver? (d : Desk) : Command → Option ℕ
  | .make .. => none
  | .alias .. => none
  | .edit k name _ _ => (d.lookup? k name).map (·.1)

def empty : Desk := ⟨fun _ => none, .empty⟩

end Desk

/-- Names over a table of plain lists. -/
structure PlainDesk where
  names : Naming
  next : ℕ
  records : ℕ → Option ((k : ElementKind) × Plain k.Carrier)

namespace PlainDesk

def lookup? (d : PlainDesk) (k : ElementKind) (name : String) : Option (ℕ × Plain k.Carrier) :=
  match d.names name with
  | some id =>
    match d.records id with
    | some ⟨k', p⟩ => if h : k' = k then some (id, h ▸ p) else none
    | none => none
  | none => none

def read (d : PlainDesk) (k : ElementKind) : Source k.Carrier → List k.Carrier
  | .listed xs => xs
  | .named name =>
    match d.lookup? k name with
    | some (_, p) => p.elements
    | none => []

/-- Change the list of one record; all others stay. -/
def put (d : PlainDesk) (k : ElementKind) (id : ℕ) (p : Plain k.Carrier) : PlainDesk :=
  { d with records := Function.update d.records id (some ⟨k, p⟩) }

def keep (d : PlainDesk) (k : ElementKind) (p : Plain k.Carrier) (as : Option String) : PlainDesk :=
  ⟨d.names.bind as (some d.next), d.next + 1, Function.update d.records d.next (some ⟨k, p⟩)⟩

def settle (d : PlainDesk) (k : ElementKind) (id : ℕ) (as : Option String)
    (r : Effect k.Carrier (Plain k.Carrier)) : PlainDesk :=
  match r.made with
  | some made => keep (d.put k id r.receiver) k made as
  | none => d.put k id r.receiver

def edit (d : PlainDesk) (k : ElementKind) (name : String) (e : Edit (Source k.Carrier) k.Carrier)
    (as : Option String) : Outcome × PlainDesk :=
  match d.lookup? k name with
  | none => (none, d)
  | some (id, p) =>
    match p.perform (e.map (d.read k)) with
    | .error f => (some (.error f), d)
    | .ok r => (some (.ok ⟨k, r.answer⟩), d.settle k id as r)

def step (d : PlainDesk) : Command → Outcome × PlainDesk
  | .make k xs as => (some (.ok ⟨k, .elements xs⟩), d.keep k (.ofList xs) (some as))
  | .alias name as => (none, { d with names := d.names.bind as (d.names name) })
  | .edit k name e as => d.edit k name e as

def trace (d : PlainDesk) : List Command → List (Outcome × PlainDesk)
  | [] => []
  | c :: cs => d.step c :: (d.step c).2.trace cs

end PlainDesk

end ValueEngine
