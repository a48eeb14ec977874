import ValueEngine.Property.Basic

/-! The property table of an object: a hash table with chained buckets over an array of
records. A link is an index plus one, and 0 ends a chain. Each live record is on
the chain of its bucket; deleted records are chained on a free list through the
same field and are filled again, the last deleted first. The operations take the
hash function as an argument. -/

namespace ValueEngine.Property

/-- A record of a table; one without a key is deleted. -/
structure Record where
  key : Option String
  slot : Slot
  flags : Flags
  next : Nat
  deriving Inhabited

structure Table where
  live : Nat
  records : Array Record
  buckets : Array Nat
  free : Nat
  deriving Inhabited

namespace Table

def minBuckets : Nat := 4

/-- A table without records, its buckets a power of two that is at least `capacity`. -/
def withCapacity (capacity : Nat) : Table :=
  ⟨0, #[], Array.replicate (max capacity.nextPowerOfTwo minBuckets) 0, 0⟩

def new : Table := withCapacity 0

def size (t : Table) : Nat := t.live
def isEmpty (t : Table) : Bool := t.live = 0

/-- The record indices met from a link on, at most `steps` of them. -/
def follow (records : Array Record) : (steps : Nat) → (link : Nat) → List Nat
  | 0, _ => []
  | _ + 1, 0 => []
  | steps + 1, i + 1 => i :: follow records steps ((records[i]?).map (·.next) |>.getD 0)

/-- The records that a link leads to. A chain never has more links than there are
records. -/
def chain (t : Table) (link : Nat) : List Nat := follow t.records t.records.size link

def bucketOf (hash : String → Nat) (count : Nat) (key : String) : Nat := hash key % count

def head (buckets : Array Nat) (b : Nat) : Nat := (buckets[b]?).getD 0

def hasKey (t : Table) (key : String) (i : Nat) : Bool :=
  match t.records[i]? with
  | some r => r.key == some key
  | none => false

variable (hash : String → Nat)

def find? (t : Table) (key : String) : Option Nat :=
  if t.live = 0 then none
  else (t.chain (head t.buckets (bucketOf hash t.buckets.size key))).find? (t.hasKey key)

def get? (t : Table) (key : String) : Option Property := do
  let i ← t.find? hash key
  let r ← t.records[i]?
  return ⟨key, r.slot, r.flags⟩

def contains (t : Table) (key : String) : Bool := (t.find? hash key).isSome

/-- Put record `i` at the head of the chain of its bucket. -/
def enchain (key : String) (i : Nat) (t : Table) : Table :=
  let b := bucketOf hash t.buckets.size key
  { t with
    records := t.records.modify i fun r => { r with next := head t.buckets b }
    buckets := t.buckets.setIfInBounds b (i + 1) }

def enchainFrom : (count : Nat) → (i : Nat) → Table → Table
  | 0, _, t => t
  | count + 1, i, t =>
    match (t.records[i]?).bind (·.key) with
    | some key => enchainFrom count (i + 1) (enchain hash key i t)
    | none => enchainFrom count (i + 1) t

/-- Rebuild the chains over another number of buckets. -/
def rehash (t : Table) (count : Nat) : Table :=
  enchainFrom hash t.records.size 0 { t with buckets := Array.replicate count 0 }

/-- Double the buckets when one more record would fill them past three quarters. -/
def makeRoom (t : Table) : Table :=
  if t.buckets.size * 3 < (t.live + 1) * 4 then t.rehash hash (t.buckets.size * 2) else t

/-- Store a record where the free list says, or after the last one. Answers its index. -/
def place (t : Table) (r : Record) : Nat × Table :=
  match t.free with
  | 0 => (t.records.size, { t with records := t.records.push r })
  | i + 1 =>
    (i, { t with
      free := ((t.records[i]?).map (·.next)).getD 0
      records := t.records.setIfInBounds i r })

/-- Insert a key that the table does not have. -/
def insertNew (t : Table) (key : String) (slot : Slot) (flags : Flags) : Table :=
  let t := t.makeRoom hash
  let (i, t) := t.place ⟨some key, slot, flags, 0⟩
  { enchain hash key i t with live := t.live + 1 }

/-- Assign a value. An existing property keeps its flags and becomes a data property;
a new one has every flag. Answers whether it is new. -/
def set (t : Table) (key : String) (v : Value) : Bool × Table :=
  match t.find? hash key with
  | some i => (false, { t with records := t.records.modify i fun r => { r with slot := .data v } })
  | none => (true, t.insertNew hash key (.data v) Flags.all)

/-- Insert or replace a property as given. Answers whether it is new. -/
def define (t : Table) (key : String) (slot : Slot) (flags : Flags) : Bool × Table :=
  match t.find? hash key with
  | some i =>
    (false, { t with records := t.records.modify i fun r => { r with slot, flags } })
  | none => (true, t.insertNew hash key slot flags)

/-- Make whatever links to record `i` link to `next` instead. -/
def unlink (t : Table) (b i next : Nat) : Table :=
  match (t.chain (head t.buckets b)).find? fun j =>
      ((t.records[j]?).map (·.next)) == some (i + 1) with
  | some j => { t with records := t.records.modify j fun r => { r with next } }
  | none => { t with buckets := t.buckets.setIfInBounds b next }

/-- Delete a property and put its record on the free list. Answers whether there was one. -/
def erase (t : Table) (key : String) : Bool × Table :=
  match t.find? hash key with
  | none => (false, t)
  | some i =>
    let next := ((t.records[i]?).map (·.next)).getD 0
    let t := t.unlink (bucketOf hash t.buckets.size key) i next
    (true, { t with
      live := t.live - 1
      records := t.records.modify i fun r =>
        { r with key := none, slot := .data .undefined, next := t.free }
      free := i + 1 })

/-- The live properties in the order of their records. -/
def toList (t : Table) : List Property :=
  t.records.toList.filterMap fun r => r.key.map fun key => ⟨key, r.slot, r.flags⟩

def keys (t : Table) : List String := t.toList.map (·.key)

end Table

/-- The hash under which objects keep their names: a polynomial in the characters. -/
def nameHash (name : String) : Nat :=
  name.toList.foldl (fun h c => (31 * h + c.toNat) % 0x100000000) 7

end ValueEngine.Property
