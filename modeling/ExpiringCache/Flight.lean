import ExpiringCache.Table
/-!
Flights: at most one caller at a time works on a key. A key in use has a slot that names a lock, and
the callers that share the lock take turns in the order in which they first asked. Slots are cleared
away when their last caller lets go, or, if that caller only stood in line, when anyone asks next.
-/

namespace ExpiringCache

/-- A caller that has asked for a key: the lock it was given then, and whether it has been told
that it holds it. -/
structure Claim (ι : Type) where
  id : ι
  key : String
  lock : Nat
  held : Bool

/-- The flights of a cache. `claims` stand in the order in which they were made; the first claim on
a lock is the one whose turn it is. -/
structure Flights (ι : Type) where
  slots : Table Nat
  claims : List (Claim ι)
  intended : List (ι × String)
  nextLock : Nat

inductive Turn where
  | held
  | waiting
  | gone
  deriving DecidableEq

inductive Departure where
  | released
  | cancelled
  | gone
  deriving DecidableEq

namespace Flights

variable {ι : Type}

def empty : Flights ι := ⟨.empty, [], [], 0⟩

instance : Inhabited (Flights ι) := ⟨empty⟩

def inFlight (f : Flights ι) : Nat := f.slots.size

/-- The claims on a lock, the one whose turn it is first. -/
def line (f : Flights ι) (lock : Nat) : List (Claim ι) := f.claims.filter (·.lock == lock)

def isWanted (f : Flights ι) (lock : Nat) : Bool := f.claims.any (·.lock == lock)

/-- Clears away the slots whose lock nobody refers to. -/
def prune (f : Flights ι) : Flights ι :=
  { f with slots := f.slots.keep fun _ lock => f.isWanted lock }

/-- The lock of a key's slot, which is made if there is none. -/
def lockFor (f : Flights ι) (key : String) : Nat × Flights ι :=
  match f.slots.get? key with
  | some lock => (lock, f)
  | none => (f.nextLock, { f with slots := f.slots.put key f.nextLock, nextLock := f.nextLock + 1 })

variable [DecidableEq ι]

def intend (f : Flights ι) (id : ι) (key : String) : Flights ι :=
  { f with intended := f.intended ++ [(id, key)] }

def isFirst (f : Flights ι) (id : ι) (lock : Nat) : Bool :=
  match f.line lock with
  | claim :: _ => claim.id == id
  | [] => false

def markHeld (f : Flights ι) (id : ι) : Flights ι :=
  { f with claims := f.claims.map fun c => if c.id = id then { c with held := true } else c }

/-- Tells a caller that stands in line whether it is its turn. -/
def tell (f : Flights ι) (id : ι) (lock : Nat) : Turn × Flights ι :=
  if f.isFirst id lock then (.held, f.markHeld id) else (.waiting, f)

/-- Puts a caller at the end of its key's line, unused slots having been cleared away. -/
def join (f : Flights ι) (id : ι) (key : String) : Turn × Flights ι :=
  let (lock, f) := f.prune.lockFor key
  let joined : Flights ι := { f with claims := f.claims ++ [⟨id, key, lock, false⟩] }
  joined.tell id lock

def claim? (f : Flights ι) (id : ι) : Option (Claim ι) := f.claims.find? (·.id == id)

/-- Asks whether a caller holds its key; the first time it asks it joins the line. -/
def poll (f : Flights ι) (id : ι) : Turn × Flights ι :=
  match f.claim? id with
  | some claim => f.tell id claim.lock
  | none =>
    match f.intended.find? (·.1 == id) with
    | some (_, key) => join { f with intended := f.intended.filter (·.1 != id) } id key
    | none => (.gone, f)

/-- Lets a caller go. One that held its key takes the slot along if nobody else refers to it; one
that stood in line leaves the slot to whoever asks next. -/
def drop (f : Flights ι) (id : ι) : Departure × Flights ι :=
  match f.claim? id with
  | some claim =>
    let left := { f with claims := f.claims.filter (·.id != id) }
    if claim.held then
      match left.slots.get? claim.key with
      | some lock =>
        if left.isWanted lock then (.released, left)
        else (.released, { left with slots := left.slots.erase claim.key })
      | none => (.released, left)
    else (.cancelled, left)
  | none =>
    if f.intended.any (·.1 == id) then
      (.cancelled, { f with intended := f.intended.filter (·.1 != id) })
    else (.gone, f)

end Flights

end ExpiringCache
