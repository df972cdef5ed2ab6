import ExpiringCache.Cache.Request
import ExpiringCache.Flight
/-!
A cache whose values are kept in a store of its own. All requests but fills are done at once. A fill
looks for its key, stands in line for the key if it is missing, looks again once it holds the key,
and only then computes; it lets go of the key before the value is read.
-/

namespace ExpiringCache

/-- A fill that is not done: it stands in line for its key, or its caller computes. -/
inductive FillStage where
  | inLine
  | computing
  deriving DecidableEq

structure Fill (ι : Type) where
  id : ι
  key : String
  reading : Reading
  stage : FillStage

/-- A store, the flights of its keys and the fills under way. -/
structure EmbeddedCache (ι : Type) where
  store : Store
  flights : Flights ι
  fills : List (Fill ι)

namespace EmbeddedCache

variable {ι : Type}

def empty : EmbeddedCache ι := ⟨.empty, .empty, []⟩

instance : Inhabited (EmbeddedCache ι) := ⟨empty⟩

variable [DecidableEq ι]

def fill? (c : EmbeddedCache ι) (id : ι) : Option (Fill ι) := c.fills.find? (·.id == id)

def note (c : EmbeddedCache ι) (fill : Fill ι) : EmbeddedCache ι :=
  { c with fills := c.fills.filter (·.id != fill.id) ++ [fill] }

def leave (c : EmbeddedCache ι) (id : ι) : EmbeddedCache ι :=
  { c with flights := (c.flights.drop id).2, fills := c.fills.filter (·.id != id) }

def fetch (c : EmbeddedCache ι) (now : Instant) (key : String) (reading : Reading)
    (events : List Event) : Reaction (EmbeddedCache ι) :=
  let (outcome, store) := c.store.fetch now key reading
  ⟨.finished outcome, events, { c with store }⟩

/-- What a fill that holds its key does: it computes only if the key is still missing. -/
def arrive (c : EmbeddedCache ι) (now : Instant) (id : ι) (key : String) (reading : Reading) :
    Reaction (EmbeddedCache ι) :=
  if c.store.isLive now key then (c.leave id).fetch now key reading [.computeSkipped key]
  else ⟨.compute, [.computing key], c.note ⟨id, key, reading, .computing⟩⟩

/-- What a fill does after it was told whether it holds its key. -/
def told (c : EmbeddedCache ι) (now : Instant) (id : ι) (key : String) (reading : Reading) :
    Turn → Reaction (EmbeddedCache ι)
  | .held => c.arrive now id key reading
  | .waiting | .gone => .quiet .waiting (c.note ⟨id, key, reading, .inLine⟩)

def start (c : EmbeddedCache ι) (now : Instant) (id : ι) : Request → Reaction (EmbeddedCache ι)
  | .operate operation =>
    let (outcome, events, store) := c.store.perform now operation
    ⟨.finished outcome, events, { c with store }⟩
  | .fill key reading =>
    if c.store.isLive now key then c.fetch now key reading []
    else
      let (turn, flights) := c.flights.join id key
      { c with flights }.told now id key reading turn

/-- Looks whether a caller that stands in line holds its key now. -/
def turn (c : EmbeddedCache ι) (now : Instant) (id : ι) : Reaction (EmbeddedCache ι) :=
  match c.fill? id with
  | some ⟨_, key, reading, .inLine⟩ =>
    let (turn, flights) := c.flights.poll id
    { c with flights }.told now id key reading turn
  | _ => .quiet .waiting c

def computed (c : EmbeddedCache ι) (now : Instant) (id : ι) (failure : Option Cause) :
    Reaction (EmbeddedCache ι) :=
  match c.fill? id with
  | some ⟨_, key, reading, .computing⟩ =>
    match failure with
    | some cause => .quiet (.finished (.error (.compute cause))) (c.leave id)
    | none => (c.leave id).fetch now key reading []
  | _ => .quiet .waiting c

def due (c : EmbeddedCache ι) : List ι :=
  (c.flights.claims.filter fun claim =>
    !claim.held && c.flights.isFirst claim.id claim.lock).map (·.id)

end EmbeddedCache

end ExpiringCache
