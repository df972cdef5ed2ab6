import ExpiringCache.Cache.Request
import ExpiringCache.Flight
import ExpiringCache.Line
import ExpiringCache.Remote.Exchange
/-!
A cache whose values a server keeps. Exchanges that write take turns, each holding the turn from its
first command to its end; reads wait for nobody. A fill asks the server whether its key is there,
stands in line for the key if it is not, and asks again once it holds the key.
-/

namespace ExpiringCache

inductive Purpose where
  | answer
  | look (key : String) (reading : Reading)
  | lookAgain (key : String) (reading : Reading)

inductive RequestStage where
  | toWrite (exchange : Exchange)
  | asked (exchange : Exchange) (purpose : Purpose)
  | forKey (key : String) (reading : Reading)
  | computing (key : String) (reading : Reading)

/-- A server's part of keys, with the requests under way. -/
structure NetworkedCache (ι : Type) where
  ns : Namespace
  writers : Line ι
  flights : Flights ι
  requests : List (ι × RequestStage)

namespace NetworkedCache

variable {ι : Type}

def opened (ns : Namespace) : NetworkedCache ι := ⟨ns, .empty, .empty, []⟩

/-- A networked cache with the part of it that is no secret, for people. -/
def describe (ns : Namespace) : String :=
  "RemoteCache \x7b namespace: " ++ Text.quoted ns.text ++ ", .. \x7d"

variable [DecidableEq ι]

def stage? (c : NetworkedCache ι) (id : ι) : Option RequestStage :=
  (c.requests.find? (·.1 == id)).map (·.2)

def note (c : NetworkedCache ι) (id : ι) (stage : RequestStage) : NetworkedCache ι :=
  { c with requests := c.requests.filter (·.1 != id) ++ [(id, stage)] }

/-- Forgets a caller, which gives up its turn to write and lets go of its key. -/
def leave (c : NetworkedCache ι) (id : ι) : NetworkedCache ι :=
  { c with
    writers := c.writers.leave id
    flights := (c.flights.drop id).2
    requests := c.requests.filter (·.1 != id) }

def send (c : NetworkedCache ι) (id : ι) (exchange : Exchange) (purpose : Purpose)
    (events : List Event) : Reaction (NetworkedCache ι) :=
  ⟨.send (exchange.command c.ns), events, c.note id (.asked exchange purpose)⟩

def told (c : NetworkedCache ι) (id : ι) (key : String) (reading : Reading) :
    Turn → Reaction (NetworkedCache ι)
  | .held => c.send id (.exists key) (.lookAgain key reading) []
  | .waiting | .gone => .quiet .waiting (c.note id (.forKey key reading))

/-- Has the caller send the command of a writing exchange if it is its turn. -/
def write (c : NetworkedCache ι) (id : ι) (exchange : Exchange) : Reaction (NetworkedCache ι) :=
  if c.writers.isFirst id then c.send id exchange .answer []
  else .quiet .waiting (c.note id (.toWrite exchange))

def start (c : NetworkedCache ι) (id : ι) : Request → Reaction (NetworkedCache ι)
  | .operate operation =>
    let exchange := Exchange.ofOperation operation
    if exchange.isWrite then { c with writers := c.writers.join id }.write id exchange
    else c.send id exchange .answer []
  | .fill key reading => c.send id (.exists key) (.look key reading) []

/-- Looks whether the turn of a caller that stands in line has come. -/
def turn (c : NetworkedCache ι) (id : ι) : Reaction (NetworkedCache ι) :=
  match c.stage? id with
  | some (.toWrite exchange) => c.write id exchange
  | some (.forKey key reading) =>
    let (turn, flights) := c.flights.poll id
    { c with flights }.told id key reading turn
  | _ => .quiet .waiting c

/-- The last step of a fill: it lets go of its key and reads it. -/
def fetch (c : NetworkedCache ι) (id : ι) (key : String) (reading : Reading)
    (events : List Event) : Reaction (NetworkedCache ι) :=
  (c.leave id).send id (.get key reading) .answer events

def settle (c : NetworkedCache ι) (id : ι) (outcome : Outcome) (events : List Event) :
    Purpose → Reaction (NetworkedCache ι)
  | .answer => ⟨.finished outcome, events, c.leave id⟩
  | .look key reading =>
    match outcome with
    | .ok (.flag true) => c.fetch id key reading events
    | .ok _ =>
      let (turn, flights) := c.flights.join id key
      { c with flights }.told id key reading turn
    | .error e => ⟨.finished (.error e), events, c.leave id⟩
  | .lookAgain key reading =>
    match outcome with
    | .ok (.flag true) => c.fetch id key reading (events ++ [.computeSkipped key])
    | .ok _ => ⟨.compute, events ++ [.computing key], c.note id (.computing key reading)⟩
    | .error e => ⟨.finished (.error e), events, c.leave id⟩

/-- Goes on with the reply to the command that a caller sent. -/
def reply (c : NetworkedCache ι) (id : ι) (reply : Except ClientError Reply) :
    Reaction (NetworkedCache ι) :=
  match c.stage? id with
  | some (.asked exchange purpose) =>
    match exchange.resume c.ns reply with
    | .again next => c.send id next purpose []
    | .finished outcome events => c.settle id outcome events purpose
  | _ => .quiet .waiting c

def computed (c : NetworkedCache ι) (id : ι) (failure : Option Cause) :
    Reaction (NetworkedCache ι) :=
  match c.stage? id with
  | some (.computing key reading) =>
    match failure with
    | some cause => .quiet (.finished (.error (.compute cause))) (c.leave id)
    | none => c.fetch id key reading []
  | _ => .quiet .waiting c

def due (c : NetworkedCache ι) : List ι :=
  (c.requests.filter fun (id, stage) =>
    match stage with
    | .toWrite _ => c.writers.isFirst id
    | .forKey .. =>
      match c.flights.claim? id with
      | some claim => c.flights.isFirst id claim.lock
      | none => false
    | _ => false).map (·.1)

end NetworkedCache

end ExpiringCache
