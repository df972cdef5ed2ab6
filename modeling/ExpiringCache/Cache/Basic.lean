import ExpiringCache.Cache.Embedded
import ExpiringCache.Cache.Networked
/-!
Caches of both kinds behind one set of functions. Callers of a networked cache reach the server over
a link that all of them share.
-/

namespace ExpiringCache

inductive Cache (ι : Type) where
  | embedded (c : EmbeddedCache ι)
  | networked (link : Nat) (patience : Duration) (c : NetworkedCache ι)

namespace Cache

variable {ι : Type}

instance : Inhabited (Cache ι) := ⟨.embedded .empty⟩

def kind : Cache ι → BackendKind
  | .embedded _ => .memory
  | .networked .. => .redis

def flights : Cache ι → Flights ι
  | .embedded c => c.flights
  | .networked _ _ c => c.flights

def display (c : Cache ι) : String :=
  "Cache \x7b backend: " ++ c.kind.name ++ ", in_flight: " ++ toString c.flights.inFlight ++ " \x7d"

def store? : Cache ι → Option Store
  | .embedded c => some c.store
  | .networked .. => none

def link? : Cache ι → Option Nat
  | .embedded _ => none
  | .networked link _ _ => some link

def withStore (c : Cache ι) (store : Store) : Cache ι :=
  match c with
  | .embedded c => .embedded { c with store }
  | .networked .. => c

variable [DecidableEq ι]

def start (c : Cache ι) (now : Instant) (id : ι) (request : Request) : Reaction (Cache ι) :=
  match c with
  | .embedded c => (c.start now id request).within .embedded
  | .networked link patience c => (c.start id request).within (.networked link patience)

def turn (c : Cache ι) (now : Instant) (id : ι) : Reaction (Cache ι) :=
  match c with
  | .embedded c => (c.turn now id).within .embedded
  | .networked link patience c => (c.turn id).within (.networked link patience)

def reply (c : Cache ι) (id : ι) (reply : Except ClientError Reply) : Reaction (Cache ι) :=
  match c with
  | .embedded c => .quiet .waiting (.embedded c)
  | .networked link patience c => (c.reply id reply).within (.networked link patience)

def computed (c : Cache ι) (now : Instant) (id : ι) (failure : Option Cause) :
    Reaction (Cache ι) :=
  match c with
  | .embedded c => (c.computed now id failure).within .embedded
  | .networked link patience c => (c.computed id failure).within (.networked link patience)

def leave (c : Cache ι) (id : ι) : Cache ι :=
  match c with
  | .embedded c => .embedded (c.leave id)
  | .networked link patience c => .networked link patience (c.leave id)

/-- The callers that stand in line though their turn has come. -/
def due : Cache ι → List ι
  | .embedded c => c.due
  | .networked _ _ c => c.due

end Cache

end ExpiringCache
