import ExpiringCache.Payload
import ExpiringCache.Time
/-!
Stored values and their deadlines. An entry is over from the very instant of its deadline on.
-/

namespace ExpiringCache

/-- A stored value: when it was written, and when it is over. -/
structure Entry where
  payload : Payload
  written : Instant
  deadline : Option Instant
  deriving DecidableEq

namespace Entry

/-- The entry written at `now`. A time to live that the clock cannot reach is none at all. -/
def write (payload : Payload) (now : Instant) (ttl : Option Duration) : Entry :=
  ⟨payload, now, ttl.bind now.plus?⟩

def isExpired (e : Entry) (now : Instant) : Bool :=
  match e.deadline with
  | some deadline => deadline.reached now
  | none => false

def timeLeft (e : Entry) (now : Instant) : Option Duration := e.deadline.map (·.since now)

end Entry

end ExpiringCache
