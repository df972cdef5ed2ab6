import ExpiringCache.Json.Printer
/-!
Counters of a store.
-/

namespace ExpiringCache

structure Stats where
  hits : Nat
  misses : Nat
  writes : Nat
  expired : Nat
  totalEntries : Nat
  deriving DecidableEq

namespace Stats

def zero : Stats := ⟨0, 0, 0, 0, 0⟩

instance : Inhabited Stats := ⟨zero⟩

def recordHit (s : Stats) : Stats := { s with hits := s.hits + 1 }

def recordMiss (s : Stats) : Stats := { s with misses := s.misses + 1 }

def recordWrites (s : Stats) (count : Nat) : Stats := { s with writes := s.writes + count }

def recordExpired (s : Stats) (count : Nat) : Stats := { s with expired := s.expired + count }

def setTotalEntries (s : Stats) (count : Nat) : Stats := { s with totalEntries := count }

/-- The share of reads that found an entry; zero before the first read. -/
def hitRate (s : Stats) : Number.Binary64 :=
  if s.hits + s.misses = 0 then ⟨0⟩
  else .ofFloat (Float.ofNat s.hits / Float.ofNat (s.hits + s.misses))

def toJson (s : Stats) : Json :=
  .object [("hits", .whole s.hits), ("misses", .whole s.misses), ("writes", .whole s.writes),
    ("expired", .whole s.expired), ("total_entries", .whole s.totalEntries)]

end Stats

end ExpiringCache
