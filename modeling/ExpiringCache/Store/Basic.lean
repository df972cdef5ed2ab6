import ExpiringCache.Store.Entry
import ExpiringCache.Store.Stats
import ExpiringCache.Table
/-!
The embedded store: a table of entries with counters. Entries whose time is over stay in the table
until they are overwritten, cleared or swept, and no read shows them.
-/

namespace ExpiringCache

structure Store where
  entries : Table Entry
  stats : Stats

namespace Store

def empty : Store := ⟨.empty, .zero⟩

instance : Inhabited Store := ⟨empty⟩

def live? (store : Store) (now : Instant) (key : String) : Option Entry :=
  (store.entries.get? key).filter fun e => !e.isExpired now

def isLive (store : Store) (now : Instant) (key : String) : Bool := (store.live? now key).isSome

def read (store : Store) (now : Instant) (key : String) : Except CacheError Payload × Store :=
  match store.live? now key with
  | some e => (.ok e.payload, { store with stats := store.stats.recordHit })
  | none => (.error (.notFound key), { store with stats := store.stats.recordMiss })

/-- The time left to a live entry, where `some none` is an entry without a deadline. -/
def timeLeft? (store : Store) (now : Instant) (key : String) : Option (Option Duration) :=
  (store.live? now key).map (·.timeLeft now)

def size (store : Store) : Nat := store.entries.size

/-- The counters, with the entries counted now. -/
def snapshot (store : Store) : Stats := store.stats.setTotalEntries store.size

/-- Removes the entries that are over at `now`, and says how many there were. -/
def sweep (store : Store) (now : Instant) : Nat × Store :=
  let kept := store.entries.keep fun _ e => !e.isExpired now
  let removed := store.size - kept.size
  (removed, ⟨kept, (store.stats.recordExpired removed).setTotalEntries kept.size⟩)

end Store

end ExpiringCache
