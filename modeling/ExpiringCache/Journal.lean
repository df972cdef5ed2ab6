import ExpiringCache.Error
import ExpiringCache.Settings
import ExpiringCache.Time
/-!
What the caches report about themselves: one line an event, with its level and the part that
reports it.
-/

namespace ExpiringCache

inductive Level where
  | error
  | warn
  | info
  | debug
  | trace
  deriving DecidableEq

namespace Level

def name : Level → String
  | .error => "ERROR"
  | .warn => "WARN"
  | .info => "INFO"
  | .debug => "DEBUG"
  | .trace => "TRACE"

def rank : Level → Nat
  | .error => 1
  | .warn => 2
  | .info => 3
  | .debug => 4
  | .trace => 5

end Level

inductive Event where
  | stored (key : String) (replaced : Bool) (ttl : Option Duration)
  | cleared
  | computeSkipped (key : String)
  | computing (key : String)
  | sweeping (interval : Duration)
  | swept (removed : Nat)
  | storeGone
  | embeddedReady (cache : String)
  | sweepDisabled (cache : String)
  | networkedReady (ns : String)
  | connecting (addr : String) (db : Int) (ns : String)
  | pinged (reply : String)
  | connected
  | unavailable (reason : String)
  | commandFailed (op reason : String)
  | sentToServer (key : String) (bytes : Nat) (ttl : Duration)
  | namespaceCleared (ns : String) (removed : Int64)
  | unknownBackend (complaint : String)
  | configured (settings : Settings)
  | probed (cache : String) (kind : BackendKind)
  | probesDone
  | startupFailed (reason : String)

namespace Event

def level : Event → Level
  | .stored .. | .cleared | .computeSkipped _ | .computing _ | .storeGone => .debug
  | .swept removed => if removed = 0 then .debug else .info
  | .sweepDisabled _ | .pinged _ | .sentToServer .. => .debug
  | .unavailable _ | .commandFailed .. | .unknownBackend _ => .warn
  | .startupFailed _ => .error
  | _ => .info

def target : Event → String
  | .stored .. | .cleared => "kvcache::memory"
  | .computeSkipped _ | .computing _ => "kvcache::cache::handle"
  | .sweeping _ | .swept _ | .storeGone => "kvcache::tasks::sweeper"
  | .embeddedReady _ | .sweepDisabled _ | .networkedReady _ => "kvcache::registry"
  | .connecting .. | .pinged _ | .connected | .unavailable _ | .commandFailed ..
  | .sentToServer .. | .namespaceCleared .. => "kvcache::remote"
  | .unknownBackend _ => "kvcache::config"
  | .configured _ | .probed .. | .probesDone | .startupFailed _ => "kvcache"

private def bool (b : Bool) : String := if b then "true" else "false"

def text : Event → String
  | .stored key replaced ttl =>
    let ttl := match ttl with
      | some d => "Some(" ++ d.display ++ ")"
      | none => "None"
    "memory cache set key=" ++ Text.quoted key ++ " replaced=" ++ bool replaced ++ " ttl=" ++ ttl
  | .cleared => "memory cache cleared"
  | .computeSkipped key =>
    "compute skipped, filled by concurrent caller key=" ++ Text.quoted key
  | .computing key => "cache miss, computing key=" ++ Text.quoted key
  | .sweeping interval => "Starting expiry sweep task with interval of " ++ interval.display
  | .swept 0 => "Expiry sweep: no expired entries found"
  | .swept removed => s!"Expiry sweep: removed {removed} expired entries"
  | .storeGone => "Store dropped, stopping expiry sweep"
  | .embeddedReady cache => "Embedded cache initialized cache=" ++ Text.quoted cache
  | .sweepDisabled cache => "No Tokio runtime, expiry sweep disabled cache=" ++ Text.quoted cache
  | .networkedReady ns => "Default cache using Redis namespace=" ++ Text.quoted ns
  | .connecting addr db ns =>
    s!"Connecting to Redis cache... addr={addr} db={db} namespace=" ++ Text.quoted ns
  | .pinged reply => "Redis ping ok reply=" ++ reply
  | .connected => "Redis cache connected"
  | .unavailable reason => reason
  | .commandFailed op reason =>
    "Redis command failed op=" ++ Text.quoted op ++ " error=" ++ reason
  | .sentToServer key bytes ttl =>
    "redis cache set key=" ++ Text.quoted key ++ s!" bytes={bytes} ttl=" ++ ttl.display
  | .namespaceCleared ns removed =>
    "Redis cache namespace cleared namespace=" ++ Text.quoted ns ++ s!" removed={removed}"
  | .unknownBackend complaint => complaint ++ ", falling back to memory"
  | .configured s =>
    "Configuration loaded: backend=" ++ s.backend.name ++ ", redis_addr=" ++ s.remote.addr ++
      s!", redis_db={s.remote.db}, namespace=" ++ s.remote.ns
  | .probed cache kind =>
    "Cache probe ok cache=" ++ Text.quoted cache ++ " backend=" ++ kind.name
  | .probesDone => "Cache probe complete"
  | .startupFailed reason => "Cache startup failed: " ++ reason

def line (e : Event) : String := e.level.name ++ " " ++ e.target ++ ": " ++ e.text

end Event

/-! ### What is shown -/

/-- The least weighty events shown for the parts whose name starts so. -/
structure Directive where
  target : String
  rank : Nat

abbrev Filter := List Directive

namespace Filter

private def rankOf? (s : String) : Option Nat :=
  match s.toLower with
  | "off" | "0" => some 0
  | "error" | "1" => some 1
  | "warn" | "2" => some 2
  | "info" | "3" => some 3
  | "debug" | "4" => some 4
  | "trace" | "5" => some 5
  | _ => none

private def directive? (s : String) : Option Directive :=
  match s.splitOn "=" with
  | [one] =>
    match rankOf? one with
    | some rank => some ⟨"", rank⟩
    | none => some ⟨one, 5⟩
  | [target, level] => (rankOf? level).map fun rank => ⟨target, rank⟩
  | _ => none

def defaults : Filter := [⟨"kvcache", 3⟩]

/-- Reads directives between commas; a text with a wrong one counts as no setting. -/
def parse (text : String) : Filter :=
  let parts := ((text.splitOn ",").map fun s => String.ofList (Text.trim s.toList)).filter
    fun s => !s.isEmpty
  match parts.mapM directive? with
  | none => defaults
  | some [] => [⟨"", 1⟩]
  | some directives => directives

/-- Whether an event is shown: the directive with the longest name that fits decides. -/
def shows (f : Filter) (e : Event) : Bool :=
  let fitting := f.filter fun d => e.target.startsWith d.target
  let best := fitting.foldl
    (fun best d =>
      match best with
      | none => some d
      | some (b : Directive) => if b.target.length ≤ d.target.length then some d else some b)
    none
  match best with
  | some d => e.level.rank ≤ d.rank
  | none => false

end Filter

end ExpiringCache
