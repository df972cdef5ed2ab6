import ExpiringCache.Cache.Request
/-!
What simulated clients do, step by step, and what comes of it.
-/

namespace ExpiringCache

mutual

/-- What a step does. Caches, registries and sweepers are known by names. -/
inductive Action where
  | make
  | share (other : String)
  | discard
  | same (other : String)
  | kind
  | describe
  | store (payload : Except CacheError Payload) (key : String) (ttl : Duration) (ifAbsent : Bool)
  | operate (operation : Operation)
  | fill (key : String) (reading : Reading) (steps : List Step) (failure : Option String)
  | timeLeft (key : String)
  | stats
  | size
  | sweep
  | startSweeper (sweeper : String) (interval : Duration)
  | stopSweeper (sweeper : String)
  | sweeperDone (sweeper : String)
  | advance (length : Duration)
  | pause (length : Duration)
  | registry (registry : String) (settings : Settings)
  | connect (registry : String) (settings : Settings)
  | registrySettings (registry : String)
  | openDefault (registry : String)
  | openAuxiliary (registry : String) (withTasks : Bool)
  | openNetworked (settings : RemoteSettings)
  | together (branches : List Branch)

/-- A step with the cache that it is about. If a step of a computation fails, so does the
computation, unless the failure is to be ignored. -/
inductive Step where
  | mk (cache : String) (ignoreFailure : Bool) (action : Action)

/-- Steps that start after a pause and may be broken off. -/
inductive Branch where
  | mk (start abort : Option Duration) (steps : List Step)

end

instance : Inhabited Action := ⟨.make⟩

instance : Inhabited Step := ⟨.mk "" false default⟩

instance : Inhabited Branch := ⟨.mk none none []⟩

def Step.cache : Step → String
  | .mk cache _ _ => cache

def Step.ignoreFailure : Step → Bool
  | .mk _ ignored _ => ignored

def Step.action : Step → Action
  | .mk _ _ action => action

mutual

inductive Finding where
  | value (v : Value)
  | text (s : String)
  | timeLeft (left : Option Duration)
  | stats (s : Stats)
  | size (n : Nat)
  | count (n : Nat)
  | settings (s : Settings)
  | networked (ns description : String)
  | branches (ends : List BranchEnd)

inductive Verdict where
  | found (finding : Finding)
  | failed (e : CacheError)
  | blocked

/-- The answer to a step: its verdict, the counters of its cache, the answers to the steps of its
computation, and when it came. -/
inductive Answer where
  | mk (verdict : Verdict) (counters : Option Stats) (computed : Option (List Answer))
      (time : Duration)

inductive BranchEnd where
  | done (answers : List Answer)
  | aborted

end

namespace Answer

def verdict : Answer → Verdict
  | .mk verdict _ _ _ => verdict

def counters : Answer → Option Stats
  | .mk _ counters _ _ => counters

def computed : Answer → Option (List Answer)
  | .mk _ _ computed _ => computed

def time : Answer → Duration
  | .mk _ _ _ time => time

def withoutCounters : Answer → Answer
  | .mk verdict _ computed time => .mk verdict none computed time

end Answer

end ExpiringCache
