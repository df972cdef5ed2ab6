import ExpiringCache.Cache.Basic
import ExpiringCache.Registry
import ExpiringCache.Remote.Literal
import ExpiringCache.Remote.Opening
import ExpiringCache.Simulation.Script
import ExpiringCache.Simulation.Server
import ExpiringCache.Sweeper
/-!
The state of a simulation: caches, registries, links and sweepers by their numbers, the names that
tasks know them by, and the tasks with what each of them waits for. Tasks that can go on stand in a
queue and run one at a time.
-/

namespace ExpiringCache.Simulation

/-- A task's request, each with a number of its own. -/
structure Caller where
  task : Nat
  number : Nat
  deriving DecidableEq

inductive Item where
  | task (n : Nat)
  | link (n : Nat)
  | sweeper (n : Nat)
  deriving DecidableEq

/-- The replies that are waited for, and until when. -/
structure Wait where
  link : Nat
  numbers : List Nat
  deadline : Instant

/-- The steps that compute a missing value, and how they are said to fail in the end. -/
structure Computation where
  steps : List Step
  failure : Option String

/-- What a request goes on with: the cache, and for a fill its computation. -/
structure Requesting where
  cache : Nat
  caller : Caller
  wait : Option Wait
  computation : Computation
  computed : Option (List Answer)

/-- The name under which something that is being made will be kept. -/
inductive Keeping where
  | cache (name : String)
  | registry (name : String)

inductive Client where
  | alone (name : String)
  | registry (registry : Nat) (caller : Caller) (keeping : Keeping)

/-- An opening on its way. The server has to be reached and to answer the greeting in time. -/
structure Connecting where
  opening : Opening
  client : Client
  greetedBy : Instant
  link : Option Nat
  wait : Option Wait

inductive Activity where
  | idle
  | starting (wake : Instant)
  | pausing (wake : Instant)
  | requesting (r : Requesting)
  | connecting (c : Connecting)
  | registering (registry : Nat) (caller : Caller) (keeping : Keeping)
  | joining (tasks : List Nat)

/-- Steps being run: those of a task, or those of a computation inside one. -/
structure Level where
  step : Option Step
  activity : Activity
  steps : List Step
  answers : List Answer
  failed : Option Cause

def Level.ofSteps (steps : List Step) : Level := ⟨none, .idle, steps, [], none⟩

structure Task where
  number : Nat
  born : Instant
  levels : List Level
  brokenOff : Option Instant
  ended : Option BranchEnd

/-- A name for a cache; counters are shown only for caches that a task has made by itself. -/
structure Handle where
  cache : Nat
  counted : Bool

/-- Requests, commands and tasks are numbered by `next`. Of attempts, commands and events the last
one comes first. -/
structure State where
  now : Instant
  caches : List (Cache Caller)
  links : List Link
  scripts : List ServerScript
  registries : List (Registry Caller)
  sweepers : List (Nat × Sweeper)
  handles : Table Handle
  registryNames : Table Nat
  sweeperNames : Table Nat
  tasks : List Task
  queue : List Item
  next : Nat
  attempts : List (String × Option Nat)
  sent : List (Instant × Command)
  events : List Event

namespace State

/-! ### Queue -/

def wake (s : State) (item : Item) : State :=
  if s.queue.contains item then s else { s with queue := s.queue ++ [item] }

def wakeAll (s : State) (items : List Item) : State := items.foldl wake s

def report (s : State) (events : List Event) : State :=
  { s with events := events.reverse ++ s.events }

def fresh (s : State) : Nat × State := (s.next, { s with next := s.next + 1 })

/-! ### Caches and registries -/

/-- Puts a cache back after a request has gone on, and wakes the callers whose turn has come. -/
def putCache (s : State) (n : Nat) (c : Cache Caller) : State :=
  { s with caches := s.caches.set n c }.wakeAll (c.due.map fun (caller : Caller) => .task caller.task)

def addCache (s : State) (c : Cache Caller) : Nat × State :=
  (s.caches.length, { s with caches := s.caches ++ [c] })

def putRegistry (s : State) (n : Nat) (r : Registry Caller) : State :=
  { s with registries := s.registries.set n r }.wakeAll
    (r.due.map fun (caller : Caller) => .task caller.task)

def addRegistry (s : State) (r : Registry Caller) : Nat × State :=
  (s.registries.length, { s with registries := s.registries ++ [r] })

def handle? (s : State) (name : String) : Option Handle := s.handles.get? name

def cacheAt? (s : State) (name : String) : Option (Nat × Cache Caller) := do
  let handle ← s.handle? name
  let cache ← s.caches[handle.cache]?
  return (handle.cache, cache)

def storeAt? (s : State) (name : String) : Option (Nat × Store) := do
  let (n, cache) ← s.cacheAt? name
  let store ← cache.store?
  return (n, store)

def putStore (s : State) (n : Nat) (store : Store) : State :=
  match s.caches[n]? with
  | some cache => { s with caches := s.caches.set n (cache.withStore store) }
  | none => s

def name (s : State) (name : String) (cache : Nat) (counted : Bool) : State :=
  { s with handles := s.handles.put name ⟨cache, counted⟩ }

def counters? (s : State) (name : String) : Option Stats := do
  let handle ← s.handle? name
  if handle.counted then
    let cache ← s.caches[handle.cache]?
    let store ← cache.store?
    return store.snapshot
  else none

/-! ### What is still in use -/

def Activity.registry? : Activity → Option Nat
  | .registering registry _ _ => some registry
  | .connecting ⟨_, .registry registry _ _, _, _, _⟩ => some registry
  | _ => none

def Activity.cache? : Activity → Option Nat
  | .requesting r => some r.cache
  | _ => none

def Activity.link? : Activity → Option Nat
  | .connecting c => c.link
  | _ => none

def activities (s : State) : List Activity :=
  (s.tasks.filter (·.ended.isNone)).flatMap fun task => task.levels.map (·.activity)

def holdsRegistry (s : State) (n : Nat) : Bool :=
  s.registryNames.rows.any (·.2 == n) ||
    s.activities.any fun activity => Activity.registry? activity == some n

def holdsCache (s : State) (n : Nat) : Bool :=
  s.handles.rows.any (·.2.cache == n) ||
    (s.registries.zipIdx.any fun (r, i) =>
      (r.primary == some n || r.auxiliary == some n) && s.holdsRegistry i) ||
    (s.activities.any fun activity => Activity.cache? activity == some n) ||
    s.sweepers.any fun (cache, sweeper) => cache == n && sweeper.reference == .strong

def holdsLink (s : State) (n : Nat) : Bool :=
  (s.caches.zipIdx.any fun (c, i) => c.link? == some n && s.holdsCache i) ||
    s.activities.any fun activity => Activity.link? activity == some n

/-! ### Links -/

/-- Sends commands over a link and gives what is to be waited for. -/
def post (s : State) (n : Nat) (commands : List Command) (patience : Duration) : Wait × State :=
  match s.links[n]? with
  | some link =>
    let numbers := (List.range commands.length).map (s.next + ·)
    let link := (numbers.zip commands).foldl (fun link c => link.post c.1 c.2) link
    (⟨n, numbers, s.now.timer patience⟩,
      { s with links := s.links.set n link, next := s.next + commands.length }.wake (.link n))
  | none => (⟨n, [], s.now⟩, s)

/-- The outcome of a wait, if it is over. Replies that are there count even when time is up. -/
def outcome? (s : State) (w : Wait) : Option (Except ClientError (List Reply)) :=
  match s.links[w.link]? with
  | some link =>
    match link.repliesTo w.numbers with
    | some outcome => some outcome
    | none => if w.deadline.reached s.now then some (.error .timedOut) else none
  | none => some (.error .closed)

def forget (s : State) (w : Wait) : State :=
  match s.links[w.link]? with
  | some link => { s with links := s.links.set w.link (link.forget w.numbers) }
  | none => s

def Activity.wait? : Activity → Option Wait
  | .requesting r => r.wait
  | .connecting c => c.wait
  | _ => none

def Task.wait? (task : Task) : Option Wait :=
  if task.ended.isSome then none else task.levels.head?.bind fun l => Activity.wait? l.activity

/-- The tasks whose wait for a link is over, in the order in which they sent their commands. -/
def served (s : State) (n : Nat) : List Nat :=
  let ready := s.tasks.filterMap fun task =>
    match Task.wait? task with
    | some w =>
      if w.link = n ∧ (s.outcome? w).isSome then some (w.numbers.foldl max 0, task.number)
      else none
    | none => none
  (ready.mergeSort fun a b => a.1 ≤ b.1).map (·.2)

/-- Has a server work, and wakes the tasks whose replies have come. -/
def workLink (s : State) (n : Nat) : State :=
  match s.links[n]? with
  | some link =>
    if s.holdsLink n then
      let (begun, link) := link.work s.now
      let s := { s with
        links := s.links.set n link
        sent := (begun.map fun c => (s.now, c)).reverse ++ s.sent }
      s.wakeAll ((s.served n).map .task)
    else s
  | none => s

def workSweeper (s : State) (n : Nat) : State :=
  match s.sweepers[n]? with
  | some (cache, sweeper) =>
    let store := if s.holdsCache cache then s.caches[cache]?.bind Cache.store? else none
    let (sweeper, store, events) := sweeper.run s.now store
    let s := { s with sweepers := s.sweepers.set n (cache, sweeper) }.report events
    match store with
    | some store => s.putStore cache store
    | none => s
  | none => s

def addSweeper (s : State) (cache : Nat) (interval : Duration) : Nat × State :=
  let n := s.sweepers.length
  (n, { s with sweepers := s.sweepers ++ [(cache, Sweeper.every interval)] }.wake (.sweeper n))

/-! ### Tasks -/

def task? (s : State) (n : Nat) : Option Task := s.tasks.find? (·.number == n)

def putTask (s : State) (task : Task) : State :=
  { s with tasks := s.tasks.map fun t => if t.number = task.number then task else t }

end State

end ExpiringCache.Simulation
