import ExpiringCache.Simulation.Task
/-!
Runs of scripts. The steps of a script are run one after the other. While a step waits, whatever can
go on does, first come first served, and when nothing can the clock moves to the next timer. A step
that would wait for longer than ten minutes is given up.
-/

namespace ExpiringCache.Simulation

/-- A step's answer, and what went on until it came. -/
structure Report where
  answer : Answer
  attempts : List (String × Option Nat)
  sent : List (Instant × Command)
  events : List Event

namespace State

def initial (name : String) (scripts : List ServerScript) : State where
  now := .start
  caches := [.embedded .empty]
  links := []
  scripts := scripts
  registries := []
  sweepers := []
  handles := Table.empty.put name ⟨0, true⟩
  registryNames := .empty
  sweeperNames := .empty
  tasks := []
  queue := []
  next := 0
  attempts := []
  sent := []
  events := []

/-! ### Timers -/

def Activity.timers : Activity → List Instant
  | .starting wake | .pausing wake => [wake]
  | .requesting q => (q.wait.map (·.deadline)).toList
  | .connecting c =>
    (c.wait.map (·.deadline)).toList ++
      if c.opening.stage = .pinging then [] else [c.greetedBy]
  | _ => []

def Task.timers (task : Task) : List Instant :=
  if task.ended.isSome then []
  else
    (task.levels.head?.elim [] fun level => Activity.timers level.activity) ++
      task.brokenOff.toList

def timers (s : State) : List (Instant × Item) :=
  (s.tasks.flatMap fun task => (Task.timers task).map fun t => (t, .task task.number)) ++
    (s.links.zipIdx.filterMap fun (link, n) =>
      match link.busy with
      | some (_, due, _) => if s.holdsLink n then some (due, .link n) else none
      | none => none) ++
    s.sweepers.zipIdx.filterMap fun ((_, sweeper), n) => sweeper.wake?.map fun t => (t, .sweeper n)

def nextTimer (s : State) : Option Instant :=
  s.timers.foldl
    (fun first t =>
      match first with
      | none => some t.1
      | some (f : Instant) => some (if t.1.before f then t.1 else f))
    none

def strike (s : State) (t : Instant) : State :=
  let s := { s with now := s.now.waitFor t }
  let fired := s.timers.filter fun t => t.1.reached s.now
  s.wakeAll ((fired.mergeSort fun a b => !b.1.before a.1).map (·.2))

/-! ### The loop -/

def patience : Duration := .ofMillis 600000

def hasEnded (s : State) (n : Nat) : Bool := (s.task? n).all (·.ended.isSome)

def breakOffInTime (s : State) (n : Nat) : State :=
  match (s.task? n).bind (·.brokenOff) with
  | some time => if time.reached s.now then s.breakOff n else s
  | none => s

/-- Takes the next item out of the queue; the task `last` comes after all others. -/
def takeItem (s : State) (last : Nat) : Option Item × State :=
  match s.queue.find? (· != .task last) <|> s.queue.head? with
  | some item => (some item, { s with queue := s.queue.erase item })
  | none => (none, s)

/-- Runs until a task has ended or the limit has come; `running` is a task that can go on. -/
def runUntil (main : Nat) (limit : Instant) : Nat → Option Nat → State → State
  | 0, _, s => s
  | fuel + 1, some n, s =>
    let (goesOn, s) := s.moveTask n
    runUntil main limit fuel (if goesOn then some n else none)
      (if goesOn then s else s.breakOffInTime n)
  | fuel + 1, none, s =>
    if s.hasEnded main then s
    else
      match s.takeItem main with
      | (some (.task n), s) => runUntil main limit fuel (some n) s
      | (some (.link n), s) => runUntil main limit fuel none (s.workLink n)
      | (some (.sweeper n), s) => runUntil main limit fuel none (s.workSweeper n)
      | (none, s) =>
        match s.nextTimer with
        | some t =>
          if limit.before t then { s with now := s.now.waitFor limit }
          else runUntil main limit fuel none (s.strike t)
        | none => { s with now := s.now.waitFor limit }

mutual

def stepCount : Step → Nat
  | .mk _ _ action => actionCount action + 1

def actionCount : Action → Nat
  | .fill _ _ steps _ => stepsCount steps
  | .together branches => branchesCount branches
  | _ => 0

def stepsCount : List Step → Nat
  | [] => 0
  | step :: steps => stepCount step + stepsCount steps

def branchesCount : List Branch → Nat
  | [] => 0
  | .mk _ _ steps :: branches => stepsCount steps + branchesCount branches + 1

end

/-- Enough moves for a step: for every millisecond that it may last and everything that may go on
in it. -/
def fuelFor (s : State) (step : Step) : Nat :=
  let commands := (s.scripts.map fun script => script.others.length + 8).sum +
    (s.links.map fun link => link.script.others.length + link.inbox.length + 8).sum
  (patience.wholeMillis + 1) * (s.sweepers.length + s.registries.length + stepCount step + 2) +
    (stepCount step + commands + s.queue.length + 10) * (stepCount step + commands + 10)

def giveUp (s : State) (main : Nat) : State :=
  let others := (s.tasks.map (·.number)).filter (· != main)
  let s := others.foldl breakOff s
  s.breakOff main

def answerOf (task : Option Task) : Option Answer :=
  match task.bind (·.ended) with
  | some (.done (answer :: _)) => some answer
  | _ => none

def runStep (s : State) (step : Step) : Report × State :=
  let (main, s) := s.fresh
  let s := { s with
    tasks := [⟨main, s.now, [Level.ofSteps [step]], none, none⟩]
    attempts := [], sent := [], events := [] }
  let limit := s.now.timer patience
  let s := runUntil main limit (s.fuelFor step) (some main) s
  let (answer, s) := match answerOf (s.task? main) with
    | some answer => (answer, s)
    | none => (.mk .blocked none none .zero, s.giveUp main)
  let isTask : Item → Bool
    | .task _ => true
    | _ => false
  (⟨answer, s.attempts.reverse, s.sent.reverse, s.events.reverse⟩,
    { s with tasks := [], queue := s.queue.filter fun item => !isTask item })

end State

/-- Runs a script against servers that follow theirs. One embedded cache is there from the start,
under a name. -/
def run (name : String) (scripts : List ServerScript) (steps : List Step) : List Report :=
  go (State.initial name scripts) steps
where
  go (s : State) : List Step → List Report
    | [] => []
    | step :: steps =>
      let (report, s) := s.runStep step
      report :: go s steps

end ExpiringCache.Simulation
