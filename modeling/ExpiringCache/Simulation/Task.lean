import ExpiringCache.Simulation.State
/-!
Tasks, one move at a time. A move ends where the task has to wait or where a step is answered, and
between two moves of one task no other task runs unless the task waits.
-/

namespace ExpiringCache.Simulation

inductive Move where
  | answered (outcome : Except CacheError Finding) (computed : Option (List Answer))
  | going (activity : Activity)
  | resting (activity : Activity)
  | computing (activity : Activity) (steps : List Step)

namespace Move

def found (finding : Finding) : Move := .answered (.ok finding) none

def done : Move := found (.value .done)

def failed (e : CacheError) : Move := .answered (.error e) none

def nothing (name : String) : Move := failed (.notFound name)

end Move

namespace State

/-! ### Requests -/

def react (s : State) (q : Requesting) (r : Reaction (Cache Caller)) : Move × State :=
  let s := (s.putCache q.cache r.state).report r.events
  match r.progress with
  | .finished outcome => (.answered (outcome.map .value) q.computed, s)
  | .waiting => (.resting (.requesting { q with wait := none }), s)
  | .compute => (.computing (.requesting { q with wait := none }) q.computation.steps, s)
  | .send command =>
    match r.state with
    | .networked link patience _ =>
      let (wait, s) := s.post link [command] patience
      (.going (.requesting { q with wait := some wait }), s)
    | .embedded _ => (.resting (.requesting { q with wait := none }), s)

def request (s : State) (task : Nat) (name : String) (request : Request)
    (computation : Computation) : Move × State :=
  match s.cacheAt? name with
  | none => (.nothing name, s)
  | some (n, cache) =>
    let (number, s) := s.fresh
    let caller : Caller := ⟨task, number⟩
    s.react ⟨n, caller, none, computation, none⟩ (cache.start s.now caller request)

/-- Goes on with a request that waits for a reply or for its turn. -/
def continueRequest (s : State) (q : Requesting) : Move × State :=
  match s.caches[q.cache]? with
  | none => (.resting (.requesting q), s)
  | some cache =>
    match q.wait with
    | none => s.react q (cache.turn s.now q.caller)
    | some wait =>
      match s.outcome? wait with
      | none => (.resting (.requesting q), s)
      | some outcome =>
        let reply := outcome.map fun replies => replies.headD .nil
        (s.forget wait).react q (cache.reply q.caller reply)

def endComputation (s : State) (q : Requesting) (level : Level) : Move × State :=
  match s.caches[q.cache]? with
  | none => (.resting (.requesting q), s)
  | some cache =>
    let failure := level.failed <|> q.computation.failure.map .reported
    s.react { q with computed := some level.answers } (cache.computed s.now q.caller failure)

/-! ### Opening caches -/

def makeEmbedded (s : State) (label : String) (settings : Settings) (withTasks : Bool) :
    Nat × State :=
  let (n, s) := s.addCache (.embedded .empty)
  let s := match settings.sweepInterval with
    | none => s
    | some interval =>
      if withTasks then (s.addSweeper n interval).2 else s.report [.sweepDisabled label]
  (n, s.report [.embeddedReady label])

def keep (s : State) (registry cache : Nat) : Keeping → State
  | .cache name => s.name name cache false
  | .registry name => { s with registryNames := s.registryNames.put name registry }

def opened (s : State) (c : Connecting) (link : Nat) (ns : Namespace) : Move × State :=
  let (n, s) := s.addCache
    (.networked link c.opening.settings.responseTimeout (NetworkedCache.opened ns))
  match c.client with
  | .alone name =>
    (.found (.networked ns.text (NetworkedCache.describe ns)), s.name name n false)
  | .registry registry caller keeping =>
    match s.registries[registry]? with
    | none => (.done, s)
    | some r =>
      let s := (s.putRegistry registry (r.built caller n)).report [.networkedReady ns.text]
      (.done, s.keep registry n keeping)

def unopened (s : State) (client : Client) (e : CacheError) : Move × State :=
  match client with
  | .alone _ => (.failed e, s)
  | .registry registry caller _ =>
    match s.registries[registry]? with
    | none => (.failed e, s)
    | some r => (.failed e, s.putRegistry registry (r.leave caller))

def attempt (s : State) (opening : Opening) (client : Client) : Move × State :=
  let script := s.scripts.headD .refusing
  let host := String.ofList opening.address.host
  let literal := Literal.plain? opening.address.host
  let unknown := script.welcome == .unknownHost && literal.isNone
  let s := { s with
    scripts := s.scripts.drop 1
    attempts :=
      (literal.getD host, if unknown then none else some opening.address.port) :: s.attempts }
  let greetedBy := s.now.timer opening.settings.connectTimeout
  let refused (reason : String) (s : State) : Move × State :=
    let r := opening.reached (.error (.unreachable reason))
    match r.next with
    | .failed e => (s.report r.events).unopened client e
    | _ => (.done, s)
  if script.welcome == .refuse then refused "Connection refused (os error 111)" s
  else if unknown then
    refused "failed to lookup address information: Name or service not known" s
  else if script.welcome == .silence then
    (.resting (.connecting ⟨opening, client, greetedBy, none, none⟩), s)
  else
    let n := s.links.length
    let s := { s with links := s.links ++ [Link.connected script] }
    (.going (.connecting ⟨opening, client, greetedBy, some n, some ⟨n, [], greetedBy⟩⟩), s)

/-- Goes on with an opening after it has been told what to do next. -/
def connect (s : State) (c : Connecting) (r : OpeningReaction) : Move × State :=
  let s := s.report r.events
  let ask (opening : Opening) (commands : List Command) : Move × State :=
    let (wait, s) := s.post (c.link.getD 0) commands opening.settings.responseTimeout
    (.going (.connecting { c with opening, wait := some wait }), s)
  match r.next with
  | .reach opening => s.attempt opening c.client
  | .greet opening commands => ask opening commands
  | .ping opening => ask opening [Command.ping]
  | .opened ns => s.opened c (c.link.getD 0) ns
  | .failed e => s.unopened c.client e

def openNetworked (s : State) (settings : RemoteSettings) (client : Client) : Move × State :=
  let r := Opening.start settings
  match r.next with
  | .reach opening => (s.report r.events).attempt opening client
  | .failed e => (s.report r.events).unopened client e
  | _ => (.done, s)

def continueConnect (s : State) (c : Connecting) : Move × State :=
  let late := c.opening.stage != .pinging && c.greetedBy.reached s.now
  match c.wait.bind s.outcome? with
  | some outcome => (c.wait.elim s s.forget).connect c (c.opening.resume outcome)
  | none =>
    if late then s.connect c (c.opening.resume (.error .timedOut))
    else (.resting (.connecting c), s)

/-- Goes on with a caller of a registry after it was told whose turn it is. -/
def register (s : State) (registry : Nat) (caller : Caller) (keeping : Keeping)
    (told : RegistryTurn × Registry Caller) : Move × State :=
  let s := s.putRegistry registry told.2
  match told.1 with
  | .ready cache => (.done, s.keep registry cache keeping)
  | .waiting => (.resting (.registering registry caller keeping), s)
  | .build =>
    match told.2.plan with
    | .embedded =>
      let (n, s) := s.makeEmbedded "default" told.2.settings true
      (.done, (s.putRegistry registry (told.2.built caller n)).keep registry n keeping)
    | .networked settings => s.openNetworked settings (.registry registry caller keeping)

def openDefault (s : State) (task registry : Nat) (keeping : Keeping) : Move × State :=
  match s.registries[registry]? with
  | none => (.nothing "", s)
  | some r =>
    let (number, s) := s.fresh
    let caller : Caller := ⟨task, number⟩
    s.register registry caller keeping (r.ask caller)

def openAuxiliary (s : State) (name : String) (registry : Nat) (withTasks : Bool) :
    Move × State :=
  match s.registries[registry]? with
  | none => (.nothing "", s)
  | some r =>
    match r.auxiliary with
    | some n => (.done, s.name name n false)
    | none =>
      let (n, s) := s.makeEmbedded "auxiliary" r.settings withTasks
      (.done, (s.putRegistry registry (r.keepAuxiliary n)).name name n false)

/-! ### Steps -/

def withStore (s : State) (name : String) (f : Nat → Store → Move × State) : Move × State :=
  match s.storeAt? name with
  | some (n, store) => f n store
  | none => (.nothing name, s)

def startBranches (s : State) : List Branch → List Nat × State
  | [] => ([], s)
  | .mk start abort steps :: branches =>
    let (number, s) := s.fresh
    let level := Level.ofSteps steps
    let level := match start with
      | some length => { level with activity := .starting (s.now.timer length) }
      | none => level
    let task : Task := ⟨number, s.now, [level], abort.map s.now.timer, none⟩
    let (numbers, s) :=
      startBranches ({ s with tasks := s.tasks ++ [task] }.wake (.task number)) branches
    (number :: numbers, s)

def begin (s : State) (task : Nat) (step : Step) : Move × State :=
  let name := step.cache
  match step.action with
  | .make =>
    let (n, s) := s.addCache (.embedded .empty)
    (.done, s.name name n true)
  | .share other =>
    match s.handle? name with
    | some handle => (.done, s.name other handle.cache handle.counted)
    | none => (.nothing name, s)
  | .discard => (.done, { s with handles := s.handles.erase name })
  | .same other =>
    match s.handle? name, s.handle? other with
    | some a, some b => (.found (.value (.flag (a.cache == b.cache))), s)
    | _, _ => (.nothing name, s)
  | .kind =>
    match s.cacheAt? name with
    | some (_, cache) => (.found (.text cache.kind.name), s)
    | none => (.nothing name, s)
  | .describe =>
    match s.cacheAt? name with
    | some (_, cache) => (.found (.text cache.display), s)
    | none => (.nothing name, s)
  | .store (.error e) _ _ _ => (.failed e, s)
  | .store (.ok payload) key ttl ifAbsent =>
    let operation : Operation :=
      if ifAbsent then .setIfAbsent key payload ttl else .set key payload ttl
    s.request task name (.operate operation) ⟨[], none⟩
  | .operate operation => s.request task name (.operate operation) ⟨[], none⟩
  | .fill key reading steps failure => s.request task name (.fill key reading) ⟨steps, failure⟩
  | .timeLeft key =>
    s.withStore name fun _ store =>
      match store.timeLeft? s.now key with
      | some left => (.found (.timeLeft left), s)
      | none => (.failed (.notFound key), s)
  | .stats => s.withStore name fun _ store => (.found (.stats store.snapshot), s)
  | .size => s.withStore name fun _ store => (.found (.size store.size), s)
  | .sweep =>
    s.withStore name fun n store =>
      let (removed, store) := store.sweep s.now
      (.found (.count removed), s.putStore n store)
  | .startSweeper sweeper interval =>
    s.withStore name fun n _ =>
      let (number, s) := s.addSweeper n interval
      (.done, { s with sweeperNames := s.sweeperNames.put sweeper number })
  | .stopSweeper sweeper =>
    match s.sweeperNames.get? sweeper with
    | some number =>
      match s.sweepers[number]? with
      | some (cache, w) =>
        (.done, { s with sweepers := s.sweepers.set number (cache, { w with stopped := true }) }.wake
          (.sweeper number))
      | none => (.nothing sweeper, s)
    | none => (.nothing sweeper, s)
  | .sweeperDone sweeper =>
    match (s.sweeperNames.get? sweeper).bind (s.sweepers[·]?) with
    | some (_, w) => (.found (.value (.flag (w.stage == .done))), s)
    | none => (.nothing sweeper, s)
  | .advance length => (.done, { s with now := s.now.later length })
  | .pause length => (.going (.pausing (s.now.timer length)), s)
  | .registry registry settings =>
    let (n, s) := s.addRegistry (.ofSettings settings)
    (.done, { s with registryNames := s.registryNames.put registry n })
  | .connect registry settings =>
    let (n, s) := s.addRegistry (.ofSettings settings)
    s.openDefault task n (.registry registry)
  | .registrySettings registry =>
    match (s.registryNames.get? registry).bind (s.registries[·]?) with
    | some r => (.found (.settings r.settings), s)
    | none => (.nothing registry, s)
  | .openDefault registry =>
    match s.registryNames.get? registry with
    | some n => s.openDefault task n (.cache name)
    | none => (.nothing registry, s)
  | .openAuxiliary registry withTasks =>
    match s.registryNames.get? registry with
    | some n => s.openAuxiliary name n withTasks
    | none => (.nothing registry, s)
  | .openNetworked settings => s.openNetworked settings (.alone name)
  | .together branches =>
    let (numbers, s) := s.startBranches branches
    (.resting (.joining numbers), s)

/-! ### Moves -/

def endsOf (s : State) (tasks : List Nat) : Option (List BranchEnd) :=
  tasks.mapM fun n => (s.task? n).bind (·.ended)

def continueActivity (s : State) (activity : Activity) : Move × State :=
  match activity with
  | .idle => (.going .idle, s)
  | .starting wake => (if wake.reached s.now then .going .idle else .resting activity, s)
  | .pausing wake => (if wake.reached s.now then .done else .resting activity, s)
  | .requesting q => s.continueRequest q
  | .connecting c => s.continueConnect c
  | .registering registry caller keeping =>
    match s.registries[registry]? with
    | some r => s.register registry caller keeping (r.turn caller)
    | none => (.resting activity, s)
  | .joining tasks =>
    match s.endsOf tasks with
    | some ends =>
      (.found (.branches ends),
        { s with tasks := s.tasks.filter fun task => !tasks.contains task.number })
    | none => (.resting activity, s)

def joiners (s : State) (n : Nat) : List Nat :=
  (s.tasks.filter fun task =>
    task.levels.any fun level =>
      match level.activity with
      | .joining tasks => tasks.contains n
      | _ => false).map (·.number)

def endTask (s : State) (task : Task) (ended : BranchEnd) : State :=
  (s.putTask { task with levels := [], ended := some ended }).wakeAll
    ((s.joiners task.number).map .task)

/-- Enters a move into a task; says whether the task can go on. -/
def enter (s : State) (task : Task) (level : Level) (outer : List Level) : Move → Bool × State
  | .going activity =>
    (true, s.putTask { task with levels := { level with activity } :: outer })
  | .resting activity =>
    (false, s.putTask { task with levels := { level with activity } :: outer })
  | .computing activity steps =>
    (true, s.putTask { task with
      levels := Level.ofSteps steps :: { level with activity } :: outer })
  | .answered outcome computed =>
    let verdict := match outcome with
      | .ok finding => Verdict.found finding
      | .error e => .failed e
    let counters := level.step.bind fun step => s.counters? step.cache
    let answer : Answer := .mk verdict counters computed (s.now.since task.born)
    let answered := { level with
      step := none, activity := .idle, answers := level.answers ++ [answer] }
    let ignored := outer.isEmpty || level.step.elim false Step.ignoreFailure
    let level := match outcome with
      | .ok _ => answered
      | .error e =>
        if ignored then answered
        else { answered with steps := [], failed := some (.cache e) }
    (true, s.putTask { task with levels := level :: outer })

/-- Makes a move of a task; says whether the task can go on. -/
def moveTask (s : State) (n : Nat) : Bool × State :=
  match s.task? n with
  | none => (false, s)
  | some task =>
    match task.levels with
    | [] => (false, s)
    | level :: outer =>
      match level.activity, level.steps, outer with
      | .idle, step :: steps, _ =>
        let (move, s) := s.begin n step
        s.enter task { level with step := some step, steps } outer move
      | .idle, [], [] => (false, s.endTask task (.done level.answers))
      | .idle, [], caller :: outer =>
        match caller.activity with
        | .requesting q =>
          let (move, s) := s.endComputation q level
          s.enter task caller outer move
        | _ => (false, s)
      | activity, _, _ =>
        let (move, s) := s.continueActivity activity
        s.enter task level outer move

def abandon (s : State) : Activity → State
  | .requesting q =>
    match s.caches[q.cache]? with
    | some cache => s.putCache q.cache (cache.leave q.caller)
    | none => s
  | .registering registry caller _ | .connecting ⟨_, .registry registry caller _, _, _, _⟩ =>
    match s.registries[registry]? with
    | some r => s.putRegistry registry (r.leave caller)
    | none => s
  | _ => s

def breakOff (s : State) (n : Nat) : State :=
  match s.task? n with
  | none => s
  | some task =>
    if task.ended.isSome then s
    else (task.levels.foldl (fun s level => s.abandon level.activity) s).endTask task .aborted

end State

end ExpiringCache.Simulation
