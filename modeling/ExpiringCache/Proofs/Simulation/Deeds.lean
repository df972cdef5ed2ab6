import ExpiringCache.Proofs.Simulation.Successors
/-!
What tasks do, and what may come of it. Every move that a task can make, every end it can come to
and every wait that is given up leads to a state that follows the one before: a move hands nothing
to its task but what was held or is new.
-/

namespace ExpiringCache.Simulation.State

/-- A move that leads to a state that follows, and leaves its task with what is known. -/
structure Drawn (b : State) (p : Move × State) : Prop where
  follows : b.Follows p.2
  draws : ∀ {activity}, p.1.activity? = some activity → b.Draws activity

variable {b s : State}

theorem drawn_answer (follows : b.Follows s) (outcome : Except CacheError Finding)
    (computed : Option (List Answer)) : b.Drawn (.answered outcome computed, s) :=
  ⟨follows, nofun⟩

theorem drawn_resting (follows : b.Follows s) {activity : Activity} (draws : b.Draws activity) :
    b.Drawn (.resting activity, s) where
  follows := follows
  draws mine := by
    cases mine
    exact draws

theorem drawn_going (follows : b.Follows s) {activity : Activity} (draws : b.Draws activity) :
    b.Drawn (.going activity, s) where
  follows := follows
  draws mine := by
    cases mine
    exact draws

/-! ### Requests -/

theorem draws_requesting {q : Requesting} (known : b.Known q.cache) : b.Draws (.requesting q) where
  cache mine := by
    cases mine
    exact known
  registry mine := by cases mine

theorem react_activity {q : Requesting} {r : Reaction (Cache Caller)} {activity : Activity}
    (mine : (s.react q r).1.activity? = some activity) :
    ∃ q', activity = .requesting q' ∧ q'.cache = q.cache := by
  unfold react at mine
  simp only at mine
  split at mine
  · cases mine
  · cases mine
    exact ⟨_, rfl, rfl⟩
  · cases mine
    exact ⟨_, rfl, rfl⟩
  · split at mine
    · cases mine
      exact ⟨_, rfl, rfl⟩
    · cases mine
      exact ⟨_, rfl, rfl⟩

theorem drawn_react (follows : b.Follows s) {q : Requesting} (known : b.Known q.cache)
    {c : Cache Caller} {r : Reaction (Cache Caller)} (there : s.caches[q.cache]? = some c)
    (same : r.state.kind = c.kind) : b.Drawn (s.react q r) where
  follows := follows_aside follows (react_aside there same)
  draws mine := by
    obtain ⟨q', rfl, here⟩ := react_activity mine
    refine draws_requesting ?_
    rw [here]
    exact known

theorem drawn_request (follows : b.Follows s) (task : Nat) (name : String) (request : Request)
    (computation : Computation) : b.Drawn (s.request task name request computation) := by
  unfold State.request
  split
  · exact drawn_answer follows _ _
  · next n c there =>
    have known := follows.known_of_cache_name there
    have same : ∀ caller, (c.start s.now caller request).state.kind = c.kind := by
      intro caller
      cases c <;> rfl
    exact drawn_react (q := ⟨n, ⟨task, s.next⟩, none, computation, none⟩)
      (follows_aside follows s.fresh_aside) known (cache_of_name there) (same _)

theorem drawn_continue_request (follows : b.Follows s) {q : Requesting} (known : b.Known q.cache) :
    b.Drawn (s.continueRequest q) := by
  unfold continueRequest
  split
  · exact drawn_resting follows (draws_requesting known)
  · next c there =>
    split
    · exact drawn_react follows known there (by cases c <;> rfl)
    · next wait _ =>
      split
      · exact drawn_resting follows (draws_requesting known)
      · obtain ⟨links, forgot⟩ := s.forget_eq wait
        have kept : (s.forget wait).caches[q.cache]? = some c := by
          rw [forgot]
          exact there
        exact drawn_react (follows_aside follows (s.forget_aside wait)) known kept
          (by cases c <;> rfl)

theorem drawn_end_computation (follows : b.Follows s) {q : Requesting} (known : b.Known q.cache)
    (level : Level) : b.Drawn (s.endComputation q level) := by
  unfold endComputation
  split
  · exact drawn_resting follows (draws_requesting known)
  · next c there =>
    exact drawn_react (q := { q with computed := some level.answers }) follows known there
      (by cases c <;> rfl)

/-! ### Openings -/

def Serves (b : State) (client : Client) : Prop :=
  ∀ {n caller keeping}, client = .registry n caller keeping → b.KnownRegistry n

theorem draws_connecting {c : Connecting} (serves : b.Serves c.client) :
    b.Draws (.connecting c) where
  cache mine := by cases mine
  registry := by
    intro n mine
    obtain ⟨opening, client, greetedBy, link, wait⟩ := c
    cases client with
    | alone name => cases mine
    | registry m caller keeping =>
        cases mine
        exact serves rfl

theorem serves_of_draws {c : Connecting} (draws : b.Draws (.connecting c)) : b.Serves c.client := by
  intro n caller keeping mine
  obtain ⟨opening, client, greetedBy, link, wait⟩ := c
  subst mine
  exact draws.registry rfl

theorem draws_registering {n : Nat} (known : b.KnownRegistry n) (caller : Caller)
    (keeping : Keeping) : b.Draws (.registering n caller keeping) where
  cache mine := by cases mine
  registry mine := by
    cases mine
    exact known

theorem lends_leave {n : Nat} {r : Registry Caller} (lends : b.Lends n r) (caller : Caller) :
    b.Lends n (r.leave caller) :=
  lends

theorem lends_built {n c : Nat} {r : Registry Caller} (lends : b.Lends n r)
    (new : b.caches.length ≤ c) (caller : Caller) : b.Lends n (r.built caller c) := by
  rintro c' (made | kept)
  · cases made
    exact .inr new
  · exact lends c' (.inr kept)

theorem lends_auxiliary {n c : Nat} {r : Registry Caller} (lends : b.Lends n r)
    (new : b.caches.length ≤ c) : b.Lends n (r.keepAuxiliary c) := by
  rintro c' (made | kept)
  · exact lends c' (.inl made)
  · cases before : r.auxiliary with
    | some a =>
        rw [Registry.keepAuxiliary, before] at kept
        exact lends c' (.inr (before.trans kept))
    | none =>
        rw [Registry.keepAuxiliary, before] at kept
        cases kept
        exact .inr new

theorem drawn_opened (follows : b.Follows s) {c : Connecting} (serves : b.Serves c.client)
    (link : Nat) (ns : Namespace) : b.Drawn (s.opened c link ns) := by
  have added := follows_new_cache follows
    (.networked link c.opening.settings.responseTimeout (NetworkedCache.opened ns))
  have known := follows.known_of_new
  unfold opened
  simp only
  split
  · next name _ => exact drawn_answer (follows_name added known name false) _ _
  · next n caller keeping client =>
    split
    · exact drawn_answer added _ _
    · next r there =>
      have lends : b.Lends n (r.built caller s.caches.length) :=
        lends_built (added.registries there) follows.caches_length caller
      have told := follows_aside (follows_put_registry added lends)
        (report_aside _ [.networkedReady ns.text])
      exact drawn_answer (follows_keep told (serves client) known keeping) _ _

theorem drawn_unopened (follows : b.Follows s) (client : Client) (e : CacheError) :
    b.Drawn (s.unopened client e) := by
  unfold unopened
  split
  · exact drawn_answer follows _ _
  · split
    · exact drawn_answer follows _ _
    · next caller _ _ r there =>
      exact drawn_answer
        (follows_put_registry follows (lends_leave (follows.registries there) caller)) _ _

theorem drawn_attempt (follows : b.Follows s) (opening : Opening) {client : Client}
    (serves : b.Serves client) : b.Drawn (s.attempt opening client) := by
  have tried : ∀ scripts attempts, b.Follows { s with scripts, attempts } :=
    fun _ _ => follows_aside follows ⟨rfl, fun _ => rfl, rfl, rfl, rfl, rfl, rfl, id⟩
  have linked : ∀ scripts attempts links, b.Follows { s with scripts, attempts, links } :=
    fun _ _ _ => follows_aside follows ⟨rfl, fun _ => rfl, rfl, rfl, rfl, rfl, rfl, id⟩
  simp only [attempt, Opening.reached, Opening.unavailable]
  split
  · exact drawn_unopened (follows_aside (tried _ _) (report_aside _ _)) _ _
  · split
    · exact drawn_unopened (follows_aside (tried _ _) (report_aside _ _)) _ _
    · split
      · exact drawn_resting (tried _ _) (draws_connecting serves)
      · exact drawn_going (linked _ _ _) (draws_connecting serves)

theorem drawn_connect (follows : b.Follows s) {c : Connecting} (serves : b.Serves c.client)
    (reaction : OpeningReaction) : b.Drawn (s.connect c reaction) := by
  have reported := follows_aside follows (report_aside s reaction.events)
  unfold connect
  cases reaction.next with
  | reach opening => exact drawn_attempt reported opening serves
  | greet opening commands =>
      exact drawn_going (follows_aside reported (post_aside _ _ _ _)) (draws_connecting serves)
  | ping opening =>
      exact drawn_going (follows_aside reported (post_aside _ _ _ _)) (draws_connecting serves)
  | opened ns => exact drawn_opened reported serves _ ns
  | failed e => exact drawn_unopened reported _ e

theorem drawn_open_networked (follows : b.Follows s) (settings : RemoteSettings) {client : Client}
    (serves : b.Serves client) : b.Drawn (s.openNetworked settings client) := by
  unfold openNetworked
  simp only
  split
  · exact drawn_attempt (follows_aside follows (report_aside _ _)) _ serves
  · exact drawn_unopened (follows_aside follows (report_aside _ _)) _ _
  · exact drawn_answer follows _ _

theorem drawn_continue_connect (follows : b.Follows s) {c : Connecting}
    (serves : b.Serves c.client) : b.Drawn (s.continueConnect c) := by
  simp only [continueConnect]
  split
  · cases c.wait with
    | none => exact drawn_connect follows serves _
    | some wait => exact drawn_connect (follows_aside follows (s.forget_aside wait)) serves _
  · split
    · exact drawn_connect follows serves _
    · exact drawn_resting follows (draws_connecting serves)

/-! ### Registries -/

/-- What a caller is told changes none of the registry's caches, and a cache that it is shown is one
of them. -/
structure Tells (b : State) (n : Nat) (told : RegistryTurn × Registry Caller) : Prop where
  lends : b.Lends n told.2
  ready : ∀ {c}, told.1 = .ready c → b.Known c

theorem tells_turn (follows : b.Follows s) {n : Nat} (known : b.KnownRegistry n)
    {r : Registry Caller} (there : s.registries[n]? = some r) (caller : Caller)
    {builders : Line Caller} : b.Tells n ({ r with builders }.turn caller) := by
  have lends : b.Lends n r := follows.registries there
  unfold Registry.turn
  split
  · next c made =>
    refine ⟨lends, ?_⟩
    intro c' shown
    cases shown
    exact follows.known_of_lends known there (.inl made)
  · split
    · refine ⟨lends, ?_⟩
      intro c' shown
      cases shown
    · refine ⟨lends, ?_⟩
      intro c' shown
      cases shown

theorem tells_ask (follows : b.Follows s) {n : Nat} (known : b.KnownRegistry n)
    {r : Registry Caller} (there : s.registries[n]? = some r) (caller : Caller) :
    b.Tells n (r.ask caller) := by
  unfold Registry.ask
  split
  · next c made =>
    refine ⟨follows.registries there, ?_⟩
    intro c' shown
    cases shown
    exact follows.known_of_lends known there (.inl made)
  · exact tells_turn follows known there caller

theorem drawn_construct (follows : b.Follows s) {n : Nat} (known : b.KnownRegistry n)
    {r : Registry Caller} (lends : b.Lends n r) (caller : Caller) (keeping : Keeping) :
    b.Drawn (s.construct n caller keeping r) := by
  have serves : b.Serves (.registry n caller keeping) := by
    rintro _ _ _ ⟨rfl⟩
    exact known
  unfold construct
  split
  · have made := follows_make_embedded follows "default" r.settings true
    have number : (s.makeEmbedded "default" r.settings true).1 = s.caches.length := rfl
    have put := follows_put_registry made (lends_built lends follows.caches_length caller)
    exact drawn_answer (follows_keep put known follows.known_of_new keeping) _ _
  · exact drawn_open_networked follows _ serves

theorem drawn_register (follows : b.Follows s) {n : Nat} (known : b.KnownRegistry n)
    {told : RegistryTurn × Registry Caller} (tells : b.Tells n told) (caller : Caller)
    (keeping : Keeping) : b.Drawn (s.register n caller keeping told) := by
  obtain ⟨turn, r⟩ := told
  have put := follows_put_registry follows tells.lends
  cases turn with
  | ready c => exact drawn_answer (follows_keep put known (tells.ready rfl) keeping) _ _
  | waiting => exact drawn_resting put (draws_registering known caller keeping)
  | build =>
      rw [register_builds]
      exact drawn_construct put known tells.lends caller keeping

theorem drawn_open_default (follows : b.Follows s) (task : Nat) {n : Nat}
    (known : b.KnownRegistry n) (keeping : Keeping) : b.Drawn (s.openDefault task n keeping) := by
  unfold openDefault
  split
  · exact drawn_answer follows _ _
  · next r there =>
    have numbered := follows_aside follows s.fresh_aside
    exact drawn_register numbered known (tells_ask follows known there _) _ keeping

theorem drawn_open_auxiliary (follows : b.Follows s) (name : String) {n : Nat}
    (known : b.KnownRegistry n) (withTasks : Bool) :
    b.Drawn (s.openAuxiliary name n withTasks) := by
  unfold openAuxiliary
  split
  · exact drawn_answer follows _ _
  · next r there =>
    split
    · next a kept =>
      have mine := follows.known_of_lends known there (.inr kept)
      exact drawn_answer (follows_name follows mine name false) _ _
    · have made := follows_make_embedded follows "auxiliary" r.settings withTasks
      have lends := lends_auxiliary (follows.registries there) follows.caches_length
      have put := follows_put_registry made lends
      exact drawn_answer (follows_name put follows.known_of_new name false) _ _

/-! ### Steps -/

theorem drawn_with_store (follows : b.Follows s) (name : String)
    {f : Nat → Store → Move × State}
    (each : ∀ n store, s.kindAt? n = some .memory → b.Drawn (f n store)) :
    b.Drawn (s.withStore name f) := by
  unfold withStore
  split
  · next n store there =>
    obtain ⟨⟨m, cache⟩, named, rest⟩ := Option.bind_eq_some_iff.mp there
    obtain ⟨store', kept, same⟩ := Option.bind_eq_some_iff.mp rest
    cases same
    have embedded : s.kindAt? n = some .memory := by
      rw [kindAt?, cache_of_name named]
      cases cache with
      | embedded c => rfl
      | networked link patience c => cases kept
    exact each n store embedded
  · exact drawn_answer follows _ _

theorem follows_start_branches (follows : b.Follows s) (branches : List Branch) :
    b.Follows (s.startBranches branches).2 := by
  induction branches generalizing s with
  | nil => exact follows
  | cons branch branches ih =>
      obtain ⟨start, abort, steps⟩ := branch
      refine ih (follows_aside ?_ (wake_aside _ _))
      refine follows_tasks (follows_aside follows s.fresh_aside) ?_
      intro task member
      rcases List.mem_append.mp member with before | new
      · exact follows.tasks task before
      · rw [List.mem_singleton.mp new]
        refine ⟨nofun, ?_⟩
        intro level inside
        rw [List.mem_singleton.mp inside]
        cases start with
        | none => exact draws_nothing rfl rfl
        | some length => exact draws_nothing rfl rfl

/-- Whatever step a task begins with, it gets hold of nothing that nobody held. -/
theorem drawn_begin (follows : b.Follows s) (task : Nat) (step : Step) :
    b.Drawn (s.begin task step) := by
  obtain ⟨name, ignore, action⟩ := step
  cases action with
  | make =>
      have added := follows_new_cache follows (.embedded .empty)
      exact drawn_answer (follows_name added follows.known_of_new name true) _ _
  | share other =>
      simp only [begin, Step.cache, Step.action]
      split
      · next handle there =>
        exact drawn_answer (follows_name follows (follows.known_of_name there) other _) _ _
      · exact drawn_answer follows _ _
  | discard => exact drawn_answer (follows_discard follows name) _ _
  | same other =>
      simp only [begin, Step.cache, Step.action]
      split
      · exact drawn_answer follows _ _
      · exact drawn_answer follows _ _
  | kind | describe | sweeperDone | registrySettings =>
      simp only [begin, Step.cache, Step.action]
      split
      · exact drawn_answer follows _ _
      · exact drawn_answer follows _ _
  | store payload key ttl ifAbsent =>
      cases payload with
      | error e => exact drawn_answer follows _ _
      | ok payload => exact drawn_request follows task name _ _
  | operate operation => exact drawn_request follows task name _ _
  | fill key reading steps failure => exact drawn_request follows task name _ _
  | timeLeft key =>
      refine drawn_with_store follows name ?_
      intro n store _
      split
      · exact drawn_answer follows _ _
      · exact drawn_answer follows _ _
  | stats => exact drawn_with_store follows name fun _ _ _ => drawn_answer follows _ _
  | size => exact drawn_with_store follows name fun _ _ _ => drawn_answer follows _ _
  | sweep =>
      exact drawn_with_store follows name fun _ _ _ =>
        drawn_answer (follows_aside follows (put_store_aside _ _ _)) _ _
  | startSweeper sweeper interval =>
      refine drawn_with_store follows name ?_
      intro n store embedded
      have added := follows_new_sweeper follows embedded interval
      refine drawn_answer (follows_aside added ?_) _ _
      exact ⟨rfl, fun _ => rfl, rfl, rfl, rfl, rfl, rfl, id⟩
  | stopSweeper sweeper =>
      simp only [begin, Step.action]
      split
      · split
        · next c w there =>
          exact drawn_answer (follows_aside (follows_stop_sweeper follows there) (wake_aside _ _)) _ _
        · exact drawn_answer follows _ _
      · exact drawn_answer follows _ _
  | advance length => exact drawn_answer (follows_now follows (Instant.nanos_le_later _ _)) _ _
  | pause length => exact drawn_going follows (draws_nothing rfl rfl)
  | registry registry settings =>
      have added := follows_new_registry follows settings
      exact drawn_answer (follows_registry_name added (known_new_registry follows) registry) _ _
  | connect registry settings =>
      have added := follows_new_registry follows settings
      exact drawn_open_default added task (known_new_registry follows) _
  | openDefault registry =>
      simp only [begin, Step.cache, Step.action]
      split
      · next n there =>
        exact drawn_open_default follows task (follows.known_registry_of_name there) _
      · exact drawn_answer follows _ _
  | openAuxiliary registry withTasks =>
      simp only [begin, Step.cache, Step.action]
      split
      · next n there =>
        exact drawn_open_auxiliary follows name (follows.known_registry_of_name there) withTasks
      · exact drawn_answer follows _ _
  | openNetworked settings => exact drawn_open_networked follows settings nofun
  | together branches =>
      exact drawn_resting (follows_start_branches follows branches) (draws_nothing rfl rfl)

/-! ### Moves -/

theorem drawn_continue_activity (follows : b.Follows s) {activity : Activity}
    (draws : b.Draws activity) : b.Drawn (s.continueActivity activity) := by
  cases activity with
  | idle => exact drawn_going follows draws
  | starting wake =>
      simp only [continueActivity]
      split
      · exact drawn_going follows (draws_nothing rfl rfl)
      · exact drawn_resting follows draws
  | pausing wake =>
      simp only [continueActivity]
      split
      · exact drawn_answer follows _ _
      · exact drawn_resting follows draws
  | requesting q => exact drawn_continue_request follows (draws.cache rfl)
  | connecting c => exact drawn_continue_connect follows (serves_of_draws draws)
  | registering n caller keeping =>
      have known := draws.registry rfl
      simp only [continueActivity]
      split
      · next r there =>
        exact drawn_register follows known (tells_turn follows known there caller) caller keeping
      · exact drawn_resting follows draws
  | joining tasks =>
      simp only [continueActivity]
      split
      · refine drawn_answer (follows_tasks follows ?_) _ _
        exact fun task member => follows.tasks task (List.mem_filter.mp member).1
      · exact drawn_resting follows draws

theorem follows_enter {move : Move} (drawn : b.Drawn (move, s)) {task : Task}
    (runs : task.ended = none) (level : Level) {outer : List Level}
    (others : ∀ level ∈ outer, b.Draws level.activity) :
    b.Follows (s.enter task level outer move).2 := by
  have put : ∀ levels : List Level, (∀ level ∈ levels, b.Draws level.activity) →
      b.Follows (s.putTask { task with levels }) := by
    intro levels draw
    refine follows_put_task drawn.follows ⟨?_, draw⟩
    intro ended
    rw [runs] at ended
    cases ended
  have onward : ∀ activity, move.activity? = some activity →
      ∀ l ∈ { level with activity } :: outer, b.Draws l.activity :=
    fun activity mine => List.forall_mem_cons.mpr ⟨drawn.draws mine, others⟩
  cases move with
  | going activity => exact put _ (onward activity rfl)
  | resting activity => exact put _ (onward activity rfl)
  | computing activity steps =>
      exact put _ (List.forall_mem_cons.mpr ⟨draws_nothing rfl rfl, onward activity rfl⟩)
  | answered outcome computed =>
      refine put _ (List.forall_mem_cons.mpr ⟨?_, others⟩)
      cases outcome with
      | ok finding => exact draws_nothing rfl rfl
      | error e =>
          simp only
          split
          · exact draws_nothing rfl rfl
          · exact draws_nothing rfl rfl

theorem follows_end_task (follows : b.Follows s) (task : Task) (ended : BranchEnd) :
    b.Follows (s.endTask task ended) := by
  refine follows_aside (follows_put_task follows ⟨fun _ => rfl, ?_⟩) (wake_all_aside _ _)
  intro level inside
  cases inside

theorem follows_move_task (follows : b.Follows s) (n : Nat) : b.Follows (s.moveTask n).2 := by
  unfold moveTask
  split
  · exact follows
  · next task found =>
    have fits := follows.tasks task (List.mem_of_find?_eq_some found)
    split
    · exact follows
    · next level outer levels =>
      have runs : task.ended = none := by
        cases ends : task.ended with
        | none => rfl
        | some ended =>
            have none := fits.emptied (by rw [ends]; rfl)
            rw [levels] at none
            cases none
      have draws : b.Draws level.activity ∧ ∀ level ∈ outer, b.Draws level.activity := by
        have all := fits.draws
        rw [levels] at all
        exact List.forall_mem_cons.mp all
      split
      · exact follows_enter (drawn_begin follows n _) runs _ draws.2
      · exact follows_end_task follows _ _
      · next caller _ _ _ =>
        split
        · next q requests =>
          have known := (draws.2 caller List.mem_cons_self).cache (by rw [requests]; rfl)
          exact follows_enter (drawn_end_computation follows known level) runs _
            fun l inside => draws.2 l (List.mem_cons_of_mem _ inside)
        · exact follows
      · exact follows_enter (drawn_continue_activity follows draws.1) runs _ draws.2

theorem follows_abandon (follows : b.Follows s) (activity : Activity) :
    b.Follows (s.abandon activity) := by
  unfold abandon
  split
  · split
    · next cache there =>
      exact follows_aside follows (put_cache_aside there (by cases cache <;> rfl))
    · exact follows
  · split
    · next r there =>
      exact follows_put_registry follows (lends_leave (follows.registries there) _)
    · exact follows
  · split
    · next r there =>
      exact follows_put_registry follows (lends_leave (follows.registries there) _)
    · exact follows
  · exact follows

theorem follows_abandon_all (follows : b.Follows s) (levels : List Level) :
    b.Follows (levels.foldl (fun s level => s.abandon level.activity) s) := by
  induction levels generalizing s with
  | nil => exact follows
  | cons level levels ih => exact ih (follows_abandon follows level.activity)

theorem follows_break_off (follows : b.Follows s) (n : Nat) : b.Follows (s.breakOff n) := by
  unfold breakOff
  split
  · exact follows
  · split
    · exact follows
    · next task _ _ =>
      exact follows_end_task (follows_abandon_all follows task.levels) task _

end ExpiringCache.Simulation.State
