import ExpiringCache.Proofs.Simulation.Openings
/-!
The turns of a run in which one task opens a networked cache: the task moves, the server works, or a
timer strikes. Each of them keeps what is known of the opening.
-/

namespace ExpiringCache.Simulation

open State

structure State.Calm (s : State) : Prop where
  links : s.links = []
  sweepers : s.sweepers = []
  queue : s.queue = []
  whole : s.now.Whole

theorem initial_calm (name : String) (scripts : List ServerScript) :
    (State.initial name scripts).Calm := ⟨rfl, rfl, rfl, Instant.start_whole⟩

variable {o : Opener} {c : Connecting} {s s' : State}

/-! ### The first move -/

/-- The state in which the task takes its step, or one that differs only in what was reported. -/
structure Opener.Fresh (o : Opener) (s : State) : Prop where
  calm : s.Calm
  scripts : s.scripts = o.before.scripts
  now : s.now = o.before.now
  untried : s.attempts = []

def Opener.begun (o : Opener) (opening : Opening) (link : Option Nat) (w : Option Wait) :
    Connecting :=
  ⟨opening, .alone o.cache, o.before.now.timer o.settings.connectTimeout, link, w⟩

theorem greeted_by_value (whole : o.before.now.Whole) :
    (o.before.now.timer o.settings.connectTimeout).toNanos =
      min o.greetedBy Instant.lastNanos := by
  rw [Opener.greetedBy, RemoteSettings.connectTimeout, Instant.timer_nanos whole,
    Duration.of_millis_nanos]

/-- At first there is no other time to wait for than that for the greeting. -/
theorem timers_of_begun {opening : Opening} {link : Option Nat} {w : Option Wait} {t : Instant}
    (deadline : ∀ w', w = some w' →
      w'.deadline = o.before.now.timer o.settings.connectTimeout)
    (member : t ∈ Activity.timers (.connecting (o.begun opening link w))) :
    t = o.before.now.timer o.settings.connectTimeout := by
  rcases List.mem_append.mp member with awaited | greeting
  · obtain ⟨w', mine, rfl⟩ := Option.map_eq_some_iff.mp (Option.mem_toList.mp awaited)
    exact deadline w' mine
  · split at greeting
    · cases greeting
    · exact List.mem_singleton.mp greeting

theorem stands_of_begun {opening : Opening} {link : Option Nat} {w : Option Wait}
    (accepted : ¬ o.settings.Refused) (fresh : o.Fresh s)
    (settings : opening.settings = o.settings)
    (deadline : ∀ w', w = some w' → w'.deadline = o.before.now.timer o.settings.connectTimeout)
    (tried : s'.attempts.length = 1) (sweepers : s'.sweepers = s.sweepers)
    (now : s'.now = s.now) (queue : s'.queue = s.queue)
    (line : o.Line (o.begun opening link w) s'.links s'.next s'.now s'.sent) :
    o.Stands (o.begun opening link w) s' := by
  have clock : s'.now = o.before.now := now.trans fresh.now
  have whole : o.before.now.Whole := fresh.now ▸ fresh.calm.whole
  have value := greeted_by_value whole
  have bound := o.before.now.to_nanos_le_last
  have since : o.before.now.toNanos ≤ o.greetedBy := Nat.le_add_right _ _
  constructor
  case accepted => exact accepted
  case tried => exact tried
  case client => exact rfl
  case settings => exact settings
  case sweepers => exact sweepers.trans fresh.calm.sweepers
  case whole => exact clock ▸ whole
  case known =>
    rw [queue, fresh.calm.queue]
    nofun
  case timed =>
    intro t member
    rw [timers_of_begun deadline member]
    exact Instant.timer_whole_or_last _ _
  case ahead =>
    intro t member
    rw [timers_of_begun deadline member, clock]
    omega
  case soon =>
    intro t member
    rw [timers_of_begun deadline member, Opener.overBy]
    omega
  case greeted =>
    change (o.before.now.timer o.settings.connectTimeout).toNanos ≤ _
    omega
  case line => exact line

/-- What the first move can come to: the task has to wait for a server that says nothing, or the
opening goes on. -/
inductive Opener.Begins (o : Opener) (tasks : List Task) : Move × State → Prop where
  | waits {c' : Connecting} {s' : State} (same : s'.tasks = tasks) (stands : o.Stands c' s') :
      Begins o tasks (.resting (.connecting c'), s')
  | advances {p} (bound : Nat) (advances : o.Advances tasks bound p) : Begins o tasks p

/-- An attempt to connect is the only one. Either it fails at once, or nothing comes of it, or there
is a link. -/
theorem attempt_begins {opening : Opening} (accepted : ¬ o.settings.Refused) (fresh : o.Fresh s)
    (settings : opening.settings = o.settings) (stage : opening.stage = .reaching) :
    o.Begins s.tasks (s.attempt opening (.alone o.cache)) := by
  have unavailable : ∀ (reason : String) (s' : State), s'.tasks = s.tasks →
      s'.attempts.length = 1 → o.Begins s.tasks (.failed (.backendUnavailable reason), s') :=
    fun reason s' same tried =>
      .advances 0 (.ends same (ends_cleanly_of_unavailable accepted tried))
  have once : ∀ attempt, (attempt :: s.attempts).length = 1 := by
    intro attempt
    rw [fresh.untried]
    rfl
  have greetedBy : s.now.timer opening.settings.connectTimeout =
      o.before.now.timer o.settings.connectTimeout := by
    rw [fresh.now, settings]
  simp only [attempt, Opening.reached, Opening.unavailable, unopened, greetedBy]
  -- The attempt is refused, or the name is unknown, or the server is silent, or there is a link.
  split
  · exact unavailable _ _ rfl (once _)
  · split
    · exact unavailable _ _ rfl (once _)
    · split
      · refine .waits rfl (stands_of_begun accepted fresh settings ?_ (once _) rfl rfl rfl ?_)
        · intro w' absent
          cases absent
        · exact .silent stage rfl rfl fresh.calm.links
      · have numbered : s.links.length = 0 := by rw [fresh.calm.links]; rfl
        have only : s.links ++ [Link.connected (s.scripts.headD .refusing)] =
            [Link.connected o.script] := by
          rw [fresh.calm.links, fresh.scripts]
          rfl
        refine .advances _ (.goesOn rfl ?_ (Nat.lt_succ_self _))
        refine stands_of_begun accepted fresh settings ?_ (once _) rfl rfl rfl ?_
        · rintro w ⟨rfl⟩
          rfl
        · refine .linked (congrArg some numbered) rfl numbered only
            (Link.sound_of_connected o.script _) ?_
          intro pinging
          cases pinging.symm.trans stage

/-- The step fails at once if the settings are refused, before any attempt to connect. -/
theorem open_networked_begins (fresh : o.Fresh s) :
    o.Begins s.tasks (s.openNetworked o.settings (.alone o.cache)) := by
  by_cases refused : o.settings.Refused
  · obtain ⟨reason, started⟩ := Opening.start_of_refused refused
    simp only [openNetworked, started, unopened]
    refine .advances 0 (.ends ?_ (ends_cleanly_of_refused refused ?_))
    · rfl
    · exact fresh.untried
  · obtain ⟨ns, address, events, started⟩ := Opening.start_of_accepted refused
    simp only [openNetworked, started]
    have reported : o.Fresh (s.report events) :=
      ⟨⟨fresh.calm.links, fresh.calm.sweepers, fresh.calm.queue, fresh.calm.whole⟩,
        fresh.scripts, fresh.now, fresh.untried⟩
    exact attempt_begins refused reported rfl rfl

/-! ### Moves of the task -/

def Opener.Answered (o : Opener) (s : State) : Prop :=
  ∃ answer, s.tasks = [o.task [⟨none, .idle, [], [answer], none⟩]] ∧
    o.EndsCleanly answer.verdict s

def Opener.Ended (o : Opener) (s : State) : Prop :=
  ∃ answer, s.tasks = [{ o.task [] with ended := some (.done [answer]) }] ∧
    o.EndsCleanly answer.verdict s

theorem found_of_only {task : Task} (only : s.tasks = [task]) :
    s.task? task.number = some task := by
  rw [task?, only]
  exact List.find?_cons_of_pos (beq_self_eq_true task.number)

theorem put_only {task task' : Task} (only : s.tasks = [task])
    (same : task.number = task'.number) : s.putTask task' = { s with tasks := [task'] } := by
  rw [putTask, only, List.map_cons, if_pos same]
  rfl

theorem found_solo (o : Opener) :
    (o.before.solo o.step).task? o.number = some (o.task [Level.ofSteps [o.step]]) := by
  have only : (o.before.solo o.step).tasks = [o.task [Level.ofSteps [o.step]]] := rfl
  exact found_of_only only

/-- An activity that goes on is entered as under way, and one that has ended as answered. -/
theorem enter_advances {levels : List Level} (activity : Activity) {bound : Nat}
    {p : Move × State} (advances : o.Advances [o.task levels] bound p) :
    ∃ s', p.2.enter (o.task levels) ⟨some o.step, activity, [], [], none⟩ [] p.1 = (true, s') ∧
      ((∃ c, o.UnderWay c s' ∧ potential c s' < bound) ∨ o.Answered s') := by
  cases advances with
  | @goesOn c s same stands nearer =>
      have put : s.putTask (o.busyWith (.connecting c)) =
          { s with tasks := [o.busyWith (.connecting c)] } := put_only same rfl
      refine ⟨{ s with tasks := [o.busyWith (.connecting c)] }, congrArg _ put,
        .inl ⟨c, ?_, nearer⟩⟩
      exact ⟨rfl, stands_of_same stands rfl rfl rfl rfl rfl rfl stands.known⟩
  | @ends outcome s same clean =>
      let answer : Answer :=
        .mk (verdictOf outcome) (s.counters? o.cache) none (s.now.since o.before.now)
      have put : s.putTask (o.task [⟨none, .idle, [], [answer], none⟩]) =
          { s with tasks := [o.task [⟨none, .idle, [], [answer], none⟩]] } := put_only same rfl
      refine ⟨{ s with tasks := [o.task [⟨none, .idle, [], [answer], none⟩]] }, ?_,
        .inr ⟨answer, rfl, ends_cleanly_of_same clean rfl rfl rfl⟩⟩
      rw [← put]
      cases outcome with
      | ok finding => rfl
      | error e => rfl

theorem move_under_way (underWay : o.UnderWay c s) :
    s.moveTask o.number = (false, s) ∧
        (∀ t ∈ Activity.timers (.connecting c), t.reached s.now = false) ∨
      ∃ s', s.moveTask o.number = (true, s') ∧
        ((∃ c', o.UnderWay c' s' ∧ potential c' s' < potential c s) ∨ o.Answered s') := by
  obtain ⟨only, stands⟩ := underWay
  have found : s.task? o.number = some (o.busyWith (.connecting c)) := found_of_only only
  have moved : s.moveTask o.number = (s.continueConnect c).2.enter (o.busyWith (.connecting c))
      ⟨some o.step, .connecting c, [], [], none⟩ [] (s.continueConnect c).1 := by
    simp only [moveTask, found]
    rfl
  rw [moved]
  rcases continue_connect_advances stands with ⟨waits, early⟩ | advances
  · left
    refine ⟨?_, early⟩
    rw [waits]
    have put : s.putTask (o.busyWith (.connecting c)) = s := by
      rw [put_only only rfl, ← only]
    exact congrArg _ put
  · right
    rw [only] at advances
    exact enter_advances (.connecting c) advances

theorem move_answered (answered : o.Answered s) :
    ∃ s', s.moveTask o.number = (false, s') ∧ o.Ended s' := by
  obtain ⟨answer, only, clean⟩ := answered
  have found : s.task? o.number = some (o.task [⟨none, .idle, [], [answer], none⟩]) :=
    found_of_only only
  let past : State := { s with tasks := [{ o.task [] with ended := some (.done [answer]) }] }
  have put : s.putTask { o.task [] with ended := some (.done [answer]) } = past :=
    put_only only rfl
  obtain ⟨queue, woken⟩ := past.wake_all_eq ((s.joiners o.number).map .task)
  refine ⟨{ past with queue }, ?_, answer, rfl, ends_cleanly_of_same clean rfl rfl rfl⟩
  have moved : s.moveTask o.number =
      (false, s.endTask (o.task [⟨none, .idle, [], [answer], none⟩]) (.done [answer])) := by
    simp only [moveTask, found]
    rfl
  rw [moved, ← woken, ← put]
  rfl

theorem move_solo (calm : o.before.Calm) :
    (∃ c s', (o.before.solo o.step).moveTask o.number = (false, s') ∧ o.UnderWay c s') ∨
      ∃ s', (o.before.solo o.step).moveTask o.number = (true, s') ∧
        ((∃ c, o.UnderWay c s') ∨ o.Answered s') := by
  have fresh : o.Fresh (o.before.solo o.step) :=
    ⟨⟨calm.links, calm.sweepers, calm.queue, calm.whole⟩, rfl, rfl, rfl⟩
  have only : (o.before.solo o.step).tasks = [o.task [Level.ofSteps [o.step]]] := rfl
  have found := found_solo o
  have moved : (o.before.solo o.step).moveTask o.number =
      let p := (o.before.solo o.step).openNetworked o.settings (.alone o.cache)
      p.2.enter (o.task [Level.ofSteps [o.step]]) ⟨some o.step, .idle, [], [], none⟩ [] p.1 := by
    simp only [moveTask, found]
    rfl
  rw [moved]
  have begins := open_networked_begins fresh
  generalize (o.before.solo o.step).openNetworked o.settings (.alone o.cache) = p at begins ⊢
  cases begins with
  | @waits c s' same stands =>
      left
      have put : s'.putTask (o.busyWith (.connecting c)) =
          { s' with tasks := [o.busyWith (.connecting c)] } := put_only (same.trans only) rfl
      exact ⟨c, { s' with tasks := [o.busyWith (.connecting c)] }, congrArg _ put, rfl,
        stands_of_same stands rfl rfl rfl rfl rfl rfl stands.known⟩
  | advances _ advances =>
      right
      obtain ⟨s', entered, how⟩ := enter_advances .idle advances
      exact ⟨s', entered, how.imp_left fun ⟨c, underWay, _⟩ => ⟨c, underWay⟩⟩

/-! ### The server's work -/

theorem held_of_under_way (underWay : o.UnderWay c s) (held : c.link = some 0) :
    s.holdsLink 0 = true := by
  have only : s.activities = [.connecting c] := by
    rw [activities, underWay.tasks]
    rfl
  rw [holdsLink, only]
  simp only [List.any_cons, Activity.link?, held, beq_self_eq_true, Bool.true_or, Bool.or_true]

theorem served_are_tasks {n k : Nat} (served : n ∈ s.served k) :
    ∃ task ∈ s.tasks, task.number = n := by
  obtain ⟨entry, sorted, rfl⟩ := List.mem_map.mp served
  obtain ⟨task, there, ready⟩ := List.mem_filterMap.mp (List.mem_mergeSort.mp sorted)
  refine ⟨task, there, ?_⟩
  split at ready
  · split at ready
    · cases ready
      rfl
    · cases ready
  · cases ready

theorem served_length (s : State) (k : Nat) : (s.served k).length ≤ s.tasks.length := by
  rw [served, List.length_map, List.length_mergeSort]
  exact List.length_filterMap_le _ _

def weight (queue : List Item) : Nat := queue.length + queue.count (.link 0)

/-- The server does what it can do by now, and the task is woken or not. -/
theorem work_link_eq (underWay : o.UnderWay c s) (held : c.link = some 0) {link : Link}
    (one : s.links = [link]) :
    ∃ queue, s.workLink 0 = { s with
        links := [(link.work s.now).2]
        sent := ((link.work s.now).1.map fun command => (s.now, command)).reverse ++ s.sent
        queue } ∧
      (∀ item ∈ queue, item ∈ s.queue ∨ item = .task o.number) ∧
      (∀ item ∈ s.queue, item ∈ queue) ∧ weight queue ≤ weight s.queue + 1 := by
  let worked : State := { s with
    links := [(link.work s.now).2]
    sent := ((link.work s.now).1.map fun command => (s.now, command)).reverse ++ s.sent }
  have turn : s.workLink 0 = worked.wakeAll ((worked.served 0).map .task) := by
    have found : s.links[0]? = some link := by rw [one]; rfl
    simp only [workLink, found, held_of_under_way underWay held, if_true]
    rw [one]
    rfl
  have only : worked.tasks = [o.busyWith (.connecting c)] := underWay.tasks
  -- Only the one task can be waiting for a reply, so nothing else is woken.
  have tasks : ∀ item ∈ (worked.served 0).map Item.task, item = .task o.number := by
    intro item member
    obtain ⟨n, served, rfl⟩ := List.mem_map.mp member
    obtain ⟨task, there, rfl⟩ := served_are_tasks served
    rw [only] at there
    rw [List.mem_singleton.mp there]
    rfl
  obtain ⟨queue, woken⟩ := worked.wake_all_eq ((worked.served 0).map .task)
  have queued : (worked.wakeAll ((worked.served 0).map .task)).queue = queue := by rw [woken]
  refine ⟨queue, turn.trans woken, ?_, ?_, ?_⟩
  · intro item member
    rw [← queued] at member
    exact (mem_of_mem_wake_all member).imp_right (tasks item)
  · intro item member
    rw [← queued]
    exact mem_wake_all _ member
  · have length := worked.wake_all_length ((worked.served 0).map .task)
    have few := served_length worked 0
    have noLink : Item.link 0 ∉ (worked.served 0).map Item.task := by
      intro member
      cases tasks _ member
    have count := worked.wake_all_count noLink
    rw [List.length_map, queued] at length
    rw [only, List.length_singleton] at few
    rw [queued] at count
    rw [weight, weight, count]
    change queue.length + s.queue.count _ ≤ _
    have same : worked.queue.length = s.queue.length := rfl
    omega

structure Opener.LinkTurn (o : Opener) (c : Connecting) (s s' : State) : Prop where
  underWay : o.UnderWay c s'
  now : s'.now = s.now
  awake : ∀ item ∈ s.queue, item ∈ s'.queue
  shorter : weight s'.queue ≤ weight s.queue + 1
  nearer : potential c s' ≤ potential c s
  due : ∀ link number due act, s.links = [link] → link.busy = some (number, due, act) →
    due.reached s.now = true → potential c s' < potential c s

theorem work_link_under_way (underWay : o.UnderWay c s) : o.LinkTurn c s (s.workLink 0) := by
  have stands := underWay.stands
  cases stands.line with
  | silent _ _ _ none =>
      have absent : s.links[0]? = Option.none := by rw [none]; rfl
      have idle : s.workLink 0 = s := by simp only [workLink, absent]
      rw [idle]
      refine ⟨underWay, rfl, fun _ member => member, Nat.le_succ _, Nat.le_refl _, ?_⟩
      intro link number due act one
      cases none.symm.trans one
  | @linked link w held wait here one sound asked =>
      have does := link.work_does s.now
      obtain ⟨queue, turn, origin, kept, shorter⟩ := work_link_eq underWay held one
      have before : potential c s = 8 * c.opening.stage.left + link.load := by
        simp only [potential, one, List.map_cons, List.map_nil, List.sum_cons, List.sum_nil,
          Nat.add_zero]
      have after : potential c (s.workLink 0) =
          8 * c.opening.stage.left + (link.work s.now).2.load := by
        simp only [turn, potential, List.map_cons, List.map_nil, List.sum_cons, List.sum_nil,
          Nat.add_zero]
      have fewer := Link.load_of_does does
      refine ⟨?_, by rw [turn], by rw [turn]; exact kept, by rw [turn]; exact shorter, by omega, ?_⟩
      · rw [turn]
        refine ⟨underWay.tasks, stands.accepted, stands.tried, stands.client, stands.settings,
          stands.sweepers, stands.whole, ?_, stands.timed, stands.ahead, stands.soon,
          stands.greeted, .linked held wait here rfl (Link.sound_of_does does sound) ?_⟩
        · intro item member
          rcases origin item member with old | rfl
          · exact stands.known item old
          · exact .inl rfl
        · intro pinging
          obtain ⟨k, posted, numbers, since, deadline, course⟩ := asked pinging
          exact ⟨k, posted, numbers, since, deadline,
            Link.ping_course_of_does does sound.acts stands.whole since course⟩
      · intro link' number due act one' busy past
        cases one.symm.trans one'
        have less := Link.load_of_due busy past
        omega

/-! ### The clock -/

theorem task_timers (o : Opener) (c : Connecting) :
    Task.timers (o.busyWith (.connecting c)) = Activity.timers (.connecting c) :=
  List.append_nil _

theorem own_timer (underWay : o.UnderWay c s) {t : Instant}
    (member : t ∈ Activity.timers (.connecting c)) : (t, .task o.number) ∈ s.timers := by
  apply List.mem_append_left
  apply List.mem_append_left
  rw [underWay.tasks]
  apply List.mem_flatMap.mpr
  refine ⟨o.busyWith (.connecting c), List.mem_singleton_self _, ?_⟩
  rw [task_timers]
  exact List.mem_map_of_mem member

theorem timer_origin (underWay : o.UnderWay c s) {timer : Instant × Item}
    (member : timer ∈ s.timers) :
    (timer.1 ∈ Activity.timers (.connecting c) ∧ timer.2 = .task o.number) ∨
      ∃ link number act, s.links = [link] ∧ link.busy = some (number, timer.1, act) ∧
        timer.2 = .link 0 := by
  rcases List.mem_append.mp member with rest | sweepers
  · rcases List.mem_append.mp rest with tasks | links
    · left
      rw [underWay.tasks] at tasks
      obtain ⟨task, there, mine⟩ := List.mem_flatMap.mp tasks
      rw [List.mem_singleton.mp there, task_timers] at mine
      obtain ⟨t, awaited, rfl⟩ := List.mem_map.mp mine
      exact ⟨awaited, rfl⟩
    · right
      obtain ⟨entry, there, busy⟩ := List.mem_filterMap.mp links
      cases underWay.stands.line with
      | silent _ _ _ none =>
          rw [none] at there
          cases there
      | @linked link w held wait here one sound asked =>
          rw [one] at there
          have only : entry = (link, 0) := List.mem_singleton.mp there
          subst only
          cases working : link.busy with
          | none =>
              simp only [working] at busy
              cases busy
          | some work =>
              obtain ⟨number, due, act⟩ := work
              simp only [working] at busy
              split at busy
              · cases busy
                exact ⟨link, number, act, one, working, rfl⟩
              · cases busy
  · rw [underWay.stands.sweepers] at sweepers
    cases sweepers

theorem timer_whole (underWay : o.UnderWay c s) {timer : Instant × Item}
    (member : timer ∈ s.timers) : timer.1.Whole ∨ timer.1 = .last := by
  rcases timer_origin underWay member with ⟨mine, _⟩ | ⟨link, number, act, one, busy, _⟩
  · exact underWay.stands.timed _ mine
  · cases underWay.stands.line with
    | silent _ _ _ none => cases one.symm.trans none
    | linked _ _ _ one' sound _ =>
        cases one.symm.trans one'
        exact sound.timed _ _ _ busy

theorem strike_under_way (underWay : o.UnderWay c s) {t : Instant}
    (next : s.nextTimer = some t) : o.UnderWay c (s.strike t) := by
  have stands := underWay.stands
  obtain ⟨queue, struck, _, origin⟩ := s.strike_eq t
  have clock := Instant.wait_for_nanos stands.whole t
  have later : s.now.toNanos ≤ (s.now.waitFor t).toNanos := by omega
  rw [struck]
  refine ⟨underWay.tasks, stands.accepted, stands.tried, stands.client, stands.settings,
    stands.sweepers, Instant.wait_for_whole stands.whole t, ?_, stands.timed, ?_, stands.soon,
    stands.greeted, ?_⟩
  · intro item member
    rcases origin item member with before | ⟨timer, there, rfl⟩
    · exact stands.known item before
    · rcases timer_origin underWay there with ⟨_, mine⟩ | ⟨_, _, _, _, _, link⟩
      · exact .inl mine
      · exact .inr link
  · intro u member
    obtain ⟨first, same, order⟩ := next_timer_le (own_timer underWay member)
    rw [next] at same
    cases same
    have since := stands.ahead u member
    change (s.now.waitFor t).toNanos ≤ u.toNanos
    change t.toNanos ≤ u.toNanos at order
    -- The next timer is not after the task's own, and the clock does not stop past a timer.
    simp only [nanosPerMilli] at clock
    omega
  · cases stands.line with
    | silent stage unlinked wait none => exact .silent stage unlinked wait none
    | linked held wait here one sound asked =>
        refine .linked held wait here one sound ?_
        intro pinging
        obtain ⟨k, posted, numbers, since, deadline, course⟩ := asked pinging
        exact ⟨k, posted, numbers, Nat.le_trans since later, deadline,
          course.mono later (List.Subset.refl _)⟩

/-! ### Turns -/

/-- How a run in which a task opens a networked cache can stand. -/
inductive Opener.Course (o : Opener) : Option Nat × State → Prop where
  | begins : Course o (some o.number, o.before.solo o.step)
  | moves {c : Connecting} {s : State} (underWay : o.UnderWay c s) : Course o (some o.number, s)
  | waits {c : Connecting} {s : State} (underWay : o.UnderWay c s) : Course o (none, s)
  | answered {s : State} (answered : o.Answered s) : Course o (some o.number, s)
  | ended {s : State} (ended : o.Ended s) : Course o (none, s)

theorem runs_of_under_way (underWay : o.UnderWay c s) : s.hasEnded o.number = false := by
  have found : s.task? o.number = some (o.busyWith (.connecting c)) :=
    found_of_only underWay.tasks
  rw [hasEnded, found]
  rfl

theorem has_ended_of_ended (ended : o.Ended s) : s.hasEnded o.number = true := by
  obtain ⟨answer, only, _⟩ := ended
  have found : s.task? o.number = some { o.task [] with ended := some (.done [answer]) } :=
    found_of_only only
  rw [hasEnded, found]
  rfl

theorem stays_of_only {task : Task} (only : s.tasks = [task]) (mine : task.number = o.number)
    (unbroken : task.brokenOff = none) : s.breakOffInTime o.number = s := by
  have found := found_of_only only
  rw [mine] at found
  simp only [breakOffInTime, found, Option.bind_some, unbroken]

theorem under_way_of_queue (underWay : o.UnderWay c s) {queue : List Item}
    (shorter : ∀ item ∈ queue, item ∈ s.queue) : o.UnderWay c { s with queue } :=
  ⟨underWay.tasks, stands_of_same underWay.stands rfl rfl rfl rfl rfl rfl fun item member =>
    underWay.stands.known item (shorter item member)⟩

theorem course_of_turn (calm : o.before.Calm) {limit : Instant} {p q : Option Nat × State}
    (turn : LoopTurn o.number limit p q) (course : o.Course p) : o.Course q := by
  cases course with
  | begins =>
      rcases move_solo calm with ⟨c, s', moved, underWay⟩ | ⟨s', moved, ⟨c, underWay⟩ | answered⟩
      · rw [turn_of_stops moved turn, stays_of_only underWay.tasks rfl rfl]
        exact .waits underWay
      · rw [turn_of_goes_on moved turn]
        exact .moves underWay
      · rw [turn_of_goes_on moved turn]
        exact .answered answered
  | moves underWay =>
      rcases move_under_way underWay with ⟨moved, _⟩ | ⟨s', moved, ⟨c', further, _⟩ | answered⟩
      · rw [turn_of_stops moved turn, stays_of_only underWay.tasks rfl rfl]
        exact .waits underWay
      · rw [turn_of_goes_on moved turn]
        exact .moves further
      · rw [turn_of_goes_on moved turn]
        exact .answered answered
  | answered answered =>
      obtain ⟨s', moved, answer, only, clean⟩ := move_answered answered
      rw [turn_of_stops moved turn, stays_of_only only rfl rfl]
      exact .ended ⟨answer, only, clean⟩
  | @waits c s underWay =>
      rcases s.take_item_eq o.number with ⟨_, none⟩ | ⟨item, member, taken, _⟩
      · obtain ⟨t, next, rfl⟩ := turn_of_none none turn
        exact .waits (strike_under_way underWay next)
      · have rest : o.UnderWay c { s with queue := s.queue.erase item } :=
          under_way_of_queue underWay fun _ left => List.mem_of_mem_erase left
        rcases underWay.stands.known item member with rfl | rfl
        · rw [turn_of_task taken turn]
          exact .moves rest
        · rw [turn_of_link taken turn]
          exact .waits (work_link_under_way rest).underWay
  | ended ended => exact absurd turn (no_turn_of_ended (has_ended_of_ended ended))

theorem course_of_run (calm : o.before.Calm) {limit : Instant} {p : Option Nat × State}
    (run : Relation.ReflTransGen (LoopTurn o.number limit)
      (some o.number, o.before.solo o.step) p) : o.Course p := by
  induction run with
  | refl => exact .begins
  | tail _ turn ih => exact course_of_turn calm turn ih

end ExpiringCache.Simulation
