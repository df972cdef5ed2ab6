import ExpiringCache.Proofs.Remote.Handshake
import ExpiringCache.Proofs.Simulation.Links
import ExpiringCache.Proofs.Simulation.Loop
/-!
A task that opens a networked cache, from its first move to its answer, with nobody else about. The
task and its connection are all that goes on; every turn of the loop keeps what is known of the
two, and brings the answer nearer.
-/

namespace ExpiringCache.Simulation

open State

structure Opener where
  before : State
  cache : String
  ignored : Bool
  settings : RemoteSettings

namespace Opener

def step (o : Opener) : Step := .mk o.cache o.ignored (.openNetworked o.settings)

def number (o : Opener) : Nat := o.before.next

def script (o : Opener) : ServerScript := o.before.scripts.headD .refusing

def task (o : Opener) (levels : List Level) : Task :=
  ⟨o.number, o.before.now, levels, none, none⟩

def busyWith (o : Opener) (activity : Activity) : Task :=
  o.task [⟨some o.step, activity, [], [], none⟩]

/-- The nanosecond by which the server has to be reached and to have answered the greeting. -/
def greetedBy (o : Opener) : Nat := o.before.now.toNanos + o.settings.connectTimeout.toNanos

def overBy (o : Opener) : Nat := o.greetedBy + o.settings.responseTimeout.toNanos

end Opener

variable {o : Opener} {c c' : Connecting} {s s' : State}

/-! ### What an opening comes to -/

def Refuses (verdict : Verdict) : Prop := ∃ reason, verdict = .failed (.invalidConfig reason)

def Misses (verdict : Verdict) : Prop := ∃ reason, verdict = .failed (.backendUnavailable reason)

def Opens (verdict : Verdict) : Prop :=
  ∃ name description, verdict = .found (.networked name description)

instance (verdict : Verdict) : Decidable (Opens verdict) :=
  match verdict with
  | .found (.networked name description) => .isTrue ⟨name, description, rfl⟩
  | .found (.value _) | .found (.text _) | .found (.timeLeft _) | .found (.stats _)
  | .found (.size _) | .found (.count _) | .found (.settings _) | .found (.branches _)
  | .failed _ | .blocked => .isFalse nofun

/-- The server was asked for a sign of life and has given one that is text, and has taken no longer
than it may. -/
def Opener.Pinged (o : Opener) (s : State) : Prop :=
  ∃ begun reply pong, (begun, Command.ping) ∈ s.sent ∧ o.script.onPing.core = .answer reply ∧
    reply.read Reply.toText = .ok pong ∧
    begun.toNanos + o.script.onPing.delay * nanosPerMilli ≤ s.now.toNanos ∧
    s.now.toNanos ≤ begun.toNanos + o.settings.responseTimeout.toNanos

/-- An opening that has come to an end in one of the ways in which it may. -/
structure Opener.EndsCleanly (o : Opener) (verdict : Verdict) (s : State) : Prop where
  refused : Refuses verdict ↔ o.settings.Refused
  untried : o.settings.Refused → s.attempts = []
  triedOnce : ¬ o.settings.Refused → s.attempts.length = 1
  told : ¬ o.settings.Refused → Opens verdict ∨ Misses verdict
  pinged : Opens verdict → o.Pinged s

theorem ends_cleanly_of_same {verdict : Verdict} (clean : o.EndsCleanly verdict s)
    (attempts : s'.attempts = s.attempts) (sent : s'.sent = s.sent) (now : s'.now = s.now) :
    o.EndsCleanly verdict s' where
  refused := clean.refused
  untried := attempts ▸ clean.untried
  triedOnce := attempts ▸ clean.triedOnce
  told := clean.told
  pinged opens := by
    obtain ⟨begun, reply, pong, pinged⟩ := clean.pinged opens
    exact ⟨begun, reply, pong, by rw [sent, now]; exact pinged⟩

theorem ends_cleanly_of_refused {reason : String} (refused : o.settings.Refused)
    (untried : s.attempts = []) : o.EndsCleanly (.failed (.invalidConfig reason)) s where
  refused := ⟨fun _ => refused, fun _ => ⟨reason, rfl⟩⟩
  untried _ := untried
  triedOnce accepted := absurd refused accepted
  told accepted := absurd refused accepted
  pinged := nofun

theorem ends_cleanly_of_unavailable {reason : String} (accepted : ¬ o.settings.Refused)
    (tried : s.attempts.length = 1) :
    o.EndsCleanly (.failed (.backendUnavailable reason)) s where
  refused := ⟨nofun, fun refused => absurd refused accepted⟩
  untried refused := absurd refused accepted
  triedOnce _ := tried
  told _ := .inr ⟨reason, rfl⟩
  pinged := nofun

theorem ends_cleanly_of_opened {name description : String} (accepted : ¬ o.settings.Refused)
    (tried : s.attempts.length = 1) (pinged : o.Pinged s) :
    o.EndsCleanly (.found (.networked name description)) s where
  refused := ⟨nofun, fun refused => absurd refused accepted⟩
  untried refused := absurd refused accepted
  triedOnce _ := tried
  told _ := .inl ⟨name, description, rfl⟩
  pinged _ := pinged

/-! ### Under way -/

def Opener.Asked (o : Opener) (link : Link) (w : Wait) (now : Instant)
    (sent : List (Instant × Command)) : Prop :=
  ∃ k posted, w.numbers = [k] ∧ posted.toNanos ≤ now.toNanos ∧
    w.deadline.toNanos ≤ posted.toNanos + o.settings.responseTimeout.toNanos ∧
    Link.PingCourse o.script k posted now sent link

/-- How the opening stands with the server: either nothing ever came of the attempt to reach it, or
there is one link. -/
inductive Opener.Line (o : Opener) (c : Connecting) (links : List Link) (next : Nat)
    (now : Instant) (sent : List (Instant × Command)) : Prop where
  | silent (stage : c.opening.stage = .reaching) (unlinked : c.link = none) (wait : c.wait = none)
      (none : links = [])
  | linked {link w} (held : c.link = some 0) (wait : c.wait = some w) (here : w.link = 0)
      (one : links = [link]) (sound : link.Sound o.script next)
      (asked : c.opening.stage = .pinging → o.Asked link w now sent)

/-- What is known of the state while an opening is under way, apart from the task. -/
structure Opener.Stands (o : Opener) (c : Connecting) (s : State) : Prop where
  accepted : ¬ o.settings.Refused
  tried : s.attempts.length = 1
  client : c.client = .alone o.cache
  settings : c.opening.settings = o.settings
  sweepers : s.sweepers = []
  whole : s.now.Whole
  known : ∀ item ∈ s.queue, item = .task o.number ∨ item = .link 0
  timed : ∀ t ∈ Activity.timers (.connecting c), t.Whole ∨ t = .last
  ahead : ∀ t ∈ Activity.timers (.connecting c), s.now.toNanos ≤ t.toNanos
  soon : ∀ t ∈ Activity.timers (.connecting c), t.toNanos ≤ o.overBy
  greeted : c.greetedBy.toNanos ≤ o.greetedBy
  line : o.Line c s.links s.next s.now s.sent

structure Opener.UnderWay (o : Opener) (c : Connecting) (s : State) : Prop where
  tasks : s.tasks = [o.busyWith (.connecting c)]
  stands : o.Stands c s

theorem stands_of_same (stands : o.Stands c s) (attempts : s'.attempts = s.attempts)
    (sweepers : s'.sweepers = s.sweepers) (now : s'.now = s.now) (links : s'.links = s.links)
    (next : s'.next = s.next) (sent : s'.sent = s.sent)
    (known : ∀ item ∈ s'.queue, item = .task o.number ∨ item = .link 0) : o.Stands c s' where
  accepted := stands.accepted
  tried := by rw [attempts]; exact stands.tried
  client := stands.client
  settings := stands.settings
  sweepers := by rw [sweepers]; exact stands.sweepers
  whole := by rw [now]; exact stands.whole
  known := known
  timed := stands.timed
  ahead := by rw [now]; exact stands.ahead
  soon := stands.soon
  greeted := stands.greeted
  line := by rw [links, next, now, sent]; exact stands.line

theorem greeted_by_mem (early : c.opening.stage ≠ .pinging) :
    c.greetedBy ∈ Activity.timers (.connecting c) := by
  simp only [Activity.timers, if_neg early]
  exact List.mem_append_right _ List.mem_cons_self

/-! ### Sending -/

theorem post_all (link : Link) (commands : List (Nat × Command)) :
    commands.foldl (fun link c => link.post c.1 c.2) link =
      { link with inbox := link.inbox ++ commands } := by
  induction commands generalizing link with
  | nil => rw [List.foldl_nil, List.append_nil]
  | cons command commands ih =>
      rw [List.foldl_cons, ih]
      simp only [Link.post, List.append_assoc, List.singleton_append]

def State.upcoming (s : State) (count : Nat) : List Nat := (List.range count).map (s.next + ·)

theorem upcoming_bounds {count k : Nat} (member : k ∈ s.upcoming count) :
    s.next ≤ k ∧ k < s.next + count := by
  obtain ⟨i, inside, rfl⟩ := List.mem_map.mp member
  have bound := List.mem_range.mp inside
  omega

theorem post_linked {link : Link} (links : s.links = [link]) (commands : List Command)
    (patience : Duration) :
    ∃ queue, s.post 0 commands patience =
      (⟨0, s.upcoming commands.length, s.now.timer patience⟩,
        { s with
          links := [{ link with inbox := link.inbox ++ (s.upcoming commands.length).zip commands }]
          next := s.next + commands.length, queue }) ∧
      ∀ item ∈ queue, item ∈ s.queue ∨ item = .link 0 := by
  let posted : State := { s with
    links := [{ link with inbox := link.inbox ++ (s.upcoming commands.length).zip commands }]
    next := s.next + commands.length }
  obtain ⟨queue, woken⟩ := posted.wake_eq (.link 0)
  refine ⟨queue, ?_, ?_⟩
  · have sent : s.post 0 commands patience =
        (⟨0, s.upcoming commands.length, s.now.timer patience⟩, posted.wake (.link 0)) := by
      simp only [post, post_all, links]
      rfl
    rw [sent, woken]
  · intro item member
    have there : item ∈ (posted.wake (.link 0)).queue := by rw [woken]; exact member
    exact mem_of_mem_wake (s := posted) there

theorem sound_of_post {script : ServerScript} {next : Nat} {link : Link}
    (sound : link.Sound script next) (commands : List (Nat × Command)) {next' : Nat}
    (grown : next ≤ next') (numbered : ∀ k ∈ commands.map (·.1), k < next') :
    { link with inbox := link.inbox ++ commands }.Sound script next' where
  acts := sound.acts
  numbered := by
    intro k known
    rw [Link.mem_numbers] at known
    have before : k ∈ link.numbers → k < next' :=
      fun known => Nat.lt_of_lt_of_le (sound.numbered k known) grown
    rw [Link.mem_numbers] at before
    cases known with
    | waiting member =>
        rcases List.mem_append.mp member with old | new
        · exact before (.waiting old)
        · exact numbered k (List.mem_map_of_mem new)
    | busy taken => exact before (.busy taken)
    | replied member => exact before (.replied member)
  timed := sound.timed

theorem sound_of_forget {script : ServerScript} {next : Nat} {link : Link}
    (sound : link.Sound script next) (numbers : List Nat) :
    (link.forget numbers).Sound script next where
  acts := sound.acts
  numbered := by
    intro k known
    apply sound.numbered
    rw [Link.mem_numbers] at known ⊢
    cases known with
    | waiting member => exact .waiting member
    | busy taken => exact .busy taken
    | replied member => exact .replied (List.mem_filter.mp member).1
  timed := sound.timed

theorem forget_linked {link : Link} {w : Wait} (links : s.links = [link]) (here : w.link = 0) :
    s.forget w = { s with links := [link.forget w.numbers] } := by
  have found : s.links[w.link]? = some link := by rw [links, here]; rfl
  simp only [forget, found]
  rw [links, here]
  rfl

theorem ping_course_of_forget {script : ServerScript} {k : Nat} {posted now : Instant}
    {sent : List (Instant × Command)} {link : Link}
    (course : Link.PingCourse script k posted now sent link) (numbers : List Nat) :
    Link.PingCourse script k posted now sent (link.forget numbers) where
  waiting := course.waiting
  busy := course.busy
  replied reply member := course.replied reply (List.mem_filter.mp member).1

/-- A sign of life under a number that no command has had stands in the inbox and nowhere else. -/
theorem ping_course_of_post {script : ServerScript} {next : Nat} {link : Link} (now : Instant)
    (sent : List (Instant × Command)) (sound : link.Sound script next) :
    Link.PingCourse script next now now sent
      { link with inbox := link.inbox ++ [(next, .ping)] } := by
  have unknown : next ∉ link.numbers := fun known => Nat.lt_irrefl _ (sound.numbered next known)
  rw [Link.mem_numbers] at unknown
  refine ⟨?_, ?_, ?_⟩
  · intro command member
    rcases List.mem_append.mp member with old | new
    · exact absurd (.waiting old) unknown
    · exact (Prod.mk.inj (List.mem_singleton.mp new)).2
  · intro due act busy
    exact absurd (.busy busy) unknown
  · intro reply member
    exact absurd (.replied member) unknown

/-! ### Moves -/

/-- How much lies between an opening and its end: the stages to come, each with what may be sent
in it, and what the server has to do. -/
def potential (c : Connecting) (s : State) : Nat :=
  8 * c.opening.stage.left + (s.links.map Link.load).sum

def verdictOf : Except CacheError Finding → Verdict
  | .ok finding => .found finding
  | .error e => .failed e

/-- A move of an opening that does not have to wait: the opening has come nearer to its end, or to
its end. -/
inductive Opener.Advances (o : Opener) (tasks : List Task) (bound : Nat) :
    Move × State → Prop where
  | goesOn {c' : Connecting} {s' : State} (same : s'.tasks = tasks) (stands : o.Stands c' s')
      (nearer : potential c' s' < bound) : Advances o tasks bound (.going (.connecting c'), s')
  | ends {outcome} {s' : State} (same : s'.tasks = tasks)
      (clean : o.EndsCleanly (verdictOf outcome) s') :
      Advances o tasks bound (.answered outcome none, s')

def Connecting.asking (c : Connecting) (stage : OpeningStage) (w : Wait) : Connecting :=
  { c with opening := { c.opening with stage }, wait := some w }

def Opener.wait (o : Opener) (s : State) (count : Nat) : Wait :=
  ⟨0, s.upcoming count, s.now.timer o.settings.responseTimeout⟩

theorem wait_deadline (whole : s.now.Whole) (count : Nat) :
    (o.wait s count).deadline.toNanos =
      min (s.now.toNanos + o.settings.responseTimeout.toNanos) Instant.lastNanos := by
  rw [Opener.wait, RemoteSettings.responseTimeout, Instant.timer_nanos whole,
    Duration.of_millis_nanos]

theorem line_of_asking {link : Link} {stage : OpeningStage} {commands : List Command}
    (whole : s.now.Whole) (held : c.link = some 0) (sound : link.Sound o.script s.next)
    (sign : stage = .pinging → commands = [.ping]) :
    o.Line (c.asking stage (o.wait s commands.length))
      [{ link with inbox := link.inbox ++ (s.upcoming commands.length).zip commands }]
      (s.next + commands.length) s.now s.sent := by
  refine .linked held rfl rfl rfl ?_ ?_
  · apply sound_of_post sound _ (Nat.le_add_right _ _)
    intro k member
    obtain ⟨entry, zipped, rfl⟩ := List.mem_map.mp member
    exact (upcoming_bounds (List.of_mem_zip zipped).1).2
  · intro pinging
    rw [sign pinging]
    have deadline := wait_deadline (o := o) whole 1
    refine ⟨s.next, s.now, rfl, Nat.le_refl _, ?_, ping_course_of_post s.now s.sent sound⟩
    change (o.wait s 1).deadline.toNanos ≤ _
    omega

/-- Sending keeps to the times: the new wait is over before all has to be. -/
theorem timers_of_asking (stands : o.Stands c s) {stage : OpeningStage} (count : Nat)
    (early : c.opening.stage ≠ .pinging) {t : Instant}
    (member : t ∈ Activity.timers (.connecting (c.asking stage (o.wait s count)))) :
    (t.Whole ∨ t = .last) ∧ s.now.toNanos ≤ t.toNanos ∧ t.toNanos ≤ o.overBy := by
  have greeting := greeted_by_mem early
  have byNow := stands.ahead _ greeting
  rcases List.mem_append.mp member with mine | late
  · have same : t = (o.wait s count).deadline := List.mem_singleton.mp mine
    subst same
    have deadline := wait_deadline (o := o) stands.whole count
    have nowBound := s.now.to_nanos_le_last
    have greeted := stands.greeted
    refine ⟨s.now.timer_whole_or_last _, by omega, ?_⟩
    rw [Opener.overBy]
    omega
  · split at late
    · cases late
    · have same : t = c.greetedBy := List.mem_singleton.mp late
      subst same
      exact ⟨stands.timed _ greeting, byNow, stands.soon _ greeting⟩

theorem ask_advances {link : Link} (stands : o.Stands c s) (held : c.link = some 0)
    (links : s.links = [link]) (sound : link.Sound o.script s.next) {stage : OpeningStage}
    {commands : List Command} (nearer : stage.left < c.opening.stage.left)
    (few : commands.length ≤ 2) (sign : stage = .pinging → commands = [.ping]) :
    let asked := s.post 0 commands c.opening.settings.responseTimeout
    o.Advances s.tasks (potential c s)
      (.going (.connecting (c.asking stage asked.1)), asked.2) := by
  intro asked
  obtain ⟨queue, posted, woken⟩ := post_linked links commands o.settings.responseTimeout
  rw [← stands.settings] at posted
  have early : c.opening.stage ≠ .pinging := by
    intro last
    rw [last] at nearer
    exact Nat.not_lt_zero _ nearer
  have asking : asked = (o.wait s commands.length, { s with
      links := [{ link with inbox := link.inbox ++ (s.upcoming commands.length).zip commands }]
      next := s.next + commands.length, queue }) := by
    rw [Opener.wait, ← stands.settings]
    exact posted
  rw [asking]
  have timers : ∀ t ∈ Activity.timers (.connecting (c.asking stage (o.wait s commands.length))),
      (t.Whole ∨ t = .last) ∧ s.now.toNanos ≤ t.toNanos ∧ t.toNanos ≤ o.overBy :=
    fun _ member => timers_of_asking stands commands.length early member
  refine .goesOn rfl ⟨stands.accepted, stands.tried, stands.client, stands.settings,
    stands.sweepers, stands.whole, ?_, fun t member => (timers t member).1,
    fun t member => (timers t member).2.1, fun t member => (timers t member).2.2, stands.greeted,
    line_of_asking stands.whole held sound sign⟩ ?_
  · intro item member
    rcases woken item member with before | rfl
    · exact stands.known item before
    · exact .inr rfl
  · have zipped : ((s.upcoming commands.length).zip commands).length = commands.length := by
      rw [List.length_zip, State.upcoming, List.length_map, List.length_range, Nat.min_self]
    simp only [potential, Connecting.asking, links, List.map_cons, List.map_nil, List.sum_cons,
      List.sum_nil, Link.load, List.length_append, zipped]
    omega

theorem connect_fails (stands : o.Stands c s) {r : OpeningReaction} {reason : String}
    (failed : r.next = .failed (.backendUnavailable reason)) (bound : Nat) :
    o.Advances s.tasks bound (s.connect c r) := by
  simp only [connect, failed, unopened, stands.client]
  refine .ends ?_ (ends_cleanly_of_unavailable stands.accepted ?_)
  · rfl
  · exact stands.tried

theorem connect_of_error (stands : o.Stands c s) (e : ClientError) (bound : Nat) :
    o.Advances s.tasks bound (s.connect c (c.opening.resume (.error e))) := by
  have goesOn := c.opening.resume_goes_on (.error e)
  generalize next : (c.opening.resume (.error e)).next = next at goesOn
  cases goesOn with
  | fails reason => exact connect_fails stands next bound

theorem connect_of_replies {link : Link} (stands : o.Stands c s) (held : c.link = some 0)
    (links : s.links = [link]) (sound : link.Sound o.script s.next) (replies : List Reply)
    (pinged : c.opening.stage = .pinging →
      ∀ pong, (replies.headD .nil).read Reply.toText = .ok pong → o.Pinged s) :
    o.Advances s.tasks (potential c s) (s.connect c (c.opening.resume (.ok replies))) := by
  have goesOn := c.opening.resume_goes_on (.ok replies)
  generalize reaction : c.opening.resume (.ok replies) = r at goesOn
  obtain ⟨next, events⟩ := r
  have reported : o.Stands c (s.report events) :=
    stands_of_same stands rfl rfl rfl rfl rfl rfl stands.known
  have first : c.link.getD 0 = 0 := by rw [held]; rfl
  cases goesOn with
  | greets named few nearer =>
      simp only [connect, first]
      exact ask_advances reported held links sound nearer few nofun
  | pings nearer =>
      simp only [connect, first]
      exact ask_advances reported held links sound nearer (Nat.le_succ _) fun _ => rfl
  | opens pinging text =>
      simp only [connect, opened, stands.client]
      refine .ends ?_ (ends_cleanly_of_opened stands.accepted ?_ ?_)
      · rfl
      · exact stands.tried
      · exact pinged pinging _ text
  | fails reason => exact connect_fails stands rfl _

/-! ### Replies -/

theorem replies_to_one {link : Link} {k : Nat} {replies : List Reply}
    (came : link.repliesTo [k] = some (.ok replies)) :
    ∃ reply, replies = [reply] ∧ (k, reply) ∈ link.replies := by
  unfold Link.repliesTo at came
  split at came
  · next found all =>
    cases came
    simp only [List.mapM_cons, List.mapM_nil, Option.bind_eq_bind, Option.pure_def,
      Option.bind_some, Option.bind_eq_some_iff, Option.map_eq_some_iff, Option.some.injEq] at all
    obtain ⟨reply, ⟨entry, there, rfl⟩, rfl⟩ := all
    have named := List.find?_some there
    have same : entry.1 = k := beq_iff_eq.mp named
    subst same
    exact ⟨entry.2, rfl, List.mem_of_find?_eq_some there⟩
  · split at came
    · cases came
    · cases came

theorem pinged_of_outcome {w : Wait} {link : Link} {replies : List Reply}
    (stands : o.Stands c s) (wait : c.wait = some w) (links : s.links = [link])
    (here : w.link = 0) (asked : o.Asked link w s.now s.sent)
    (past : s.outcome? w = some (.ok replies)) {pong : String}
    (text : (replies.headD .nil).read Reply.toText = .ok pong) : o.Pinged s := by
  obtain ⟨k, posted, numbers, _, deadline, course⟩ := asked
  have found : s.links[w.link]? = some link := by rw [links, here]; rfl
  have came : link.repliesTo [k] = some (.ok replies) := by
    simp only [outcome?, found, numbers] at past
    split at past
    · next outcome some =>
      rw [some, past]
    · split at past
      · cases past
      · cases past
  obtain ⟨reply, rfl, member⟩ := replies_to_one came
  obtain ⟨scripted, begun, pinged, delayed⟩ := course.replied reply member
  have inTime : s.now.toNanos ≤ w.deadline.toNanos := by
    apply stands.ahead
    simp only [Activity.timers, wait]
    exact List.mem_append_left _ List.mem_cons_self
  refine ⟨begun, reply, pong, pinged.1, scripted, text, delayed, ?_⟩
  have order := pinged.2.1
  omega

theorem not_reached_of_outcome {w : Wait} (open' : s.outcome? w = none) :
    w.deadline.reached s.now = false := by
  unfold outcome? at open'
  split at open'
  · split at open'
    · cases open'
    · split at open'
      · cases open'
      · next early => exact Bool.eq_false_iff.mpr early
  · cases open'

/-- An opening stands as before when the replies that it waited for are forgotten. -/
theorem stands_of_forget {link : Link} {w : Wait} (stands : o.Stands c s) (held : c.link = some 0)
    (wait : c.wait = some w) (links : s.links = [link]) (here : w.link = 0)
    (sound : link.Sound o.script s.next)
    (asked : c.opening.stage = .pinging → o.Asked link w s.now s.sent) :
    o.Stands c (s.forget w) := by
  rw [forget_linked links here]
  refine ⟨stands.accepted, stands.tried, stands.client, stands.settings, stands.sweepers,
    stands.whole, stands.known, stands.timed, stands.ahead, stands.soon, stands.greeted,
    .linked held wait here rfl (sound_of_forget sound _) ?_⟩
  intro pinging
  obtain ⟨k, posted, numbers, since, deadline, course⟩ := asked pinging
  exact ⟨k, posted, numbers, since, deadline, ping_course_of_forget course _⟩

theorem outcome_advances {w : Wait} {outcome : Except ClientError (List Reply)}
    (stands : o.Stands c s) (wait : c.wait = some w) (past : s.outcome? w = some outcome) :
    o.Advances s.tasks (potential c s) (s.continueConnect c) := by
  cases stands.line with
  | silent _ _ unwaiting _ => cases unwaiting.symm.trans wait
  | @linked link w' held wait' here links sound asked =>
      cases wait.symm.trans wait'
      -- The replies are forgotten before the opening goes on, which is all that changes.
      have kept := stands_of_forget stands held wait links here sound asked
      have forgot := forget_linked links here
      have continued : s.continueConnect c =
          (s.forget w).connect c (c.opening.resume outcome) := by
        simp only [continueConnect, wait, Option.bind_some, past]
        rfl
      have load : potential c (s.forget w) = potential c s := by
        rw [forgot, potential, potential, links]
        rfl
      have same : (s.forget w).tasks = s.tasks := by rw [forgot]
      rw [continued, ← load, ← same]
      cases outcome with
      | error e => exact connect_of_error kept e _
      | ok replies =>
          have forgetful : (s.forget w).links = [link.forget w.numbers] := by rw [forgot]
          have soundly : (link.forget w.numbers).Sound o.script (s.forget w).next := by
            rw [forgot]
            exact sound_of_forget sound w.numbers
          apply connect_of_replies kept held forgetful soundly
          intro pinging pong text
          have pinged := pinged_of_outcome stands wait links here (asked pinging) past text
          rw [forgot]
          exact pinged

/-- An opening that is looked at goes on, unless it has to wait and none of its times is up. -/
theorem continue_connect_advances (stands : o.Stands c s) :
    s.continueConnect c = (.resting (.connecting c), s) ∧
        (∀ t ∈ Activity.timers (.connecting c), t.reached s.now = false) ∨
      o.Advances s.tasks (potential c s) (s.continueConnect c) := by
  cases past : c.wait.bind s.outcome? with
  | some outcome =>
      right
      obtain ⟨w, wait, past⟩ := Option.bind_eq_some_iff.mp past
      exact outcome_advances stands wait past
  | none =>
      cases late : c.opening.stage != .pinging && c.greetedBy.reached s.now with
      | true =>
          right
          have continued : s.continueConnect c =
              s.connect c (c.opening.resume (.error .timedOut)) := by
            simp only [continueConnect, past, late, if_true]
          rw [continued]
          exact connect_of_error stands .timedOut _
      | false =>
          left
          refine ⟨by simp only [continueConnect, past, late, Bool.false_eq_true, if_false], ?_⟩
          intro t member
          rcases List.mem_append.mp member with awaited | greeting
          · obtain ⟨w, wait, rfl⟩ := Option.map_eq_some_iff.mp (Option.mem_toList.mp awaited)
            rw [wait] at past
            exact not_reached_of_outcome past
          · split at greeting
            · cases greeting
            · next early =>
              rw [List.mem_singleton.mp greeting]
              rw [bne_iff_ne.mpr early, Bool.true_and] at late
              exact late

end ExpiringCache.Simulation
