import ExpiringCache.Proofs.Time
import ExpiringCache.Simulation.Server
/-!
What a scripted server does about the commands of one connection. Its work is a sequence of single
deeds: it begins with the next command or ends the work on one. Each deed takes something off the
server's hands, and what becomes of a sign of life can be told from the script.
-/

namespace ExpiringCache

/-! ### Scripts -/

namespace ServerScript

theorem take_ping (script : ServerScript) : script.take .ping = (script.onPing, script) := by
  have name : Command.ping.head? = some (Command.word "PING") := rfl
  have noAuth : Command.word "PING" ≠ Command.word "AUTH" := by decide
  have noSelect : Command.word "PING" ≠ Command.word "SELECT" := by decide
  simp only [take, name, if_neg noAuth, if_neg noSelect, if_true]

theorem take_keeps_ping (script : ServerScript) (command : Command) :
    (script.take command).2.onPing = script.onPing := by
  unfold take
  split
  · split
    · rfl
    · split
      · rfl
      · split
        · rfl
        · split <;> rfl
  · rfl

end ServerScript

namespace Link

/-! ### Deeds -/

theorem act_spec (link : Link) (number : Nat) (act : ServerAct) :
    (link.act number act).inbox = link.inbox ∧ (link.act number act).busy = none ∧
      (link.act number act).script = link.script ∧
      ∀ k reply, (k, reply) ∈ (link.act number act).replies ↔
        (k, reply) ∈ link.replies ∨ k = number ∧ act = .answer reply := by
  unfold Link.act
  split
  · refine ⟨rfl, rfl, rfl, ?_⟩
    intro k reply
    simp only [List.mem_append, List.mem_singleton, Prod.mk.injEq, ServerAct.answer.injEq]
    rw [eq_comm (a := reply)]
  · next other =>
    refine ⟨rfl, rfl, rfl, ?_⟩
    intro k reply
    simp only [reduceCtorEq, and_false, or_false]
  · next noAnswer _ =>
    refine ⟨rfl, rfl, rfl, ?_⟩
    intro k reply
    have never : ¬(k = number ∧ act = .answer reply) := fun same => noAnswer reply same.2
    simp only [never, or_false]

/-- The link when a command has been begun with: it has been answered at once, or takes its time. -/
theorem begin_spec (link : Link) (now : Instant) (number : Nat) (command : Command) :
    let act := (link.script.take command).1
    let begun := link.begin now number command
    begun.inbox = link.inbox ∧ begun.script = (link.script.take command).2 ∧
      (act.delay = 0 ∧ begun.busy = none ∧
          (∀ k reply, (k, reply) ∈ begun.replies ↔
            (k, reply) ∈ link.replies ∨ k = number ∧ act.core = .answer reply) ∨
        begun.busy = some (number, now.timer (.ofMillis act.delay), act.core) ∧
          begun.replies = link.replies) := by
  simp only [Link.begin]
  split
  · next atOnce =>
    obtain ⟨inbox, busy, scripted, replies⟩ :=
      act_spec { link with script := (link.script.take command).2 } number
        (link.script.take command).1.core
    exact ⟨inbox, scripted, .inl ⟨atOnce, busy, replies⟩⟩
  · exact ⟨rfl, rfl, .inr ⟨rfl, rfl⟩⟩

/-- A server that is busy after it has begun with a command is busy with that one. -/
theorem busy_of_begin {link : Link} {now due : Instant} {number k : Nat} {command : Command}
    {act : ServerAct} (busy : (link.begin now number command).busy = some (k, due, act)) :
    k = number ∧ due = now.timer (.ofMillis (link.script.take command).1.delay) ∧
      act = (link.script.take command).1.core := by
  obtain ⟨_, _, ⟨_, free, _⟩ | ⟨taken, _⟩⟩ := begin_spec link now number command
  · rw [free] at busy
    cases busy
  · rw [taken] at busy
    cases busy
    exact ⟨rfl, rfl, rfl⟩

/-- What a server does until it has to wait, with the commands that it begins with. -/
inductive Does (now : Instant) : Link → List Command → Link → Prop where
  | rests (link) : Does now link [] link
  | begins {link number command rest begun link'} (free : link.busy = none)
      (first : link.inbox = (number, command) :: rest)
      (further : Does now ({ link with inbox := rest }.begin now number command) begun link') :
      Does now link (command :: begun) link'
  | finishes {link number due act begun link'} (busy : link.busy = some (number, due, act))
      (past : due.reached now = true) (further : Does now (link.act number act) begun link') :
      Does now link begun link'

theorem begin_inbox (link : Link) (inbox : List (Nat × Command)) (now : Instant) (number : Nat)
    (command : Command) :
    { link with inbox }.begin now number command =
      { link.begin now number command with inbox } := by
  simp only [Link.begin]
  split
  · unfold Link.act
    split <;> rfl
  · rfl

theorem serve_does (now : Instant) (link : Link) (inbox : List (Nat × Command)) :
    Does now { link with inbox } (serve now link inbox).1 (serve now link inbox).2 := by
  induction inbox generalizing link with
  | nil => exact .rests _
  | cons first rest ih =>
      obtain ⟨number, command⟩ := first
      simp only [serve]
      split
      · next ready =>
        have free : { link with inbox := (number, command) :: rest }.busy = none :=
          Option.isNone_iff_eq_none.mp ready.2
        have further := ih (link.begin now number command)
        rw [← begin_inbox] at further
        exact .begins free rfl further
      · exact .rests _

theorem work_does (now : Instant) (link : Link) :
    Does now link (link.work now).1 (link.work now).2 := by
  unfold work
  split
  · exact serve_does now link link.inbox
  · next number due act busy =>
    split
    · next past => exact .finishes busy past (serve_does now _ _)
    · exact .rests _

/-! ### Work off the server's hands -/

variable {now : Instant} {link link' : Link} {begun : List Command} {script : ServerScript}

/-- How much a server has to do: a command that is left counts for its beginning and its end. -/
def load (link : Link) : Nat := 2 * link.inbox.length + link.busy.toList.length

theorem load_of_act (link : Link) (number : Nat) (act : ServerAct) :
    (link.act number act).load = 2 * link.inbox.length := by
  obtain ⟨inbox, busy, _⟩ := act_spec link number act
  rw [load, inbox, busy]
  rfl

theorem load_of_does (does : Does now link begun link') : link'.load ≤ link.load := by
  induction does with
  | rests => exact Nat.le_refl _
  | @begins link number command rest begun link' free first further ih =>
      obtain ⟨inbox, _, ended | ⟨busy, _⟩⟩ :=
        begin_spec { link with inbox := rest } now number command
      · have fewer : ({ link with inbox := rest }.begin now number command).load =
            2 * rest.length := by
          rw [load, inbox, ended.2.1]
          rfl
        have before : link.load = 2 * rest.length + 2 := by
          rw [load, free, first]
          rfl
        omega
      · have fewer : ({ link with inbox := rest }.begin now number command).load =
            2 * rest.length + 1 := by
          rw [load, inbox, busy]
          rfl
        have before : link.load = 2 * rest.length + 2 := by
          rw [load, free, first]
          rfl
        omega
  | @finishes link number due act begun link' busy past further ih =>
      have before : link.load = 2 * link.inbox.length + 1 := by
        rw [load, busy]
        rfl
      rw [load_of_act] at ih
      omega

/-- A server whose time has come for something has less to do afterwards. -/
theorem load_of_due {number : Nat} {due : Instant} {act : ServerAct}
    (busy : link.busy = some (number, due, act)) (past : due.reached now = true) :
    (link.work now).2.load < link.load := by
  have further := load_of_does (serve_does now (link.act number act) (link.act number act).inbox)
  have fewer := load_of_act link number act
  have before : link.load = 2 * link.inbox.length + 1 := by
    rw [load, busy]
    rfl
  have worked : link.work now = serve now (link.act number act) (link.act number act).inbox := by
    simp only [work, busy, past, if_true]
  rw [worked]
  change _ ≤ (link.act number act).load at further
  omega

/-! ### Numbers and timers -/

def numbers (link : Link) : List Nat :=
  link.inbox.map (·.1) ++ link.busy.toList.map (·.1) ++ link.replies.map (·.1)

inductive Knows (link : Link) (k : Nat) : Prop where
  | waiting {command : Command} (member : (k, command) ∈ link.inbox)
  | busy {due : Instant} {act : ServerAct} (taken : link.busy = some (k, due, act))
  | replied {reply : Reply} (member : (k, reply) ∈ link.replies)

theorem mem_numbers (link : Link) (k : Nat) : k ∈ link.numbers ↔ link.Knows k := by
  simp only [numbers, List.mem_append, List.mem_map, Prod.exists, exists_and_right,
    exists_eq_right, Option.mem_toList]
  constructor
  · rintro ((⟨command, member⟩ | ⟨due, act, taken⟩) | ⟨reply, member⟩)
    · exact .waiting member
    · exact .busy taken
    · exact .replied member
  · rintro (member | taken | member)
    · exact .inl (.inl ⟨_, member⟩)
    · exact .inl (.inr ⟨_, _, taken⟩)
    · exact .inr ⟨_, member⟩

/-- A link as its server leaves it: what is done about a sign of life is as scripted, the commands'
numbers have been given out, and the server waits for whole milliseconds. -/
structure Sound (script : ServerScript) (next : Nat) (link : Link) : Prop where
  acts : link.script.onPing = script.onPing
  numbered : ∀ k ∈ link.numbers, k < next
  timed : ∀ k due act, link.busy = some (k, due, act) → due.Whole ∨ due = .last

theorem sound_of_connected (script : ServerScript) (next : Nat) :
    (connected script).Sound script next where
  acts := rfl
  numbered := List.forall_mem_nil _
  timed := by
    intro k due act busy
    cases busy

theorem numbers_of_act (number : Nat) (act : ServerAct) (link : Link) (k : Nat)
    (known : k ∈ (link.act number act).numbers) : k = number ∨ k ∈ link.numbers := by
  obtain ⟨inbox, busy, _, replies⟩ := act_spec link number act
  rw [mem_numbers] at known ⊢
  cases known with
  | waiting member =>
      rw [inbox] at member
      exact .inr (.waiting member)
  | busy taken =>
      rw [busy] at taken
      cases taken
  | @replied reply there =>
      rcases (replies k reply).mp there with before | ⟨same, _⟩
      · exact .inr (.replied before)
      · exact .inl same

theorem numbers_of_begin (number : Nat) (command : Command) (link : Link) (k : Nat)
    (known : k ∈ (link.begin now number command).numbers) : k = number ∨ k ∈ link.numbers := by
  obtain ⟨inbox, _, how⟩ := begin_spec link now number command
  rw [mem_numbers] at known ⊢
  cases known with
  | waiting member =>
      rw [inbox] at member
      exact .inr (.waiting member)
  | busy taken => exact .inl (busy_of_begin taken).1
  | @replied reply there =>
      rcases how with ⟨_, _, replies⟩ | ⟨_, replies⟩
      · rcases (replies k reply).mp there with before | ⟨same, _⟩
        · exact .inr (.replied before)
        · exact .inl same
      · rw [replies] at there
        exact .inr (.replied there)

variable {next : Nat}

theorem sound_of_begin {number : Nat} {command : Command} {rest : List (Nat × Command)}
    (first : link.inbox = (number, command) :: rest) (sound : link.Sound script next) :
    ({ link with inbox := rest }.begin now number command).Sound script next where
  acts := by
    rw [(begin_spec { link with inbox := rest } now number command).2.1,
      ServerScript.take_keeps_ping]
    exact sound.acts
  numbered := by
    intro k known
    apply sound.numbered
    rw [mem_numbers]
    rcases numbers_of_begin number command { link with inbox := rest } k known with rfl | before
    · exact .waiting (first ▸ List.mem_cons_self)
    · rw [mem_numbers] at before
      cases before with
      | waiting member => exact .waiting (first ▸ List.mem_cons_of_mem _ member)
      | busy taken => exact .busy taken
      | replied member => exact .replied member
  timed := by
    intro k due act busy
    rw [(busy_of_begin busy).2.1]
    exact now.timer_whole_or_last _

theorem sound_of_does (does : Does now link begun link') (sound : link.Sound script next) :
    link'.Sound script next := by
  induction does with
  | rests => exact sound
  | begins free first further ih => exact ih (sound_of_begin first sound)
  | @finishes link number due act begun link' busy past further ih =>
      obtain ⟨inbox, free, scripted, _⟩ := act_spec link number act
      apply ih
      refine ⟨?_, ?_, ?_⟩
      · rw [scripted]
        exact sound.acts
      · intro k known
        rcases numbers_of_act number act link k known with rfl | before
        · exact sound.numbered k ((mem_numbers link k).mpr (.busy busy))
        · exact sound.numbered k before
      · intro k due act other
        rw [free] at other
        cases other

/-! ### Signs of life -/

def PingBegun (sent : List (Instant × Command)) (posted begun : Instant) : Prop :=
  (begun, Command.ping) ∈ sent ∧ posted.toNanos ≤ begun.toNanos ∧ begun.Whole

theorem PingBegun.mono {sent sent' : List (Instant × Command)} {posted begun : Instant}
    (pinged : PingBegun sent posted begun) (grown : sent ⊆ sent') : PingBegun sent' posted begun :=
  ⟨grown pinged.1, pinged.2⟩

/-- What has become by now of a sign of life that was sent under the number `k`. -/
structure PingCourse (script : ServerScript) (k : Nat) (posted now : Instant)
    (sent : List (Instant × Command)) (link : Link) : Prop where
  waiting : ∀ command, (k, command) ∈ link.inbox → command = .ping
  busy : ∀ due act, link.busy = some (k, due, act) → act = script.onPing.core ∧
    ∃ begun, PingBegun sent posted begun ∧ due = begun.timer (.ofMillis script.onPing.delay)
  replied : ∀ reply, (k, reply) ∈ link.replies → script.onPing.core = .answer reply ∧
    ∃ begun, PingBegun sent posted begun ∧
      begun.toNanos + script.onPing.delay * nanosPerMilli ≤ now.toNanos

variable {k : Nat} {posted : Instant} {sent sent' : List (Instant × Command)}

theorem PingCourse.mono {now' : Instant} (course : PingCourse script k posted now sent link)
    (later : now.toNanos ≤ now'.toNanos) (grown : sent ⊆ sent') :
    PingCourse script k posted now' sent' link where
  waiting := course.waiting
  busy due act busy := by
    obtain ⟨same, begun, pinged, due⟩ := course.busy due act busy
    exact ⟨same, begun, pinged.mono grown, due⟩
  replied reply there := by
    obtain ⟨same, begun, pinged, passed⟩ := course.replied reply there
    exact ⟨same, begun, pinged.mono grown, Nat.le_trans passed later⟩

theorem ping_course_of_begin {number : Nat} {command : Command} {rest : List (Nat × Command)}
    (first : link.inbox = (number, command) :: rest) (acts : link.script.onPing = script.onPing)
    (whole : now.Whole) (since : posted.toNanos ≤ now.toNanos)
    (course : PingCourse script k posted now sent link) :
    PingCourse script k posted now ((now, command) :: sent)
      ({ link with inbox := rest }.begin now number command) := by
  obtain ⟨inbox, _, how⟩ := begin_spec { link with inbox := rest } now number command
  have further := course.mono (Nat.le_refl _) (List.subset_cons_self (now, command) sent)
  have mine : k = number → (link.script.take command).1 = script.onPing ∧
      PingBegun ((now, command) :: sent) posted now := by
    rintro rfl
    have same : command = .ping :=
      course.waiting command (by rw [first]; exact List.mem_cons_self)
    subst same
    rw [ServerScript.take_ping]
    exact ⟨acts, List.mem_cons_self, since, whole⟩
  constructor
  case waiting =>
    intro other member
    rw [inbox] at member
    exact course.waiting other (by rw [first]; exact List.mem_cons_of_mem _ member)
  case busy =>
    intro due act busy
    obtain ⟨same, rfl, rfl⟩ := busy_of_begin busy
    obtain ⟨scripted, pinged⟩ := mine same
    change (link.script.take command).1.core = _ ∧ _
    rw [scripted]
    exact ⟨rfl, now, pinged, rfl⟩
  case replied =>
    intro reply member
    rcases how with ⟨atOnce, _, replies⟩ | ⟨_, replies⟩
    · rcases (replies k reply).mp member with before | ⟨same, answered⟩
      · exact further.replied reply before
      · obtain ⟨scripted, pinged⟩ := mine same
        change (link.script.take command).1.core = _ at answered
        change (link.script.take command).1.delay = 0 at atOnce
        rw [scripted] at answered atOnce
        refine ⟨answered, now, pinged, ?_⟩
        rw [atOnce]
        omega
    · rw [replies] at member
      exact further.replied reply member

/-- A server's time for the reply cannot come before the script's delay is over. -/
theorem delay_over {begun due : Instant} {millis : Nat} (whole : begun.Whole)
    (nowWhole : now.Whole) (timed : due = begun.timer (.ofMillis millis))
    (past : due.reached now = true) : begun.toNanos + millis * nanosPerMilli ≤ now.toNanos := by
  have passed := (Instant.reached_iff_nanos due now).mp past
  rw [timed, Instant.timer_nanos whole] at passed
  have inside : now.toNanos ≠ Instant.lastNanos := by
    intro atEnd
    apply Instant.last_not_whole
    rw [← Instant.to_nanos_injective (t := .last) atEnd]
    exact nowWhole
  have bound := now.to_nanos_le_last
  omega

theorem ping_course_of_act {number : Nat} {due : Instant} {act : ServerAct}
    (busy : link.busy = some (number, due, act)) (past : due.reached now = true)
    (whole : now.Whole) (course : PingCourse script k posted now sent link) :
    PingCourse script k posted now sent (link.act number act) := by
  obtain ⟨inbox, free, _, replies⟩ := act_spec link number act
  constructor
  case waiting =>
    rw [inbox]
    exact course.waiting
  case busy =>
    intro due act other
    rw [free] at other
    cases other
  case replied =>
    intro reply member
    rcases (replies k reply).mp member with before | ⟨same, answered⟩
    · exact course.replied reply before
    · subst same
      obtain ⟨scripted, begun, pinged, timed⟩ := course.busy due act busy
      exact ⟨scripted.symm.trans answered, begun, pinged,
        delay_over pinged.2.2 whole timed past⟩

theorem ping_course_of_does (does : Does now link begun link')
    (acts : link.script.onPing = script.onPing) (whole : now.Whole)
    (since : posted.toNanos ≤ now.toNanos) (course : PingCourse script k posted now sent link) :
    PingCourse script k posted now ((begun.map fun command => (now, command)).reverse ++ sent)
      link' := by
  induction does generalizing sent with
  | rests => exact course
  | @begins link number command rest begun link' free first further ih =>
      have kept : ({ link with inbox := rest }.begin now number command).script.onPing =
          script.onPing := by
        rw [(begin_spec { link with inbox := rest } now number command).2.1,
          ServerScript.take_keeps_ping]
        exact acts
      rw [List.map_cons, List.reverse_cons, List.append_assoc]
      exact ih kept (ping_course_of_begin first acts whole since course)
  | @finishes link number due act begun link' busy past further ih =>
      have kept : (link.act number act).script.onPing = script.onPing := by
        rw [(act_spec link number act).2.2.1]
        exact acts
      exact ih kept (ping_course_of_act busy past whole course)

end Link

end ExpiringCache
