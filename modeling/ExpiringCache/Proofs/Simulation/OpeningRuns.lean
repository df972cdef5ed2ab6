import ExpiringCache.Proofs.Simulation.OpeningTurns
/-!
Runs in which one task opens a networked cache. Whatever the settings and whatever the server does,
the run ends once the two timeouts are over, and the answer is one of the three that there may be.
-/

namespace ExpiringCache.Simulation

open State

variable {o : Opener} {c : Connecting} {s : State} {limit : Instant}

/-! ### Ends -/

theorem weight_of_erase {queue : List Item} {item : Item} (member : item ∈ queue) :
    weight (queue.erase item) + 1 + [item].count (.link 0) = weight queue := by
  have shorter := List.length_erase_of_mem member
  have positive := List.length_pos_of_mem member
  have fewer : (queue.erase item).count (.link 0) = _ := List.count_erase
  rw [List.count_singleton, weight, weight, shorter, fewer]
  split
  · next same =>
    have mine : item = .link 0 := beq_iff_eq.mp same
    subst mine
    have there := List.count_pos_iff.mpr member
    omega
  · omega

theorem ends_of_answered (answered : o.Answered s) :
    Ends o.number limit (some o.number, s) := by
  obtain ⟨s', moved, answer, only, clean⟩ := move_answered answered
  apply ends_of_turn (.stops moved)
  rw [stays_of_only only rfl rfl]
  exact ends_of_ended (has_ended_of_ended ⟨answer, only, clean⟩)

/-- A task that moves comes nearer to its end, unless it has to wait. -/
theorem ends_of_move (underWay : o.UnderWay c s)
    (closer : ∀ c' s', o.UnderWay c' s' → potential c' s' < potential c s →
      Ends o.number limit (some o.number, s'))
    (waits : (∀ t ∈ Activity.timers (.connecting c), t.reached s.now = false) →
      Ends o.number limit (none, s)) : Ends o.number limit (some o.number, s) := by
  rcases move_under_way underWay with ⟨moved, early⟩ | ⟨s', moved, ⟨c', further, less⟩ | answered⟩
  · apply ends_of_turn (.stops moved)
    rw [stays_of_only underWay.tasks rfl rfl]
    exact waits early
  · exact ends_of_turn (.goesOn moved) (closer c' s' further less)
  · exact ends_of_turn (.goesOn moved) (ends_of_answered answered)

/-- Something stands in the queue that will bring the end nearer. -/
def Opener.Overdue (o : Opener) (c : Connecting) (s : State) : Prop :=
  (.task o.number ∈ s.queue ∧ ∃ t ∈ Activity.timers (.connecting c), t.reached s.now = true) ∨
    .link 0 ∈ s.queue ∧ ∃ link number due act, s.links = [link] ∧
      link.busy = some (number, due, act) ∧ due.reached s.now = true

def Opener.EndsBelow (o : Opener) (limit : Instant) (bound : Nat) : Prop :=
  ∀ c s, o.UnderWay c s → potential c s < bound →
    Ends o.number limit (none, s) ∧ Ends o.number limit (some o.number, s)

variable {bound : Nat}

/-- The induction is on the queue: until the turn of what is overdue comes, the link may work. -/
theorem ends_of_overdue (below : o.EndsBelow limit bound) (underWay : o.UnderWay c s)
    (atMost : potential c s ≤ bound) (overdue : o.Overdue c s) :
    Ends o.number limit (none, s) := by
  induction size : weight s.queue using Nat.strongRecOn generalizing s with
  | ind _ ih =>
      have runs := runs_of_under_way underWay
      rcases s.take_item_eq o.number with ⟨empty, _⟩ | ⟨item, member, taken, onlyTasks⟩
      · rcases overdue with ⟨there, _⟩ | ⟨there, _⟩ <;>
        · rw [empty] at there
          cases there
      · have rest : o.UnderWay c { s with queue := s.queue.erase item } :=
          under_way_of_queue underWay fun _ left => List.mem_of_mem_erase left
        have less := weight_of_erase member
        rcases underWay.stands.known item member with rfl | rfl
        · apply ends_of_turn (.takesTask runs taken)
          -- The task comes last, so that whatever is overdue of the link has had its turn.
          rcases overdue with ⟨_, t, mine, reached⟩ | ⟨there, _⟩
          · apply ends_of_move rest
            · intro c' s' further nearer
              exact (below c' s' further (Nat.lt_of_lt_of_le nearer atMost)).2
            · intro early
              cases reached.symm.trans (early t mine)
          · cases onlyTasks rfl _ there
        · apply ends_of_turn (.worksLink runs taken)
          have turn := work_link_under_way rest
          rcases overdue with ⟨there, awaited⟩ | ⟨_, link, number, due, act, one, busy, reached⟩
          · have nearer : potential c _ ≤ bound := Nat.le_trans turn.nearer atMost
            have shorter := turn.shorter
            have linkOnce : [Item.link 0].count (.link 0) = 1 := rfl
            refine ih _ ?_ turn.underWay nearer (.inl ⟨turn.awake _ ?_, ?_⟩) rfl
            · change _ ≤ weight (s.queue.erase (.link 0)) + 1 at shorter
              omega
            · have differs : Item.task o.number ≠ .link 0 := nofun
              exact (List.mem_erase_of_ne differs).mpr there
            · rw [turn.now]
              exact awaited
          · have nearer := turn.due link number due act one busy reached
            exact (below c _ turn.underWay (Nat.lt_of_lt_of_le nearer atMost)).1

theorem some_timer (underWay : o.UnderWay c s) : ∃ t, t ∈ Activity.timers (.connecting c) := by
  by_cases last : c.opening.stage = .pinging
  · cases underWay.stands.line with
    | silent stage => cases last.symm.trans stage
    | @linked link w held wait =>
        refine ⟨w.deadline, List.mem_append_left _ ?_⟩
        rw [wait]
        exact List.mem_cons_self
  · exact ⟨c.greetedBy, greeted_by_mem last⟩

theorem over_by_whole (calm : o.before.Calm) : o.overBy % nanosPerMilli = 0 := by
  have whole := calm.whole
  rw [Opener.overBy, Opener.greetedBy, RemoteSettings.connectTimeout,
    RemoteSettings.responseTimeout, Duration.of_millis_nanos, Duration.of_millis_nanos]
  simp only [Instant.Whole, nanosPerMilli] at *
  omega

/-- The next timer is one that the clock can reach before the limit, and whatever it stands for is
overdue once it has struck. -/
theorem overdue_of_strike (calm : o.before.Calm) (inTime : o.overBy ≤ limit.toNanos)
    (underWay : o.UnderWay c s) :
    ∃ t, s.nextTimer = some t ∧ limit.before t = false ∧ o.Overdue c (s.strike t) := by
  obtain ⟨own, awaited⟩ := some_timer underWay
  obtain ⟨t, next, order⟩ := next_timer_le (own_timer underWay awaited)
  have soon := underWay.stands.soon own awaited
  change t.toNanos ≤ own.toNanos at order
  have bound := limit.to_nanos_le_last
  obtain ⟨item, there⟩ := next_timer_mem next
  have whole : t.Whole := by
    rcases timer_whole underWay there with whole | atEnd
    · exact whole
    · -- The end of the clock is no whole millisecond, and the end of the opening is one.
      have past := over_by_whole calm
      have value : t.toNanos = Instant.lastNanos := congrArg Instant.toNanos atEnd
      have last := Instant.last_nanos_eq
      simp only [nanosPerMilli] at past
      omega
  have reached : t.reached (s.now.waitFor t) = true := by
    have clock := Instant.wait_for_nanos underWay.stands.whole t
    rw [Instant.reached_iff_nanos, clock]
    simp only [Instant.Whole, nanosPerMilli] at whole ⊢
    omega
  obtain ⟨queue, struck, fired, _⟩ := s.strike_eq t
  refine ⟨t, next, ?_, ?_⟩
  · rw [Bool.eq_false_iff, ne_eq, Instant.before_iff_nanos]
    omega
  · rw [struck]
    have queued : item ∈ queue := fired _ there reached
    rcases timer_origin underWay there with ⟨mine, same⟩ | ⟨link, number, act, one, busy, same⟩
    · change item = _ at same
      subst same
      exact .inl ⟨queued, t, mine, reached⟩
    · change item = _ at same
      subst same
      exact .inr ⟨queued, link, number, t, act, one, busy, reached⟩

/-- The induction is on the queue; once it is empty the clock moves to what is overdue then. -/
theorem ends_of_waiting (calm : o.before.Calm) (inTime : o.overBy ≤ limit.toNanos)
    (below : o.EndsBelow limit bound) (underWay : o.UnderWay c s)
    (atMost : potential c s ≤ bound) : Ends o.number limit (none, s) := by
  induction size : weight s.queue using Nat.strongRecOn generalizing s with
  | ind _ ih =>
      have runs := runs_of_under_way underWay
      rcases s.take_item_eq o.number with ⟨_, taken⟩ | ⟨item, member, taken, _⟩
      · obtain ⟨t, next, notLate, overdue⟩ := overdue_of_strike calm inTime underWay
        apply ends_of_turn (.strikes runs taken next notLate)
        have same : potential c (s.strike t) = potential c s := by
          obtain ⟨queue, struck, _⟩ := s.strike_eq t
          rw [potential, potential, struck]
        exact ends_of_overdue below (strike_under_way underWay next) (same ▸ atMost) overdue
      · have rest : o.UnderWay c { s with queue := s.queue.erase item } :=
          under_way_of_queue underWay fun _ left => List.mem_of_mem_erase left
        have less := weight_of_erase member
        rcases underWay.stands.known item member with rfl | rfl
        · apply ends_of_turn (.takesTask runs taken)
          apply ends_of_move rest
          · intro c' s' further nearer
            exact (below c' s' further (Nat.lt_of_lt_of_le nearer atMost)).2
          · intro _
            have shorter : weight (s.queue.erase (.task o.number)) < weight s.queue := by omega
            exact ih _ (size ▸ shorter) rest atMost rfl
        · apply ends_of_turn (.worksLink runs taken)
          have turn := work_link_under_way rest
          have shorter := turn.shorter
          change _ ≤ weight (s.queue.erase (.link 0)) + 1 at shorter
          have linkOnce : [Item.link 0].count (.link 0) = 1 := rfl
          exact ih _ (by omega) turn.underWay (Nat.le_trans turn.nearer atMost) rfl

theorem ends_below (calm : o.before.Calm) (inTime : o.overBy ≤ limit.toNanos) (bound : Nat) :
    o.EndsBelow limit bound := by
  induction bound with
  | zero => exact fun c s _ less => absurd less (Nat.not_lt_zero _)
  | succ bound below =>
      intro c s underWay less
      have atMost : potential c s ≤ bound := Nat.le_of_lt_succ less
      have waits := ends_of_waiting calm inTime below underWay atMost
      refine ⟨waits, ends_of_move underWay ?_ fun _ => waits⟩
      intro c' s' further nearer
      exact (below c' s' further (Nat.lt_of_lt_of_le nearer atMost)).2

theorem ends_of_under_way (calm : o.before.Calm) (inTime : o.overBy ≤ limit.toNanos)
    (underWay : o.UnderWay c s) :
    Ends o.number limit (none, s) ∧ Ends o.number limit (some o.number, s) :=
  ends_below calm inTime (potential c s + 1) c s underWay (Nat.lt_succ_self _)

theorem ends_of_solo (calm : o.before.Calm) (inTime : o.overBy ≤ limit.toNanos) :
    Ends o.number limit (some o.number, o.before.solo o.step) := by
  rcases move_solo calm with ⟨c, s', moved, underWay⟩ | ⟨s', moved, ⟨c, underWay⟩ | answered⟩
  · apply ends_of_turn (.stops moved)
    rw [stays_of_only underWay.tasks rfl rfl]
    exact (ends_of_under_way calm inTime underWay).1
  · exact ends_of_turn (.goesOn moved) (ends_of_under_way calm inTime underWay).2
  · exact ends_of_turn (.goesOn moved) (ends_of_answered answered)

/-! ### Runs -/

namespace Opener

def run (o : Opener) (limit : Instant) (turns : Nat) : State :=
  o.before.soloRun o.step limit turns

def answer? (o : Opener) (limit : Instant) (turns : Nat) : Option Answer :=
  answerOf ((o.run limit turns).task? o.number)

end Opener

theorem unanswered_of_found {task : Task} (found : s.task? o.number = some task)
    (unended : task.ended = none) :
    answerOf (s.task? o.number) = none ∧ s.hasEnded o.number = false := by
  rw [hasEnded, found, answerOf, Option.bind_some, unended, Option.all_some, unended]
  exact ⟨rfl, rfl⟩

/-- A run either has ended, and cleanly, or there is no answer yet. -/
theorem answered_or_not {running : Option Nat} (course : o.Course (running, s)) :
    (∃ answer, answerOf (s.task? o.number) = some answer ∧ o.EndsCleanly answer.verdict s ∧
        s.hasEnded o.number = true) ∨
      answerOf (s.task? o.number) = none ∧ s.hasEnded o.number = false := by
  cases course with
  | begins => exact .inr (unanswered_of_found (found_solo o) rfl)
  | moves underWay | waits underWay =>
      exact .inr (unanswered_of_found (found_of_only underWay.tasks) rfl)
  | answered answered =>
      obtain ⟨_, only, _⟩ := answered
      exact .inr (unanswered_of_found (found_of_only only) rfl)
  | ended ended =>
      have past := has_ended_of_ended ended
      obtain ⟨answer, only, clean⟩ := ended
      have found : s.task? o.number = some { o.task [] with ended := some (.done [answer]) } :=
        found_of_only only
      refine .inl ⟨answer, ?_, clean, past⟩
      rw [found]
      rfl

/-- The same of the state that a run has come to after any number of turns. -/
theorem run_answered_or_not (calm : o.before.Calm) (limit : Instant) (turns : Nat) :
    (∃ answer, o.answer? limit turns = some answer ∧
        o.EndsCleanly answer.verdict (o.run limit turns)) ∨
      o.answer? limit turns = none ∧ (o.run limit turns).hasEnded o.number = false := by
  obtain ⟨running, s, run, same | ⟨runs, _, same⟩⟩ :=
    run_until_reaches o.number limit turns (some o.number) (o.before.solo o.step)
  · have here : o.run limit turns = s := same
    rw [Opener.answer?, here]
    exact (answered_or_not (course_of_run calm run)).imp_left
      fun ⟨answer, told, clean, _⟩ => ⟨answer, told, clean⟩
  · obtain ⟨now, here⟩ : ∃ now, o.run limit turns = { s with now } := ⟨_, same⟩
    rw [Opener.answer?, here]
    right
    rcases answered_or_not (course_of_run calm run) with ⟨_, _, _, past⟩ | unanswered
    · cases runs.symm.trans past
    · exact unanswered

/-- Whatever the settings and whatever the server does: settings that cannot be used are refused and
nothing is attempted; all others bring about one attempt, which succeeds or fails as unavailable,
and succeeds only if the sign of life was answered in time and with text. And there is an answer,
once the two timeouts are over. -/
theorem openings_fail_cleanly (o : Opener) (calm : o.before.Calm) (limit : Instant) :
    (∀ turns answer, o.answer? limit turns = some answer →
        o.EndsCleanly answer.verdict (o.run limit turns)) ∧
      (o.overBy ≤ limit.toNanos →
        ∃ enough, ∀ turns, enough ≤ turns → ∃ answer, o.answer? limit turns = some answer) := by
  constructor
  · intro turns answer told
    rcases run_answered_or_not calm limit turns with ⟨other, told', clean⟩ | ⟨untold, _⟩
    · cases told.symm.trans told'
      exact clean
    · cases told.symm.trans untold
  · intro inTime
    obtain ⟨enough, ends⟩ := ends_of_solo calm inTime
    refine ⟨enough, ?_⟩
    intro turns given
    rcases run_answered_or_not calm limit turns with ⟨answer, told, _⟩ | ⟨_, runs⟩
    · exact ⟨answer, told⟩
    · cases runs.symm.trans (ends turns given)

/-- A server that knows no user names lets the client in without one, and takes five milliseconds to
give a sign of life. -/
theorem sign_of_life_opens :
    let noNames : Reply := .error "ERR" (some Opening.noNames)
    let script : ServerScript := ⟨.accept, .answer noNames, .answer .okay,
      .after 5 (.answer .okay), [], .answer .okay⟩
    let settings : RemoteSettings :=
      { RemoteSettings.defaults with username := some "me", password := some "pw", db := 2 }
    let o : Opener := ⟨State.initial "near" [script], "far", false, settings⟩
    let limit := Instant.start.later (.ofMillis 4000)
    (∃ answer, o.answer? limit 20 = some answer ∧ Opens answer.verdict) ∧
      o.Pinged (o.run limit 20) ∧
      ∃ enough, ∀ turns, enough ≤ turns → ∃ answer, o.answer? limit turns = some answer := by
  intro noNames script settings o limit
  obtain ⟨clean, ends⟩ := openings_fail_cleanly o (initial_calm _ _) limit
  have opened : ((o.answer? limit 20).any fun answer => decide (Opens answer.verdict)) = true := by
    decide +kernel
  cases told : o.answer? limit 20 with
  | none =>
      rw [told] at opened
      cases opened
  | some answer =>
      rw [told] at opened
      have opens : Opens answer.verdict := of_decide_eq_true opened
      exact ⟨⟨answer, rfl, opens⟩, (clean 20 answer told).pinged opens, ends (by decide)⟩

end ExpiringCache.Simulation
