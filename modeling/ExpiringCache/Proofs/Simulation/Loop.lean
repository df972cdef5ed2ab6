import ExpiringCache.Proofs.Simulation.Frame
import ExpiringCache.Proofs.Time
import ExpiringCache.Simulation.Run
/-!
The loop that runs a step, one turn at a time. A run of so many turns comes to a state that single
turns lead to, and a run that is given turns enough ends if its turns do.
-/

namespace ExpiringCache.Simulation.State

/-! ### Waking -/

theorem mem_of_mem_wake {s : State} {item other : Item} (there : item ∈ (s.wake other).queue) :
    item ∈ s.queue ∨ item = other := by
  unfold wake at there
  split at there
  · exact .inl there
  · rcases List.mem_append.mp there with before | new
    · exact .inl before
    · exact .inr (List.mem_singleton.mp new)

theorem mem_of_mem_wake_all {s : State} {item : Item} {items : List Item}
    (there : item ∈ (s.wakeAll items).queue) : item ∈ s.queue ∨ item ∈ items := by
  induction items generalizing s with
  | nil => exact .inl there
  | cons other items ih =>
      rcases ih (s := s.wake other) there with before | new
      · rcases mem_of_mem_wake before with before | rfl
        · exact .inl before
        · exact .inr List.mem_cons_self
      · exact .inr (List.mem_cons_of_mem _ new)

theorem wake_all_length (s : State) (items : List Item) :
    (s.wakeAll items).queue.length ≤ s.queue.length + items.length := by
  induction items generalizing s with
  | nil => exact Nat.le_refl _
  | cons item items ih =>
      have further := ih (s.wake item)
      have once : (s.wake item).queue.length ≤ s.queue.length + 1 := by
        unfold wake
        split
        · exact Nat.le_succ _
        · exact Nat.le_of_eq List.length_append
      change ((s.wake item).wakeAll items).queue.length ≤ _
      rw [List.length_cons]
      omega

theorem wake_all_count (s : State) {item : Item} {items : List Item} (other : item ∉ items) :
    (s.wakeAll items).queue.count item = s.queue.count item := by
  induction items generalizing s with
  | nil => rfl
  | cons first items ih =>
      rw [List.mem_cons, not_or] at other
      have once : (s.wake first).queue.count item = s.queue.count item := by
        unfold wake
        split
        · rfl
        · rw [List.count_append, List.count_singleton, if_neg, Nat.add_zero]
          simpa using Ne.symm other.1
      exact (ih (s.wake first) other.2).trans once

/-! ### Timers -/

def sooner (first : Option Instant) (timer : Instant × Item) : Option Instant :=
  match first with
  | none => some timer.1
  | some first => some (if timer.1.before first then timer.1 else first)

theorem next_timer_eq (s : State) : s.nextTimer = s.timers.foldl sooner none := rfl

theorem sooner_spec (first : Option Instant) (timer : Instant × Item) :
    ∃ t, sooner first timer = some t ∧ t.toNanos ≤ timer.1.toNanos ∧
      (∀ f, first = some f → t.toNanos ≤ f.toNanos) ∧ (t = timer.1 ∨ first = some t) := by
  cases first with
  | none =>
      refine ⟨timer.1, rfl, Nat.le_refl _, ?_, .inl rfl⟩
      intro f same
      cases same
  | some f =>
      by_cases order : timer.1.before f
      · refine ⟨timer.1, by simp [sooner, order], Nat.le_refl _, ?_, .inl rfl⟩
        rintro _ ⟨rfl⟩
        exact Nat.le_of_lt ((Instant.before_iff_nanos _ _).mp order)
      · refine ⟨f, by simp [sooner, order], ?_, ?_, .inr rfl⟩
        · exact Nat.le_of_not_lt (mt (Instant.before_iff_nanos _ _).mpr order)
        · rintro _ ⟨rfl⟩
          exact Nat.le_refl _

/-- What is left at the end stands among the timers or was there before, and comes after none. -/
theorem fold_sooner_spec (first : Option Instant) (timers : List (Instant × Item)) :
    (∀ f, first = some f → ∃ t, timers.foldl sooner first = some t ∧ t.toNanos ≤ f.toNanos) ∧
      (∀ timer ∈ timers, ∃ t, timers.foldl sooner first = some t ∧
        t.toNanos ≤ timer.1.toNanos) ∧
      ∀ t, timers.foldl sooner first = some t →
        first = some t ∨ ∃ item, (t, item) ∈ timers := by
  induction timers generalizing first with
  | nil => exact ⟨fun f same => ⟨f, same, Nat.le_refl _⟩, List.forall_mem_nil _,
      fun t same => .inl same⟩
  | cons timer timers ih =>
      obtain ⟨u, chosen, notAfter, before, origin⟩ := sooner_spec first timer
      obtain ⟨kept, earliest, source⟩ := ih (sooner first timer)
      obtain ⟨t, last, order⟩ := kept u chosen
      refine ⟨?_, ?_, ?_⟩
      · intro f same
        exact ⟨t, last, Nat.le_trans order (before f same)⟩
      · intro other member
        rcases List.mem_cons.mp member with rfl | later
        · exact ⟨t, last, Nat.le_trans order notAfter⟩
        · exact earliest other later
      · intro v same
        rcases source v same with mine | ⟨item, member⟩
        · rw [chosen, Option.some.injEq] at mine
          subst mine
          rcases origin with rfl | old
          · exact .inr ⟨timer.2, List.mem_cons_self⟩
          · exact .inl old
        · exact .inr ⟨item, List.mem_cons_of_mem _ member⟩

theorem next_timer_le {s : State} {timer : Instant × Item} (member : timer ∈ s.timers) :
    ∃ t, s.nextTimer = some t ∧ t.toNanos ≤ timer.1.toNanos := by
  rw [next_timer_eq]
  exact (fold_sooner_spec none s.timers).2.1 timer member

theorem next_timer_mem {s : State} {t : Instant} (next : s.nextTimer = some t) :
    ∃ item, (t, item) ∈ s.timers := by
  rw [next_timer_eq] at next
  exact ((fold_sooner_spec none s.timers).2.2 t next).resolve_left nofun

theorem timers_of_now (s : State) (now : Instant) : ({ s with now } : State).timers = s.timers :=
  rfl

/-- When a timer strikes, the clock moves, and what was to go on by then stands in the queue. -/
theorem strike_eq (s : State) (t : Instant) :
    ∃ queue, s.strike t = { s with now := s.now.waitFor t, queue } ∧
      (∀ timer ∈ s.timers, timer.1.reached (s.now.waitFor t) = true → timer.2 ∈ queue) ∧
      ∀ item ∈ queue, item ∈ s.queue ∨ ∃ timer ∈ s.timers, timer.2 = item := by
  let moved : State := { s with now := s.now.waitFor t }
  let fired := (moved.timers.filter fun timer => timer.1.reached moved.now).mergeSort
    fun a b => !b.1.before a.1
  have struck : s.strike t = moved.wakeAll (fired.map (·.2)) := rfl
  have firedIff : ∀ timer, timer ∈ fired ↔
      timer ∈ s.timers ∧ timer.1.reached (s.now.waitFor t) = true := by
    intro timer
    rw [List.mem_mergeSort, List.mem_filter, timers_of_now]
  obtain ⟨queue, woken⟩ := wake_all_eq moved (fired.map (·.2))
  refine ⟨queue, struck.trans woken, ?_, ?_⟩
  · intro timer member reached
    have there : timer.2 ∈ (moved.wakeAll (fired.map (·.2))).queue :=
      wake_all_wakes moved (List.mem_map_of_mem ((firedIff timer).mpr ⟨member, reached⟩))
    rw [woken] at there
    exact there
  · intro item member
    have there : item ∈ (moved.wakeAll (fired.map (·.2))).queue := by
      rw [woken]
      exact member
    rcases mem_of_mem_wake_all there with before | new
    · exact .inl before
    · obtain ⟨timer, mine, rfl⟩ := List.mem_map.mp new
      exact .inr ⟨timer, ((firedIff timer).mp mine).1, rfl⟩

/-! ### Turns -/

/-- One turn of the loop that runs until the task `main` has ended: from the task that can go on, if
there is one, and the state, to the same after the turn. -/
inductive LoopTurn (main : Nat) (limit : Instant) :
    Option Nat × State → Option Nat × State → Prop where
  | goesOn {n s s'} (moved : s.moveTask n = (true, s')) :
      LoopTurn main limit (some n, s) (some n, s')
  | stops {n s s'} (moved : s.moveTask n = (false, s')) :
      LoopTurn main limit (some n, s) (none, s'.breakOffInTime n)
  | takesTask {n s s'} (runs : s.hasEnded main = false)
      (taken : s.takeItem main = (some (.task n), s')) : LoopTurn main limit (none, s) (some n, s')
  | worksLink {n s s'} (runs : s.hasEnded main = false)
      (taken : s.takeItem main = (some (.link n), s')) :
      LoopTurn main limit (none, s) (none, s'.workLink n)
  | worksSweeper {n s s'} (runs : s.hasEnded main = false)
      (taken : s.takeItem main = (some (.sweeper n), s')) :
      LoopTurn main limit (none, s) (none, s'.workSweeper n)
  | strikes {s t} (runs : s.hasEnded main = false) (taken : s.takeItem main = (none, s))
      (timer : s.nextTimer = some t) (inTime : limit.before t = false) :
      LoopTurn main limit (none, s) (none, s.strike t)

/-- The task that a run is about is taken out of the queue after all others. -/
theorem take_item_eq (s : State) (main : Nat) :
    s.queue = [] ∧ s.takeItem main = (none, s) ∨
      ∃ item ∈ s.queue, s.takeItem main = (some item, { s with queue := s.queue.erase item }) ∧
        (item = .task main → ∀ other ∈ s.queue, other = .task main) := by
  unfold takeItem
  cases other : s.queue.find? (· != .task main) with
  | some item =>
      right
      refine ⟨item, List.mem_of_find?_eq_some other, rfl, ?_⟩
      rintro rfl
      have differs := List.find?_some other
      rw [bne_self_eq_false] at differs
      cases differs
  | none =>
      have all : ∀ item ∈ s.queue, item = .task main := by
        intro item member
        have same := List.find?_eq_none.mp other item member
        simpa using same
      cases queue : s.queue with
      | nil => exact .inl ⟨rfl, rfl⟩
      | cons first rest =>
          right
          rw [queue] at all
          exact ⟨first, List.mem_cons_self, rfl, fun _ => all⟩

theorem take_item_none {s s' : State} {main : Nat} (taken : s.takeItem main = (none, s')) :
    s.queue = [] ∧ s' = s := by
  rcases s.take_item_eq main with ⟨quiet, here⟩ | ⟨item, _, next, _⟩
  · cases here.symm.trans taken
    exact ⟨quiet, rfl⟩
  · cases next.symm.trans taken

variable {main : Nat} {limit : Instant} {p q : Option Nat × State}

theorem turn_of_goes_on {n : Nat} {s s' : State} (moved : s.moveTask n = (true, s'))
    (turn : LoopTurn main limit (some n, s) q) : q = (some n, s') := by
  cases turn with
  | goesOn moved' =>
      cases moved.symm.trans moved'
      rfl
  | stops moved' => cases moved.symm.trans moved'

theorem turn_of_stops {n : Nat} {s s' : State} (moved : s.moveTask n = (false, s'))
    (turn : LoopTurn main limit (some n, s) q) : q = (none, s'.breakOffInTime n) := by
  cases turn with
  | goesOn moved' => cases moved.symm.trans moved'
  | stops moved' =>
      cases moved.symm.trans moved'
      rfl

theorem turn_of_task {n : Nat} {s s' : State} (taken : s.takeItem main = (some (.task n), s'))
    (turn : LoopTurn main limit (none, s) q) : q = (some n, s') := by
  cases turn with
  | takesTask _ taken' =>
      cases taken.symm.trans taken'
      rfl
  | worksLink _ taken' | worksSweeper _ taken' | strikes _ taken' =>
      cases taken.symm.trans taken'

theorem turn_of_link {n : Nat} {s s' : State} (taken : s.takeItem main = (some (.link n), s'))
    (turn : LoopTurn main limit (none, s) q) : q = (none, s'.workLink n) := by
  cases turn with
  | worksLink _ taken' =>
      cases taken.symm.trans taken'
      rfl
  | takesTask _ taken' | worksSweeper _ taken' | strikes _ taken' =>
      cases taken.symm.trans taken'

theorem turn_of_none {s : State} (taken : s.takeItem main = (none, s))
    (turn : LoopTurn main limit (none, s) q) :
    ∃ t, s.nextTimer = some t ∧ q = (none, s.strike t) := by
  cases turn with
  | @strikes _ t _ _ timer => exact ⟨t, timer, rfl⟩
  | takesTask _ taken' | worksLink _ taken' | worksSweeper _ taken' =>
      cases taken.symm.trans taken'

theorem no_turn_of_ended {s : State} (ended : s.hasEnded main = true) :
    ¬ LoopTurn main limit (none, s) q := by
  intro turn
  cases turn with
  | takesTask runs | worksLink runs | worksSweeper runs | strikes runs =>
      cases ended.symm.trans runs

/-- A run with one turn more does what a run from the next turn does. -/
theorem run_until_turn (turn : LoopTurn main limit p q) (fuel : Nat) :
    runUntil main limit (fuel + 1) p.1 p.2 = runUntil main limit fuel q.1 q.2 := by
  cases turn with
  | goesOn moved => simp only [runUntil, moved, if_true]
  | stops moved => simp only [runUntil, moved, Bool.false_eq_true, if_false]
  | takesTask runs taken => simp only [runUntil, runs, taken, Bool.false_eq_true, if_false]
  | worksLink runs taken => simp only [runUntil, runs, taken, Bool.false_eq_true, if_false]
  | worksSweeper runs taken => simp only [runUntil, runs, taken, Bool.false_eq_true, if_false]
  | strikes runs taken timer inTime =>
      simp only [runUntil, runs, taken, timer, inTime, Bool.false_eq_true, if_false]

/-- Whether a state is one that turns lead to, but for the clock where nothing could go on before
the limit of time and the task had not ended. -/
def Reaches (main : Nat) (limit : Instant) (p : Option Nat × State) (last : State) : Prop :=
  ∃ running s, Relation.ReflTransGen (LoopTurn main limit) p (running, s) ∧
    (last = s ∨ s.hasEnded main = false ∧ s.queue = [] ∧
      last = { s with now := s.now.waitFor limit })

theorem reaches_of_turn {last : State} (turn : LoopTurn main limit p q)
    (reaches : Reaches main limit q last) : Reaches main limit p last := by
  obtain ⟨running, s, reached, ends⟩ := reaches
  exact ⟨running, s, .head turn reached, ends⟩

theorem run_until_reaches (main : Nat) (limit : Instant) (fuel : Nat) (running : Option Nat)
    (s : State) : Reaches main limit (running, s) (runUntil main limit fuel running s) := by
  induction fuel generalizing running s with
  | zero => exact ⟨running, s, .refl, .inl rfl⟩
  | succ fuel ih =>
      have further : ∀ q, LoopTurn main limit (running, s) q →
          Reaches main limit (running, s) (runUntil main limit (fuel + 1) running s) := by
        intro q turn
        rw [run_until_turn turn fuel]
        exact reaches_of_turn turn (ih q.1 q.2)
      -- The cases are those of a turn, and the two ways in which a run can have no next one.
      cases running with
      | some n =>
          cases moved : s.moveTask n with
          | mk on s' =>
              cases on with
              | true => exact further _ (.goesOn moved)
              | false => exact further _ (.stops moved)
      | none =>
          cases runs : s.hasEnded main with
          | true => exact ⟨none, s, .refl, .inl (by simp only [runUntil, runs, if_true])⟩
          | false =>
              cases taken : s.takeItem main with
              | mk item s' =>
                  cases item with
                  | some item =>
                      cases item with
                      | task n => exact further _ (.takesTask runs taken)
                      | link n => exact further _ (.worksLink runs taken)
                      | sweeper n => exact further _ (.worksSweeper runs taken)
                  | none =>
                      obtain ⟨quiet, same⟩ := take_item_none taken
                      subst same
                      have waits : runUntil main limit (fuel + 1) none s' =
                          { s' with now := s'.now.waitFor limit } → Reaches main limit (none, s')
                            (runUntil main limit (fuel + 1) none s') :=
                        fun given => ⟨none, s', .refl, .inr ⟨runs, quiet, given⟩⟩
                      cases timer : s'.nextTimer with
                      | none =>
                          apply waits
                          simp only [runUntil, runs, taken, timer, Bool.false_eq_true, if_false]
                      | some t =>
                          cases late : limit.before t with
                          | true =>
                              apply waits
                              simp only [runUntil, runs, taken, timer, late, Bool.false_eq_true,
                                if_false, if_true]
                          | false => exact further _ (.strikes runs taken timer late)

/-! ### Runs that end -/

def Ends (main : Nat) (limit : Instant) (p : Option Nat × State) : Prop :=
  ∃ enough, ∀ fuel, enough ≤ fuel → (runUntil main limit fuel p.1 p.2).hasEnded main = true

theorem ends_of_turn (turn : LoopTurn main limit p q) (ends : Ends main limit q) :
    Ends main limit p := by
  obtain ⟨enough, ended⟩ := ends
  refine ⟨enough + 1, ?_⟩
  intro fuel order
  cases fuel with
  | zero => omega
  | succ fuel =>
      rw [run_until_turn turn fuel]
      exact ended fuel (by omega)

theorem ends_of_ended {s : State} (ended : s.hasEnded main = true) :
    Ends main limit (none, s) := by
  refine ⟨0, ?_⟩
  intro fuel _
  cases fuel with
  | zero => exact ended
  | succ fuel =>
      simp only [runUntil, ended, if_true]

/-! ### Runs of one step -/

def solo (s : State) (step : Step) : State :=
  { s with
    next := s.next + 1
    tasks := [⟨s.next, s.now, [Level.ofSteps [step]], none, none⟩]
    attempts := [], sent := [], events := [] }

def soloRun (s : State) (step : Step) (limit : Instant) (turns : Nat) : State :=
  runUntil s.next limit turns (some s.next) (s.solo step)

end ExpiringCache.Simulation.State
