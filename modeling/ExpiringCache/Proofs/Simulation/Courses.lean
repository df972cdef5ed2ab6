import ExpiringCache.Proofs.Simulation.Deeds
import ExpiringCache.Proofs.Simulation.Loop
/-!
Courses of a program. Tasks take steps of whatever script, in whatever order, servers work, the
clock moves when nothing can go on, and sweepers run when they are woken. A course keeps every run
of a sweeper, with the states before and after it. What becomes of the steps of a script is such a
course.
-/

namespace ExpiringCache.Simulation

structure Pass where
  sweeper : Nat
  before : State
  after : State

namespace State

/-- What may happen while no sweeper runs. -/
inductive Turn : State → State → Prop where
  | moves {s} (n : Nat) : Turn s (s.moveTask n).2
  | breaksOff {s} (n : Nat) : Turn s (s.breakOff n)
  | works {s} (link : Nat) : Turn s (s.workLink link)
  | takes {s item} (other : ∀ n, item = .sweeper n → s.sweepers.length ≤ n) :
      Turn s { s with queue := s.queue.erase item }
  | strikes {s t} (quiet : s.queue = []) (timer : s.nextTimer = some t) : Turn s (s.strike t)
  | waits {s} (quiet : s.queue = []) (limit : Instant) :
      Turn s { s with now := s.now.waitFor limit }
  | begins {s} (step : Step) : Turn s (s.solo step)
  | ends {s queue} (sweepers : ∀ {n}, .sweeper n ∈ s.queue → .sweeper n ∈ queue) :
      Turn s { s with tasks := [], queue }

def called (s : State) (n : Nat) : State := { s with queue := s.queue.erase (.sweeper n) }

def pass (s : State) (n : Nat) : Pass := ⟨n, s.called n, (s.called n).workSweeper n⟩

/-- A course from one state to another, with the runs of sweepers in it, the first one first. -/
inductive Course (start : State) : List Pass → State → Prop where
  | here : Course start [] start
  | turn {h s s'} (course : Course start h s) (turn : Turn s s') : Course start h s'
  | sweeper {h s n} (course : Course start h s) (woken : .sweeper n ∈ s.queue)
      (there : n < s.sweepers.length) : Course start (h ++ [s.pass n]) (s.pass n).after

/-! ### Turns -/

variable {s s' : State}

/-- What may happen while no sweeper runs leads to a state that follows. -/
theorem follows_turn (settled : s.Settled) (turn : Turn s s') : s.Follows s' := by
  have follows := follows_self settled
  cases turn with
  | moves n => exact follows_move_task follows n
  | breaksOff n => exact follows_break_off follows n
  | works link => exact follows_aside follows (s.work_link_aside link)
  | @takes item other =>
      exact { follows with
        roused := by
          intro n inside there
          have differs : (.sweeper n : Item) ≠ item := by
            rintro rfl
            have outside := other n rfl
            omega
          exact (List.mem_erase_of_ne differs).mpr there }
  | @strikes t quiet timer =>
      obtain ⟨queue, struck, _, _⟩ := s.strike_eq t
      rw [struck]
      exact { follows_now follows (s.now.nanos_le_later _) with
        roused := by
          intro n _ there
          rw [quiet] at there
          cases there }
  | waits quiet limit => exact follows_now follows (s.now.nanos_le_later _)
  | begins step =>
      have fit : s.Fits ⟨s.next, s.now, [Level.ofSteps [step]], none, none⟩ := by
        refine ⟨nofun, ?_⟩
        intro level inside
        rw [List.mem_singleton.mp inside]
        exact draws_nothing rfl rfl
      exact { follows with
        tasks := by
          intro task member
          rw [List.mem_singleton.mp member]
          exact fit }
  | ends sweepers =>
      exact { follows with
        tasks := List.forall_mem_nil _
        roused := fun _ there => sweepers there }

/-! ### Runs of scripts are courses -/

section

variable {start : State}

def Reached (start s : State) : Prop := ∃ h, Course start h s

theorem reached_turn (reached : Reached start s) (turn : Turn s s') : Reached start s' := by
  obtain ⟨h, course⟩ := reached
  exact ⟨h, course.turn turn⟩

theorem reached_break_off_in_time (reached : Reached start s) (n : Nat) :
    Reached start (s.breakOffInTime n) := by
  unfold breakOffInTime
  split
  · split
    · exact reached_turn reached (.breaksOff n)
    · exact reached
  · exact reached

/-- A sweeper that stands next in the queue runs, if there is one of that number. -/
theorem reached_sweeper (reached : Reached start s) {n : Nat} (woken : .sweeper n ∈ s.queue) :
    Reached start ((s.called n).workSweeper n) := by
  by_cases there : n < s.sweepers.length
  · obtain ⟨h, course⟩ := reached
    exact ⟨_, course.sweeper woken there⟩
  · have none : (s.called n).sweepers[n]? = none :=
      List.getElem?_eq_none (Nat.le_of_not_lt there)
    have idle : (s.called n).workSweeper n = s.called n := by
      simp only [workSweeper, none]
    rw [idle]
    refine reached_turn reached (.takes ?_)
    rintro m ⟨rfl⟩
    exact Nat.le_of_not_lt there

/-- One turn of the loop is a turn of the course, or a run of a sweeper. -/
theorem reached_loop_turn {main : Nat} {limit : Instant} {p q : Option Nat × State}
    (reached : Reached start p.2) (turn : LoopTurn main limit p q) : Reached start q.2 := by
  have takes : ∀ {s s' : State} {item}, s.takeItem main = (some item, s') →
      item ∈ s.queue ∧ s' = { s with queue := s.queue.erase item } := by
    intro s s' item taken
    rcases s.take_item_eq main with ⟨_, empty⟩ | ⟨first, member, next, _⟩
    · cases empty.symm.trans taken
    · cases next.symm.trans taken
      exact ⟨member, rfl⟩
  cases turn with
  | @goesOn n s s' moved =>
      have onward := reached_turn reached (.moves n)
      rw [moved] at onward
      exact onward
  | @stops n s s' moved =>
      have onward := reached_turn reached (.moves n)
      rw [moved] at onward
      exact reached_break_off_in_time onward n
  | takesTask _ taken =>
      obtain ⟨_, rfl⟩ := takes taken
      exact reached_turn reached (.takes nofun)
  | @worksLink n s s' _ taken =>
      obtain ⟨_, rfl⟩ := takes taken
      refine reached_turn ?_ (.works n)
      exact reached_turn reached (.takes nofun)
  | worksSweeper _ taken =>
      obtain ⟨member, rfl⟩ := takes taken
      exact reached_sweeper reached member
  | strikes _ taken timer _ =>
      exact reached_turn reached (.strikes (take_item_none taken).1 timer)

theorem reached_run_until (reached : Reached start s) (main : Nat) (limit : Instant) (fuel : Nat)
    (running : Option Nat) : Reached start (runUntil main limit fuel running s) := by
  obtain ⟨running', s', turns, last⟩ := run_until_reaches main limit fuel running s
  have onward : Reached start s' := by
    clear last
    generalize ended : (running', s') = p at turns
    obtain rfl : s' = p.2 := by rw [← ended]
    clear ended
    induction turns with
    | refl => exact reached
    | tail _ turn ih => exact reached_loop_turn ih turn
  rcases last with same | ⟨_, quiet, same⟩
  · rw [same]
    exact onward
  · rw [same]
    exact reached_turn onward (.waits quiet limit)

theorem reached_give_up (reached : Reached start s) (main : Nat) :
    Reached start (s.giveUp main) := by
  have all : ∀ (tasks : List Nat) {s}, Reached start s →
      Reached start (tasks.foldl breakOff s) := by
    intro tasks
    induction tasks with
    | nil => exact fun reached => reached
    | cons n tasks ih => exact fun reached => ih (reached_turn reached (.breaksOff n))
  exact reached_turn (all _ reached) (.breaksOff main)

theorem reached_run_step (reached : Reached start s) (step : Step) :
    Reached start (s.runStep step).2 := by
  -- The loop is taken for any function that keeps to courses, and the step for any function that is
  -- made with it; otherwise the turns of the loop would be computed.
  obtain ⟨loop, same, keeps⟩ : ∃ loop, runUntil = loop ∧ ∀ {s}, Reached start s →
      ∀ main limit fuel running, Reached start (loop main limit fuel running s) :=
    ⟨runUntil, rfl, reached_run_until⟩
  have ran := keeps (reached_turn reached (.begins step)) s.next (s.now.timer patience)
    (fuelFor (s.solo step) step) (some s.next)
  obtain ⟨run, whole⟩ : ∃ run, run = runStep := ⟨runStep, rfl⟩
  rw [← whole]
  delta runStep at whole
  rw [same] at whole
  rw [whole]
  simp only [fresh]
  split
  · exact reached_turn ran (.ends fun there => List.mem_filter.mpr ⟨there, rfl⟩)
  · exact reached_turn (reached_give_up ran s.next)
      (.ends fun there => List.mem_filter.mpr ⟨there, rfl⟩)

theorem every_script_takes_a_course (start : State) (steps : List Step) :
    ∃ h, Course start h (steps.foldl (fun s step => (s.runStep step).2) start) := by
  have all : ∀ (steps : List Step) {s}, Reached start s →
      Reached start (steps.foldl (fun s step => (s.runStep step).2) s) := by
    intro steps
    induction steps with
    | nil => exact fun reached => reached
    | cons step steps ih => exact fun reached => ih (reached_run_step reached step)
  exact all steps ⟨[], .here⟩

end

end State

end ExpiringCache.Simulation
