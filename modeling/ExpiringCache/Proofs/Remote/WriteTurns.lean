import ExpiringCache.Proofs.Cache.Tidy
import ExpiringCache.Proofs.Remote.WriteMarks
import ExpiringCache.Proofs.Remote.Writers
import ExpiringCache.Proofs.Simulation.Frame
/-!
The turns of writers over whole runs. Whatever callers do, and whatever comes back from the server,
a networked cache has its writers send their commands one caller at a time, first come first served;
each end, of whatever kind, hands the turn to the next caller. Reads wait for nobody.
-/

namespace ExpiringCache

def Writes {ι : Type} (asked : ι → Option Request) (id : ι) : Bool :=
  (asked id).any Request.writes

namespace WriteMark

variable {ι : Type}

def ofProgress (id : ι) : Progress → List (WriteMark ι)
  | .send command => [.sent id command]
  | .finished _ => [.ended id]
  | .waiting | .compute => []

def told (asked : ι → Option Request) (id : ι) (progress : Progress) : List (WriteMark ι) :=
  if Writes asked id then ofProgress id progress else []

end WriteMark

namespace World

variable {ι : Type} [DecidableEq ι]

def marks (w : World ι) : Happening ι → List (WriteMark ι)
  | .begin id request =>
    (if request.writes then [.asked id] else []) ++
      WriteMark.told (w.asking id request).asked id (w.cache.start w.now id request).progress
  | .turn id => WriteMark.told w.asked id (w.cache.turn w.now id).progress
  | .reply id reply => WriteMark.told w.asked id (w.cache.reply id reply).progress
  | .computed id failure => WriteMark.told w.asked id (w.cache.computed w.now id failure).progress
  | .leave id => if Writes w.asked id then [.ended id] else []
  | .restock _ | .wait _ => []

def written (w : World ι) : List (Happening ι) → List (WriteMark ι)
  | [] => []
  | happening :: script => w.marks happening ++ (w.next happening).written script

end World

/-! ### The line and what is seen -/

namespace NetworkedCache

variable {ι : Type} [DecidableEq ι]

/-- What has been seen of writers agrees with the line that the cache keeps. -/
structure Recorded (asked : ι → Option Request) (c : NetworkedCache ι)
    (marks : List (WriteMark ι)) : Prop where
  inLine : c.WritersInLine asked
  line : c.writers = WriteMark.line marks
  turnwise : WriteMark.Turnwise marks
  posted : ∀ {id exchange purpose}, c.stage? id = some (.asked exchange purpose) →
    exchange.isWrite = true → ∃ command, .sent id command ∈ marks
  known : ∀ {mark}, mark ∈ marks → asked mark.caller ≠ none
  announced : ∀ {id}, Writes asked id = true → .asked id ∈ marks

variable {asked : ι → Option Request} {c : NetworkedCache ι} {marks : List (WriteMark ι)} {id : ι}

/-- What one writer does is seen, and agrees with what it does to the line. -/
theorem recorded_snoc (recorded : c.Recorded asked marks) {d : NetworkedCache ι}
    (inLine : d.WritersInLine asked) {mark : WriteMark ι} (fits : WriteMark.Fits marks mark)
    (line : d.writers = WriteMark.enter c.writers mark) (known : asked mark.caller ≠ none)
    (posted : ∀ {id exchange purpose}, d.stage? id = some (.asked exchange purpose) →
      exchange.isWrite = true →
        c.stage? id = some (.asked exchange purpose) ∨ ∃ command, mark = .sent id command) :
    d.Recorded asked (marks ++ [mark]) where
  inLine := inLine
  line := by rw [WriteMark.line_snoc, line, recorded.line]
  turnwise := WriteMark.turnwise_snoc recorded.turnwise fits
  posted := by
    intro id exchange purpose there writes
    rcases posted there writes with before | ⟨command, rfl⟩
    · obtain ⟨command, sent⟩ := recorded.posted before writes
      exact ⟨command, List.mem_append_left _ sent⟩
    · exact ⟨command, List.mem_append_right _ List.mem_cons_self⟩
  known := by
    intro other member
    rcases List.mem_append.mp member with before | last
    · exact recorded.known before
    · cases List.mem_singleton.mp last
      exact known
  announced := fun writes => List.mem_append_left _ (recorded.announced writes)

theorem recorded_aside (recorded : c.Recorded asked marks) {d : NetworkedCache ι}
    (inLine : d.WritersInLine asked) (line : d.writers = c.writers)
    (posted : ∀ {id exchange purpose}, d.stage? id = some (.asked exchange purpose) →
      exchange.isWrite = true → c.stage? id = some (.asked exchange purpose)) :
    d.Recorded asked marks where
  inLine := inLine
  line := line.trans recorded.line
  turnwise := recorded.turnwise
  posted := fun there writes => recorded.posted (posted there writes) writes
  known := recorded.known
  announced := recorded.announced

theorem leave_recorded (recorded : c.Recorded asked marks) (id : ι) :
    (c.leave id).Recorded asked (marks ++ if Writes asked id then [.ended id] else []) := by
  have inLine := leave_keeps_line recorded.inLine id
  have before : ∀ {j exchange purpose}, (c.leave id).stage? j = some (.asked exchange purpose) →
      c.stage? j = some (.asked exchange purpose) := by
    intro j exchange purpose there
    rw [stage_after_leave] at there
    split at there
    · cases there
    · exact there
  split
  · next writes =>
    have asks : .asked id ∈ marks := recorded.announced writes
    have known : asked id ≠ none := recorded.known asks
    exact recorded_snoc recorded inLine asks rfl known fun there _ => .inl (before there)
  · next reads =>
    have outside : id ∉ c.writers.callers := by
      intro member
      obtain ⟨_, request, mine, writes⟩ := (recorded.inLine.standing id).mp member
      rw [Writes, mine] at reads
      exact reads writes
    rw [List.append_nil]
    exact recorded_aside recorded inLine (Line.leave_of_stranger outside) fun there _ => before there

theorem move_recorded (recorded : c.Recorded asked marks) {progress : Progress}
    {d : NetworkedCache ι} (move : c.WriteMove asked id progress d) :
    d.Recorded asked (marks ++ WriteMark.told asked id progress) := by
  have inLine := move_keeps_line recorded.inLine move
  cases move with
  | idle =>
      have unseen : WriteMark.told asked id .waiting = [] := ite_self []
      rw [unseen, List.append_nil]
      exact recorded
  | @aside progress d request mine reads line others serves =>
      have unseen : WriteMark.told asked id progress = [] := by
        rw [WriteMark.told, Writes, mine, Option.any_some, reads, if_neg Bool.false_ne_true]
      rw [unseen, List.append_nil]
      apply recorded_aside recorded inLine line
      intro j exchange purpose there writes
      by_cases same : j = id
      · subst same
        cases reads.symm.trans (RequestStage.writes_of_asked (serves _ there) writes)
      · exact others j same ▸ there
  | @waits operation mine writes stands later =>
      have unseen : WriteMark.told asked id .waiting = [] := ite_self []
      rw [unseen, List.append_nil]
      apply recorded_aside recorded inLine rfl
      intro j exchange purpose there _
      rw [stage_after_note] at there
      split at there
      · cases there
      · exact there
  | @sends operation exchange mine writes stands first sent =>
      have seen : Writes asked id = true := by
        rw [Writes, mine]
        exact writes
      have known : asked id ≠ none := by
        rw [mine]
        exact Option.some_ne_none _
      rw [WriteMark.told, if_pos seen]
      have fits : WriteMark.Fits marks (.sent id (exchange.command c.ns)) := by
        rw [recorded.line] at first
        exact first
      apply recorded_snoc recorded inLine fits rfl known
      intro j other purpose there _
      rw [stage_after_note] at there
      split at there
      · next same =>
        subst same
        exact .inr ⟨_, rfl⟩
      · exact .inl there
  | @ends operation outcome mine writes stands =>
      have seen : Writes asked id = true := by
        rw [Writes, mine]
        exact writes
      have left := leave_recorded recorded id
      rw [if_pos seen] at left
      rw [WriteMark.told, if_pos seen]
      exact left

theorem asking_recorded (recorded : c.Recorded asked marks) (new : asked id = none)
    {request : Request} (reads : request.writes = false) :
    c.Recorded (fun j => if j = id then some request else asked j) marks where
  inLine := asking_keeps_line recorded.inLine new request
  line := recorded.line
  turnwise := recorded.turnwise
  posted := recorded.posted
  known := by
    intro mark member
    split
    · exact Option.some_ne_none _
    · exact recorded.known member
  announced := by
    intro j writes
    apply recorded.announced
    by_cases same : j = id
    · rw [Writes, if_pos same, Option.any_some, reads] at writes
      cases writes
    · rwa [Writes, if_neg same] at writes

theorem enlist_recorded (recorded : c.Recorded asked marks) (new : asked id = none)
    {operation : Operation} (writes : (Exchange.ofOperation operation).isWrite = true) :
    (c.enlist id (.ofOperation operation)).Recorded
      (fun j => if j = id then some (.operate operation) else asked j) (marks ++ [.asked id]) := by
  have absent : c.stage? id = none := by
    cases found : c.stage? id with
    | none => rfl
    | some stage =>
        obtain ⟨request, mine, _⟩ := recorded.inLine.serves found
        cases new.symm.trans mine
  constructor
  case inLine => exact enlist_keeps_line (asking_keeps_line recorded.inLine new _) (if_pos rfl) writes absent
  case line =>
    rw [WriteMark.line_snoc, ← recorded.line]
    rfl
  case turnwise =>
    apply WriteMark.turnwise_snoc recorded.turnwise
    intro mark member same
    exact recorded.known member (same ▸ new)
  case posted =>
    intro j exchange purpose there sends
    rw [stage_after_enlist] at there
    split at there
    · cases there
    · obtain ⟨command, sent⟩ := recorded.posted there sends
      exact ⟨command, List.mem_append_left _ sent⟩
  case known =>
    intro mark member
    split
    · exact Option.some_ne_none _
    · next other =>
      rcases List.mem_append.mp member with before | last
      · exact recorded.known before
      · cases List.mem_singleton.mp last
        exact absurd rfl other
  case announced =>
    intro j seen
    by_cases same : j = id
    · rw [same]
      exact List.mem_append_right _ List.mem_cons_self
    · rw [Writes, if_neg same] at seen
      exact List.mem_append_left _ (recorded.announced seen)

end NetworkedCache

/-! ### Runs -/

namespace World

variable {ι : Type} [DecidableEq ι] {w : World ι} {link : Nat} {patience : Duration}
  {c : NetworkedCache ι} {marks : List (WriteMark ι)}

/-- The world's cache is a networked one, and what has been seen of writers agrees with its line. -/
def Observed (link : Nat) (patience : Duration) (w : World ι) (marks : List (WriteMark ι)) : Prop :=
  ∃ c, w.cache = .networked link patience c ∧ c.Recorded w.asked marks

theorem observed_after {d : NetworkedCache ι} {id : ι} {reaction : Reaction (Cache ι)}
    (there : reaction.state = .networked link patience d) (recorded : d.Recorded w.asked marks) :
    (w.after id reaction).Observed link patience marks := by
  refine ⟨d, ?_, ?_⟩
  · rw [after_cache, there]
  · rw [after_asked]
    exact recorded

theorem next_observed (here : w.cache = .networked link patience c)
    (recorded : c.Recorded w.asked marks) (happening : Happening ι)
    (allowed : w.Allows happening) :
    (w.next happening).Observed link patience (marks ++ w.marks happening) := by
  cases happening with
  | begin id request =>
      cases writes : request.writes with
      | false =>
          have asking := NetworkedCache.asking_recorded recorded allowed writes
          have mine : (w.asking id request).asked id = some request := if_pos rfl
          have moved := NetworkedCache.move_recorded asking (c.start_aside mine writes)
          simp only [World.marks, next, writes, here]
          exact observed_after (w := w.asking id request) rfl moved
      | true =>
          cases request with
          | fill key reading => cases writes
          | operate operation =>
              have enlisted := NetworkedCache.enlist_recorded recorded allowed writes
              have moved := NetworkedCache.move_recorded enlisted
                (NetworkedCache.turn_moves_line enlisted.inLine id)
              rw [← NetworkedCache.start_of_write c id writes, List.append_assoc] at moved
              simp only [World.marks, next, writes, here, if_true]
              exact observed_after (w := w.asking id (.operate operation)) rfl moved
  | turn id =>
      have moved := NetworkedCache.move_recorded recorded
        (NetworkedCache.turn_moves_line recorded.inLine id)
      simp only [World.marks, next, here]
      exact observed_after rfl moved
  | reply id reply =>
      have moved := NetworkedCache.move_recorded recorded
        (NetworkedCache.reply_moves_line recorded.inLine id reply)
      simp only [World.marks, next, here]
      exact observed_after rfl moved
  | computed id failure =>
      have moved := NetworkedCache.move_recorded recorded
        (NetworkedCache.computed_moves_line recorded.inLine id failure)
      simp only [World.marks, next, here]
      exact observed_after (w := w.ended id) rfl moved
  | leave id => exact ⟨c.leave id, by rw [next, here]; rfl, NetworkedCache.leave_recorded recorded id⟩
  | restock store =>
      rw [World.marks, List.append_nil]
      exact ⟨c, by rw [next, here]; rfl, recorded⟩
  | wait length =>
      rw [World.marks, List.append_nil]
      exact ⟨c, here, recorded⟩

theorem run_observed {script : List (Happening ι)} (observed : w.Observed link patience marks)
    (lawful : w.Lawful script) :
    (w.run script).Observed link patience (marks ++ w.written script) := by
  induction script generalizing w marks with
  | nil =>
      rw [written, List.append_nil]
      exact observed
  | cons happening script ih =>
      obtain ⟨c, here, recorded⟩ := observed
      have next := next_observed here recorded happening lawful.1
      rw [written, ← List.append_assoc]
      exact ih next lawful.2

theorem networked_observed (link : Nat) (patience : Duration) (ns : Namespace) (now : Instant) :
    (networked link patience ns now : World ι).Observed link patience [] := by
  refine ⟨.opened ns, rfl, ⟨?_, rfl, WriteMark.turnwise_none, nofun, nofun, nofun⟩⟩
  refine ⟨List.nodup_nil, nofun, ?_, nofun⟩
  intro id
  refine ⟨nofun, ?_⟩
  rintro ⟨stands, _⟩
  cases stands

end World

/-! ### What callers are promised -/

theorem NetworkedCache.due_of_writer {ι : Type} [DecidableEq ι] {c : NetworkedCache ι} {id : ι}
    {exchange : Exchange} (stands : c.stage? id = some (.toWrite exchange))
    (first : c.writers.isFirst id = true) : id ∈ c.due :=
  List.mem_map_of_mem (List.mem_filter.mpr ⟨NetworkedCache.request_of_stage stands, first⟩)

namespace World

open Simulation (Caller)

/-- What holds after any run, given what has been seen of writers. The first of those that have
asked and not ended has sent a command, or is woken and sends it when it looks for its turn. Reads
wait for nobody. -/
structure TurnsKept (w : World Caller) (c : NetworkedCache Caller)
    (marks : List (WriteMark Caller)) : Prop where
  turns : WriteMark.TurnsTaken marks
  passedOn : ∀ {id}, (WriteMark.line marks).first? = some id →
    (∃ command, .sent id command ∈ marks) ∨
      ∃ operation, w.asked id = some (.operate operation) ∧
        (∀ (s : Simulation.State) (n : Nat), .task id.task ∈ (s.putCache n w.cache).queue) ∧
        (w.cache.turn w.now id).progress = .send ((Exchange.ofOperation operation).command c.ns)
  readsSent : ∀ {operation}, (Exchange.ofOperation operation).isWrite = false → ∀ id,
    (w.cache.start w.now id (.operate operation)).progress =
      .send ((Exchange.ofOperation operation).command c.ns)
  readsAnswered : ∀ {id operation}, w.asked id = some (.operate operation) →
    (Exchange.ofOperation operation).isWrite = false → (c.stage? id).isSome = true →
    ∀ reply, ∃ outcome, (w.cache.reply id reply).progress = .finished outcome

variable {w : World Caller} {link : Nat} {patience : Duration} {c : NetworkedCache Caller}
  {marks : List (WriteMark Caller)}

theorem turn_of_first (here : w.cache = .networked link patience c)
    (recorded : c.Recorded w.asked marks) {id : Caller}
    (first : (WriteMark.line marks).first? = some id) :
    (∃ command, .sent id command ∈ marks) ∨
      ∃ operation, w.asked id = some (.operate operation) ∧
        (∀ (s : Simulation.State) (n : Nat), .task id.task ∈ (s.putCache n w.cache).queue) ∧
        (w.cache.turn w.now id).progress = .send ((Exchange.ofOperation operation).command c.ns) := by
  rw [← recorded.line] at first
  have member : id ∈ c.writers.callers := List.mem_of_head? first
  obtain ⟨stands, request, mine, writes⟩ := (recorded.inLine.standing id).mp member
  obtain ⟨stage, found⟩ := Option.isSome_iff_exists.mp stands
  obtain ⟨other, same, serves⟩ := recorded.inLine.serves found
  cases mine.symm.trans same
  cases request with
  | fill key reading => cases writes
  | operate operation =>
      cases stage with
      | forKey key reading => exact serves.elim
      | computing key reading => exact serves.elim
      | asked exchange purpose =>
          cases purpose with
          | look key reading => exact serves.elim
          | lookAgain key reading => exact serves.elim
          | answer => exact .inl (recorded.posted found (serves.1.trans writes))
      | toWrite exchange =>
          obtain ⟨rfl, _⟩ := serves
          have turn : c.writers.isFirst id = true := beq_iff_eq.mpr first
          have due : id ∈ w.cache.due := by
            rw [here]
            exact NetworkedCache.due_of_writer found turn
          refine .inr ⟨operation, mine, fun s n => s.put_cache_wakes_due n due, ?_⟩
          rw [here]
          change (c.turn id).progress = _
          rw [NetworkedCache.turn_of_writer found, NetworkedCache.write, if_pos turn]
          rfl

theorem turns_kept (here : w.cache = .networked link patience c)
    (recorded : c.Recorded w.asked marks) : w.TurnsKept c marks where
  turns := WriteMark.turns_of_turnwise recorded.turnwise
  passedOn := turn_of_first here recorded
  readsSent := by
    intro operation reads id
    rw [here]
    change (c.start id (.operate operation)).progress = _
    simp only [NetworkedCache.start, reads, Bool.false_eq_true, if_false]
    rfl
  readsAnswered := by
    intro id operation mine reads stands reply
    obtain ⟨stage, found⟩ := Option.isSome_iff_exists.mp stands
    obtain ⟨request, same, serves⟩ := recorded.inLine.serves found
    cases mine.symm.trans same
    cases stage with
    | forKey key reading => exact serves.elim
    | computing key reading => exact serves.elim
    | toWrite exchange =>
        obtain ⟨rfl, writes⟩ := serves
        cases reads.symm.trans writes
    | asked exchange purpose =>
        cases purpose with
        | look key reading => exact serves.elim
        | lookAgain key reading => exact serves.elim
        | answer =>
            have read : exchange.isWrite = false := serves.1.trans reads
            rw [here]
            change ∃ outcome, (c.reply id reply).progress = .finished outcome
            unfold NetworkedCache.reply
            rw [found]
            cases resumed : exchange.resume c.ns reply with
            | finished outcome events => exact ⟨outcome, by simp only [resumed]; rfl⟩
            | again next => cases read.symm.trans (Exchange.writes_of_again resumed).1

/-- Whatever callers of a networked cache do and whatever comes back from the server, writers take
turns in the order in which they have asked, none is left behind, and reads wait for nobody. -/
theorem writers_take_turns (link : Nat) (patience : Duration) (ns : Namespace) (now : Instant)
    {script : List (Happening Caller)} (lawful : (networked link patience ns now).Lawful script) :
    let w := networked link patience ns now
    ∃ c, (w.run script).cache = .networked link patience c ∧
      (w.run script).TurnsKept c (w.written script) := by
  intro w
  obtain ⟨c, here, recorded⟩ := run_observed (networked_observed link patience ns now) lawful
  exact ⟨c, here, turns_kept here recorded⟩

/-- A caller clears the namespace while another one sets a key, and gives up before the keys of the
first page are deleted. -/
def clearingGivenUp : List (Happening Caller) :=
  [.begin ⟨0, 0⟩ (.operate .clear), .begin ⟨1, 1⟩ (.operate (.set "k" [7] .zero)),
    .reply ⟨0, 0⟩ (.ok (.array [.bulk [0x30], .array [.bulk [0x61]]])), .turn ⟨1, 1⟩,
    .leave ⟨0, 0⟩, .turn ⟨1, 1⟩]

theorem clearing_is_not_cut_into :
    let ns : Namespace := ⟨['a', 'p', 'p']⟩
    let w := networked 0 .zero ns .start
    w.Lawful clearingGivenUp ∧
      w.written clearingGivenUp =
        [.asked ⟨0, 0⟩, .sent ⟨0, 0⟩ (.scan ns 0), .asked ⟨1, 1⟩,
          .sent ⟨0, 0⟩ (.delete ["a"]), .ended ⟨0, 0⟩,
          .sent ⟨1, 1⟩ (.set ns "k" [7] .zero false)] ∧
      ∃ c, (w.run clearingGivenUp).cache = .networked 0 .zero c ∧
        (w.run clearingGivenUp).TurnsKept c (w.written clearingGivenUp) := by
  intro ns w
  have lawful : w.Lawful clearingGivenUp := by
    refine ⟨rfl, ?_, trivial, trivial, trivial, trivial, trivial⟩
    simp only [Allows, next, after_asked, asking]
    rfl
  exact ⟨lawful, by rfl, writers_take_turns 0 .zero ns .start lawful⟩

end World

end ExpiringCache
