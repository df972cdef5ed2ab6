import ExpiringCache.Proofs.Cache.Attendance
import ExpiringCache.Proofs.Cache.Moves
import ExpiringCache.Proofs.Cache.Program
import ExpiringCache.Proofs.Remote.PlainServer
/-!
Both kinds of cache alike. A client that does one thing after another is told the same by an
embedded cache, by a networked cache whose server keeps a map, and by a map with deadlines. What has
to be shown of a kind of cache is that it follows the map in each single thing that a client does;
that it follows the map through whole runs, computations inside computations included, is shown once
for both.
-/

namespace ExpiringCache

open MapServer

variable {σ : Type}

/-- A cache follows a map with deadlines: whenever the two are in line, whatever a client does next
comes to the same with both and leaves them in line. -/
structure Follows (serve : Service σ) (inLine : List Errand → Desk σ → TtlMap → Prop) : Prop where
  wait : ∀ {errands d m}, inLine errands d m → ∀ length,
    inLine errands { d with now := d.now.later length } (m.advance length.toNanos)
  call : ∀ {errands d m}, inLine errands d m → ∀ {asked : HandleCall}, asked.Common →
    ∀ {operation}, asked.operation = .ok operation →
    ∃ d', d.ask serve (.operate operation) = some (.finished (m.call asked).1, d') ∧
      inLine errands d' (m.call asked).2
  found : ∀ {errands d m}, inLine errands d m → ∀ {key reading}, reading ≠ .whole →
    (m.held key).isSome → ∃ d',
      d.ask serve (.fill key reading) = some (.finished (m.call (.get key reading)).1, d') ∧
        inLine errands d' m
  missing : ∀ {errands d m}, inLine errands d m → ∀ {key}, key ∉ errands.map (·.key) →
    m.held key = none → ∀ reading, ∃ d',
      d.ask serve (.fill key reading) = some (.compute, d') ∧
        inLine (⟨d.next, key, reading⟩ :: errands) d' m
  concludes : ∀ {errand errands d m}, inLine (errand :: errands) d m → errand.reading ≠ .whole →
    ∀ failure, ∃ d', d.conclude serve errand.id failure =
        some (.finished (Program.ending m errand.key errand.reading failure), d') ∧
      inLine errands d' m

/-- What follows a map in every single thing follows it in every run. -/
theorem run_follows {serve : Service σ} {inLine : List Errand → Desk σ → TtlMap → Prop}
    (follows : Follows serve inLine) (program : Program) :
    ∀ {errands d m}, inLine errands d m → program.Lawful (errands.map (·.key)) →
      ∃ d', program.run serve d = some ((program.meaning m).1, d') ∧
        inLine errands d' (program.meaning m).2 := by
  induction program with
  | done failure =>
      intro errands d m line _
      rw [Program.run_of_done, Program.meaning_of_done]
      exact ⟨d, rfl, line⟩
  | wait length next ih =>
      intro errands d m line lawful
      rw [Program.run_of_wait, Program.meaning_of_wait]
      exact ih (follows.wait line length) lawful
  | call asked next ih =>
      intro errands d m line lawful
      rw [Program.meaning_of_call]
      cases asks : asked.operation with
      | error e =>
          rw [m.call_without_encoding asks]
          obtain ⟨d', ran, line⟩ := ih (.error e) line (lawful.2 (.error e))
          exact ⟨d', Program.run_of_refused asks ran, line⟩
      | ok operation =>
          obtain ⟨d₁, told, line⟩ := follows.call line lawful.1 asks
          obtain ⟨d', ran, line⟩ := ih (m.call asked).1 line (lawful.2 (m.call asked).1)
          exact ⟨d', Program.run_of_call asks told ran, line⟩
  | remember key reading body next ihBody ihNext =>
      intro errands d m line lawful
      obtain ⟨closed, common, lawfulBody, lawfulNext⟩ := lawful
      cases held : m.held key with
      | some value =>
          have there : (m.held key).isSome = true := by rw [held]; rfl
          rw [Program.meaning_of_found there]
          obtain ⟨d₁, told, line⟩ := follows.found line common there
          obtain ⟨d', ran, line⟩ := ihNext (m.call (.get key reading)).1 line (lawfulNext _)
          exact ⟨d', Program.run_of_found told ran, line⟩
      | none =>
          obtain ⟨d₁, told, line⟩ := follows.missing line closed held reading
          obtain ⟨d₂, computed, line⟩ := ihBody line lawfulBody
          obtain ⟨d₃, concluded, line⟩ :=
            follows.concludes line common (body.meaning m).1.failure
          generalize ends : Program.ending (body.meaning m).2 key reading
            (body.meaning m).1.failure = outcome at concluded
          rw [Program.meaning_of_missing held reading body next ends]
          obtain ⟨d', ran, line⟩ := ihNext outcome line (lawfulNext outcome)
          exact ⟨d', Program.run_of_computed told computed concluded ran, line⟩

/-! ### Embedded caches -/

namespace EmbeddedCache

variable {store : Store} {now : Instant} {m : TtlMap}

theorem fetch_matches (shown : store.Shows now m) (key : String) (reading : Reading) :
    (store.fetch now key reading).1 = (m.call (.get key reading)).1 := by
  have asks : (HandleCall.get key reading).operation = .ok (.get key reading) := rfl
  exact (TtlMap.call_matches_perform shown asks).1.symm

def InLine (errands : List Errand) (d : Desk σ) (m : TtlMap) : Prop :=
  ∃ c : EmbeddedCache Nat, d.cache = .embedded c ∧ c.store.Shows d.now m ∧
    c.books.Attend errands d.next

theorem fetch_in_line {c : EmbeddedCache Nat} {errands : List Errand} {d : Desk σ}
    (shown : c.store.Shows d.now m) (attend : c.books.Attend errands d.next) (serve : Service σ)
    (id : Nat) (key : String) (reading : Reading) (events : List Event) :
    ∃ d', d.follow serve id ((c.fetch d.now key reading events).within .embedded) =
        some (.finished (m.call (.get key reading)).1, d') ∧
      InLine errands d' m := by
  rw [← fetch_matches shown]
  refine ⟨_, d.follow_of_outcome serve id events _ _, ?_⟩
  exact ⟨_, rfl, TtlMap.shown_after_read shown key reading, attend⟩

theorem follows (serve : Service σ) : Follows serve (InLine (σ := σ)) where
  wait := by
    rintro errands d m ⟨c, kind, shown, attend⟩ length
    exact ⟨c, kind, TtlMap.shown_after_jump shown length, attend⟩
  call := by
    rintro errands ⟨_, server, now, next⟩ m ⟨c, rfl, shown, attend⟩ asked _ operation asks
    obtain ⟨same, after⟩ := TtlMap.call_matches_perform shown asks
    rw [same]
    refine ⟨_, Desk.follow_of_outcome serve _ next _ _ _, ?_⟩
    exact ⟨_, rfl, after, Books.attend_later attend⟩
  found := by
    rintro errands ⟨_, server, now, next⟩ m ⟨c, rfl, shown, attend⟩ key reading _ held
    rw [TtlMap.is_held_iff_live shown] at held
    have starts : c.start now next (.fill key reading) = c.fetch now key reading [] := by
      simp only [start, held, if_true]
    simp only [Desk.ask, Cache.start, starts]
    exact fetch_in_line (d := ⟨.embedded c, server, now, next + 1⟩) shown
      (Books.attend_later attend) serve next key reading []
  missing := by
    rintro errands ⟨_, server, now, next⟩ m ⟨c, rfl, shown, attend⟩ key closed held reading
    have absent : c.store.isLive now key = false := by
      rw [← TtlMap.is_held_iff_live shown, held]
      rfl
    have first : (c.flights.join next key).1 = .held := Books.joins_first attend closed
    have starts : c.start now next (.fill key reading) = ⟨.compute, [.computing key],
        { c with flights := (c.flights.join next key).2 }.note ⟨next, key, reading, .computing⟩⟩ := by
      simp only [start, absent, Bool.false_eq_true, if_false, first, told, arrive]
    simp only [Desk.ask, Cache.start, starts]
    refine ⟨_, Desk.follow_of_compute serve _ next _ _, ?_⟩
    refine ⟨_, rfl, shown, ?_⟩
    rw [note_books]
    exact Books.attend_of_begin attend closed reading
  concludes := by
    rintro ⟨id, key, reading⟩ errands ⟨_, server, now, next⟩ m ⟨c, rfl, shown, attend⟩ _ failure
    have stands := attend.computing _ List.mem_cons_self
    have after : (c.leave id).books.Attend errands next := by
      rw [leave_books]
      exact Books.attend_of_end attend
    simp only [Desk.conclude, Cache.computed, c.computed_of_running now id stands]
    cases failure with
    | some cause =>
        refine ⟨_, Desk.follow_of_outcome serve _ id _ _ _, ?_⟩
        exact ⟨_, rfl, shown, after⟩
    | none =>
        have shown : (c.leave id).store.Shows now m := shown
        exact fetch_in_line shown after serve id key reading []

end EmbeddedCache

/-! ### Networked caches -/

namespace NetworkedCache

variable {serve : Service σ} {shows : Showing σ} {ns : Namespace} {link : Nat}
  {patience : Duration} {m : TtlMap}

/-- The server's keys show what the map holds, nobody is in line to write, and the books show the
client's errands. -/
def InLine (shows : Showing σ) (ns : Namespace) (link : Nat) (patience : Duration)
    (errands : List Errand) (d : Desk σ) (m : TtlMap) : Prop :=
  ∃ c : NetworkedCache Nat, d.cache = .networked link patience c ∧ c.ns = ns ∧
    c.writers = .empty ∧ ns.Holds shows d.server d.now m ∧ c.books.Attend errands d.next

/-- A caller whose exchange with the server ends goes on with its outcome. -/
theorem follow_of_answered {c : NetworkedCache Nat} {exchange : Exchange} {s s' : σ}
    {now : Instant} {outcome : Outcome} {events : List Event}
    (answered : exchange.Answered serve now c.ns s outcome events s') (link : Nat)
    (patience : Duration) (cache : Cache Nat) (next id : Nat) (purpose : Purpose)
    (before : List Event) :
    Desk.follow serve ⟨cache, s, now, next⟩ id
        ((c.send id exchange purpose before).within (.networked link patience)) =
      Desk.follow serve ⟨cache, s', now, next⟩ id
        ((c.settle id outcome events purpose).within (.networked link patience)) := by
  -- One round brings the caller's reply to where it has sent the command from.
  have round : ∀ {exchange : Exchange} {s s₁ : σ} {reply : Reply},
      serve s now (exchange.command c.ns) = (reply, s₁) → ∀ before reaction,
      (c.send id exchange purpose before).state.reply id (.ok reply) = reaction →
      Desk.follow serve ⟨cache, s, now, next⟩ id
          ((c.send id exchange purpose before).within (.networked link patience)) =
        Desk.follow serve ⟨cache, s₁, now, next⟩ id (reaction.within (.networked link patience)) := by
    rintro exchange s s₁ reply answer before reaction rfl
    exact Desk.follow_of_send serve ⟨cache, s, now, next⟩ id before _ answer
  induction answered generalizing before with
  | finished answer resumes =>
      apply round answer
      rw [reply_after_send, resumes]
  | again answer resumes rest ih =>
      rw [← ih []]
      apply round answer
      rw [reply_after_send, resumes]

variable {c : NetworkedCache Nat} {errands : List Errand} {s : σ} {now : Instant} {next : Nat}

/-- Who finds nobody in line to write turns to the server at once, whatever it asks for. -/
theorem start_of_alone (alone : c.writers = .empty) (id : Nat) (operation : Operation) :
    ∃ writers : Line Nat, writers.leave id = .empty ∧
      c.start id (.operate operation) =
        { c with writers }.send id (.ofOperation operation) .answer [] := by
  cases writes : (Exchange.ofOperation operation).isWrite with
  | true =>
      have first : (c.writers.join id).isFirst id = true := by
        rw [alone]
        exact beq_self_eq_true _
      refine ⟨c.writers.join id, ?_, ?_⟩
      · rw [alone]
        simp [Line.leave, Line.join, Line.empty]
      · simp only [start, writes, if_true, write, first]
  | false =>
      refine ⟨c.writers, ?_, ?_⟩
      · rw [alone]
        rfl
      · simp only [start, writes, Bool.false_eq_true, if_false]

theorem next_is_idle (attend : c.books.Attend errands next) : next ∉ errands.map (·.id) := by
  intro there
  obtain ⟨errand, there, same⟩ := List.mem_map.mp there
  exact Nat.ne_of_lt (Books.errand_before attend there) same

theorem leave_in_line (holds : c.ns.Holds shows s now m) (attend : c.books.Attend errands next)
    {id : Nat} (idle : id ∉ errands.map (·.id)) (alone : c.writers.leave id = .empty) :
    InLine shows c.ns link patience errands ⟨.networked link patience (c.leave id), s, now, next⟩
      m := by
  refine ⟨_, rfl, rfl, alone, holds, ?_⟩
  rw [leave_books]
  exact Books.attend_of_leave attend idle

theorem fetch_in_line (keeps : Keeps serve shows c.ns.stem) (holds : c.ns.Holds shows s now m)
    (alone : c.writers = .empty) {id : Nat} (attend : (c.leave id).books.Attend errands next)
    (idle : id ∉ errands.map (·.id)) (link : Nat) (patience : Duration) (cache : Cache Nat)
    (key : String) {reading : Reading} (common : reading ≠ .whole) (events : List Event) :
    ∃ d', Desk.follow serve ⟨cache, s, now, next⟩ id
        ((c.fetch id key reading events).within (.networked link patience)) =
          some (.finished (m.call (.get key reading)).1, d') ∧
      InLine shows c.ns link patience errands d' m := by
  obtain ⟨told, s', answered, holds⟩ := Exchange.get_reaches keeps holds key common
  have followed :=
    follow_of_answered (c := c.leave id) answered link patience cache next id .answer events
  refine ⟨_, followed.trans (Desk.follow_of_outcome serve _ id told _ _), ?_⟩
  apply leave_in_line (c := c.leave id) holds attend idle
  simp only [leave, alone]
  rfl

theorem probe_follows (keeps : Keeps serve shows c.ns.stem) (holds : c.ns.Holds shows s now m)
    (link : Nat) (patience : Duration) (cache : Cache Nat) (next id : Nat) (key : String)
    (purpose : Purpose) :
    ∃ events s', c.ns.Holds shows s' now m ∧
      Desk.follow serve ⟨cache, s, now, next⟩ id
          ((c.send id (.exists key) purpose []).within (.networked link patience)) =
        Desk.follow serve ⟨cache, s', now, next⟩ id
          ((c.settle id (.ok (.flag (m.held key).isSome)) events purpose).within
            (.networked link patience)) := by
  obtain ⟨events, s', answered, holds⟩ := Exchange.probe_reaches keeps holds key
  exact ⟨events, s', holds, follow_of_answered answered link patience cache next id purpose []⟩

theorem follows (keeps : Keeps serve shows ns.stem) (link : Nat) (patience : Duration) :
    Follows serve (InLine shows ns link patience) where
  wait := by
    rintro errands d m ⟨c, kind, named, alone, holds, attend⟩ length
    exact ⟨c, kind, named, alone, Namespace.holds_after_jump holds length, attend⟩
  call := by
    rintro errands ⟨_, s, now, next⟩ m ⟨c, rfl, rfl, alone, holds, attend⟩ asked common operation
      asks
    obtain ⟨events, s', answered, holds⟩ := Exchange.operation_reaches keeps holds common asks
    obtain ⟨writers, left, started⟩ := start_of_alone alone next operation
    simp only [Desk.ask, Cache.start, started]
    rw [follow_of_answered (c := { c with writers }) answered]
    refine ⟨_, Desk.follow_of_outcome serve _ next events _ _, ?_⟩
    exact leave_in_line (c := { c with writers }) holds (Books.attend_later attend)
      (next_is_idle attend) left
  found := by
    rintro errands ⟨_, s, now, next⟩ m ⟨c, rfl, rfl, alone, holds, attend⟩ key reading common held
    have idle := next_is_idle attend
    have attend : (c.leave next).books.Attend errands (next + 1) := by
      rw [leave_books]
      exact Books.attend_of_leave (Books.attend_later attend) idle
    obtain ⟨events, s', holds, followed⟩ := probe_follows keeps holds link patience
      (.networked link patience c) (next + 1) next key (.look key reading)
    rw [held] at followed
    simp only [Desk.ask, Cache.start, start, followed]
    exact fetch_in_line keeps holds alone attend idle link patience _ key common events
  missing := by
    rintro errands ⟨_, s, now, next⟩ m ⟨c, rfl, rfl, alone, holds, attend⟩ key closed held reading
    have first : (c.flights.join next key).1 = .held := Books.joins_first attend closed
    obtain ⟨events, s', holds, looked⟩ := probe_follows keeps holds link patience
      (.networked link patience c) (next + 1) next key (.look key reading)
    -- Holding the key changes nothing on the server, which is asked again.
    obtain ⟨events', s'', holds, again⟩ :=
      probe_follows (c := { c with flights := (c.flights.join next key).2 }) keeps holds link
        patience (.networked link patience c) (next + 1) next key (.lookAgain key reading)
    rw [held] at looked again
    simp only [Desk.ask, Cache.start, start, looked]
    simp only [settle, Option.isSome_none, first, told, again]
    refine ⟨_, Desk.follow_of_compute serve _ next _ _, ?_⟩
    refine ⟨_, rfl, rfl, alone, holds, ?_⟩
    rw [note_books]
    exact Books.attend_of_begin attend closed reading
  concludes := by
    rintro ⟨id, key, reading⟩ errands ⟨_, s, now, next⟩ m ⟨c, rfl, rfl, alone, holds, attend⟩
      common failure
    have stands := attend.computing _ List.mem_cons_self
    have idle : id ∉ errands.map (·.id) := (List.nodup_cons.mp attend.distinct).1
    have attend : (c.leave id).books.Attend errands next := by
      rw [leave_books]
      exact Books.attend_of_end attend
    simp only [Desk.conclude, Cache.computed, c.computed_of_running id stands]
    cases failure with
    | some cause =>
        refine ⟨_, Desk.follow_of_outcome serve _ id _ _ _, ?_⟩
        refine ⟨_, rfl, rfl, ?_, holds, attend⟩
        simp only [leave, alone]
        rfl
    | none => exact fetch_in_line keeps holds alone attend idle link patience _ key common []

end NetworkedCache

/-- A client that keeps to common calls and does not have a key filled while it is filling it is
told the same by both kinds of cache, if the server keeps a map and nothing is under the namespace
when the client begins. -/
theorem both_kinds_answer_alike {serve : Service σ} {shows : Showing σ} {ns : Namespace}
    (keeps : Keeps serve shows ns.stem) {now : Instant} {server : σ}
    (vacant : ∀ {u : Instant}, now.toNanos ≤ u.toNanos → ∀ {raw}, ns.stem <+: raw →
      shows server u raw = none)
    (link : Nat) (patience : Duration) {program : Program} (lawful : program.Lawful []) :
    ∃ report d d',
      program.run serve ⟨.embedded .empty, server, now, 0⟩ = some (report, d) ∧
      program.run serve ⟨.networked link patience (.opened ns), server, now, 0⟩ =
        some (report, d') := by
  have embedded : EmbeddedCache.InLine [] (⟨.embedded .empty, server, now, 0⟩ : Desk σ)
      (.start now.toNanos) :=
    ⟨.empty, rfl, TtlMap.shown_nothing now, Books.fresh_attend _ rfl fun _ => rfl⟩
  have holds : ns.Holds shows server now (.start now.toNanos) :=
    Namespace.holds_nothing now vacant rfl fun _ => rfl
  have networked : NetworkedCache.InLine shows ns link patience []
      ⟨.networked link patience (.opened ns), server, now, 0⟩ (.start now.toNanos) :=
    ⟨.opened ns, rfl, rfl, rfl, holds, Books.fresh_attend _ rfl fun _ => rfl⟩
  obtain ⟨d, ran, _⟩ := run_follows (EmbeddedCache.follows serve) program embedded lawful
  obtain ⟨d', ran', _⟩ :=
    run_follows (NetworkedCache.follows keeps link patience) program networked lawful
  exact ⟨_, d, d', ran, ran'⟩

/-- Fills a key for five milliseconds, looks for it when they are over, and clears everything. -/
def Program.fleeting : Program :=
  .remember "k" .bytes
    (.call (.store "k" (.bytes [7]) (.ofMillis 5) false) fun _ => .done none)
    fun _ => .wait (.ofMillis 5) <| .call (.get "k" .bytes) fun _ =>
      .call .clear fun _ => .done none

theorem fleeting_is_answered_alike :
    Program.fleeting.Lawful [] ∧ ∃ report d d',
      Program.fleeting.run PlainServer.serve ⟨.embedded .empty, ⟨[]⟩, .start, 0⟩ =
        some (report, d) ∧
      Program.fleeting.run PlainServer.serve
          ⟨.networked 0 .zero (.opened ⟨['a', 'p', 'p']⟩), ⟨[]⟩, .start, 0⟩ =
        some (report, d') := by
  have sendable : (Duration.ofMillis 5).Sendable := ⟨5, by decide, rfl⟩
  have lawful : Program.fleeting.Lawful [] :=
    ⟨List.not_mem_nil, nofun, ⟨sendable, fun _ => trivial⟩,
      fun _ => ⟨nofun, fun _ => ⟨trivial, fun _ => trivial⟩⟩⟩
  exact ⟨lawful, both_kinds_answer_alike (PlainServer.keeps _) (fun _ _ _ => rfl) 0 .zero lawful⟩

end ExpiringCache
