import ExpiringCache.Proofs.Cache.Readings
import ExpiringCache.Proofs.Cache.World
import ExpiringCache.Proofs.Store.Live
/-!
Single flight. Since a computation runs only for the caller that is first in the queue of its key,
no two run for one key, with either kind of cache and whatever the callers do. An embedded cache has
callers compute only what is missing; everyone else is given what is there.
-/

namespace ExpiringCache

/-- Bytes that were found may not be what they are to be read as, but they were found. -/
theorem Reading.of_ne_not_found (reading : Reading) (key : String) (payload : Payload)
    (k : String) : reading.of key payload ≠ .error (.notFound k) := by
  intro missing
  obtain ⟨_, why, misread⟩ := Reading.error_of_of missing
  cases misread

def Store.Tells (store : Store) (now : Instant) (key : String) (reading : Reading) :
    Progress → Prop
  | .waiting => True
  | .send _ => False
  | .compute => store.isLive now key = false
  | .finished outcome => ∃ e, store.live? now key = some e ∧ outcome = reading.of key e.payload

variable {ι : Type}

theorem EmbeddedCache.fetch_tells (c : EmbeddedCache ι) (now : Instant) {key : String}
    (live : c.store.isLive now key = true) (reading : Reading) (events : List Event) :
    c.store.Tells now key reading (c.fetch now key reading events).progress := by
  obtain ⟨e, found⟩ := Option.isSome_iff_exists.mp live
  exact ⟨e, found, Store.fetch_of_live c.store now found reading⟩

variable [DecidableEq ι]

namespace EmbeddedCache

variable (c : EmbeddedCache ι) (now : Instant) (id : ι)

theorem told_tells (key : String) (reading : Reading) (turn : Turn) :
    c.store.Tells now key reading (c.told now id key reading turn).progress := by
  cases turn with
  | waiting => trivial
  | gone => trivial
  | held =>
      simp only [told, arrive]
      split
      · next live => exact (c.leave id).fetch_tells now live reading _
      · next missing => exact Bool.eq_false_iff.mpr missing

theorem start_tells (key : String) (reading : Reading) :
    c.store.Tells now key reading (c.start now id (.fill key reading)).progress := by
  simp only [start]
  split
  · next live => exact c.fetch_tells now live reading []
  · exact told_tells { c with flights := (c.flights.join id key).2 } now id key reading _

/-- A caller that stands in line is told the truth about the key that it has asked for. -/
theorem turn_tells {key : String} {reading : Reading}
    (wished : ∀ pursuit, c.books.pursuit? id = some pursuit → pursuit.wish = (key, reading)) :
    c.store.Tells now key reading (c.turn now id).progress := by
  unfold turn
  split
  · next name k other found =>
    have stands : c.books.pursuit? id = some ⟨.inLine, k, other⟩ := by
      simp only [books, found]
      rfl
    obtain ⟨rfl, rfl⟩ := Prod.mk.inj (wished _ stands)
    exact told_tells { c with flights := (c.flights.poll id).2 } now id _ _ _
  · trivial

/-- A caller that computes, or pursues nothing, does not stand in line. -/
theorem turn_of_others
    (stands : c.books.pursuit? id = none ∨ Pursuit.computes (c.books.pursuit? id) = true) :
    c.turn now id = .quiet .waiting c := by
  unfold turn
  split
  · next found =>
    simp only [books, found] at stands
    rcases stands with gone | computes
    · cases gone
    · cases computes
  · rfl

theorem computed_of_others (free : Pursuit.computes (c.books.pursuit? id) = false)
    (failure : Option Cause) : c.computed now id failure = .quiet .waiting c := by
  unfold computed
  split
  · next found =>
    simp only [books, found] at free
    cases free
  · rfl

/-- A caller that stands in line and is first looks again, and computes if the key is still missing.
-/
theorem turn_of_first (orderly : c.books.Orderly) {key : String} {reading : Reading}
    (stands : c.books.pursuit? id = some ⟨.inLine, key, reading⟩)
    (first : (c.flights.queue key).head? = some id) :
    (c.turn now id).progress = if c.store.isLive now key then
      .finished (c.store.perform now (.get key reading)).1 else .compute := by
  have sound : c.flights.Sound := orderly.sound
  obtain ⟨fill, found, pursues⟩ := Option.map_eq_some_iff.mp stands
  obtain ⟨j, k, other, stage⟩ := fill
  cases stage with
  | computing => cases pursues
  | inLine =>
      cases pursues
      have polled : (c.flights.poll id).1 = .held := by
        obtain ⟨claim, member, rfl, rfl⟩ :=
          (Flights.mem_queue_iff c.flights _ id).mp (List.mem_of_head? first)
        rw [Flights.poll, Flights.claim_of_caller sound member, Flights.tell_turn sound member,
          if_pos first]
      simp only [turn, found, polled, told, arrive]
      split <;> rfl

theorem queued_of_waiting (orderly : c.books.Orderly) (new : c.books.pursuit? id = none)
    {key : String} {reading : Reading}
    (waits : (c.start now id (.fill key reading)).progress = .waiting) :
    id ∈ (c.start now id (.fill key reading)).state.flights.queue key := by
  have outside : id ∉ c.flights.callers := by
    have agree := orderly.agree id
    rwa [new] at agree
  have joined := (Flights.join_told orderly.sound outside key).queued
  simp only [start] at waits ⊢
  split at waits
  · cases waits
  · next missing =>
    rw [if_neg missing]
    generalize (c.flights.join id key).1 = turn at waits ⊢
    cases turn with
    | held =>
        simp only [told, arrive] at waits
        split at waits <;> cases waits
    | waiting => exact joined
    | gone => exact joined

end EmbeddedCache

/-- What single flight promises at every moment. No key is computed twice at a time, in either kind
of cache. In an embedded one a computation begins only for a key that shows nothing, and a fill ends
with something that the key shows, or after its own computation with what a read yields or with its
own failure. Who has to wait stands in the queue of the key, and the first there computes or is told
how to go on as soon as it looks for its turn. -/
structure World.SingleFlight (w : World ι) : Prop where
  alone : (w.running.map (·.2)).Nodup
  needed : ∀ {c happening id reaction key reading}, w.cache = .embedded c →
    w.Allows happening → w.reaction? happening = some (id, reaction) →
    (w.next happening).wish? id = some (key, reading) →
    reaction.progress = .compute → c.store.isLive w.now key = false
  given : ∀ {c happening id reaction key reading outcome}, w.cache = .embedded c →
    w.Allows happening → w.reaction? happening = some (id, reaction) →
    (w.next happening).wish? id = some (key, reading) →
    reaction.progress = .finished outcome → id ∉ w.told →
    ∃ e, c.store.live? w.now key = some e ∧ outcome = reading.of key e.payload ∧
      (reading = .bytes → outcome = .ok (.bytes e.payload)) ∧
      ∀ k, outcome ≠ .error (.notFound k)
  awaited : ∀ {c happening id reaction key reading outcome}, w.cache = .embedded c →
    w.Allows happening → w.reaction? happening = some (id, reaction) →
    (w.next happening).wish? id = some (key, reading) →
    reaction.progress = .finished outcome → id ∈ w.told →
    (id, key) ∈ w.running ∧ ∃ failure, happening = .computed id failure
  ended : ∀ {c id key}, w.cache = .embedded c → (id, key) ∈ w.running →
    ∃ reading, w.wish? id = some (key, reading) ∧
      (w.cache.computed w.now id none).progress =
        .finished (c.store.perform w.now (.get key reading)).1 ∧
      ∀ cause, (w.cache.computed w.now id (some cause)).progress =
          .finished (.error (.compute cause)) ∧
        (w.cache.computed w.now id (some cause)).state.store? = some c.store
  queued : ∀ {c id key reading}, w.cache = .embedded c → w.asked id = none →
    (c.start w.now id (.fill key reading)).progress = .waiting →
    id ∈ (c.start w.now id (.fill key reading)).state.flights.queue key
  passedOn : ∀ {c id key}, w.cache = .embedded c → (c.flights.queue key).head? = some id →
    (id, key) ∈ w.running ∨ ∃ reading, w.wish? id = some (key, reading) ∧
      (c.turn w.now id).progress = if c.store.isLive w.now key then
        .finished (c.store.perform w.now (.get key reading)).1 else .compute

namespace World

variable {w : World ι}

/-- Callers that compute for one key are first in the same queue. -/
theorem alone_of_orderly (orderly : w.Orderly) : (w.running.map (·.2)).Nodup := by
  have first : ∀ {id key}, (id, key) ∈ w.running →
      (w.cache.books.flights.queue key).head? = some id := by
    intro id key runs
    obtain ⟨reading, stands⟩ := (orderly.running id key).mp runs
    have agree := orderly.books.agree id
    rwa [stands] at agree
  have distinct := orderly.distinct
  refine List.pairwise_map.mpr ((List.pairwise_map.mp distinct).imp_of_mem ?_)
  rintro ⟨i, k⟩ ⟨j, l⟩ left right differ same
  cases same
  have head := first left
  rw [first right] at head
  cases head
  exact differ rfl

section Embedded

variable {c : EmbeddedCache ι} {happening : Happening ι} {id : ι} {reaction : Reaction (Cache ι)}
  {key : String} {reading : Reading}

/-- What a caller of an embedded cache is told before it has computed. -/
theorem tells_of_untold (orderly : w.Orderly) (here : w.cache = .embedded c)
    (reacts : w.reaction? happening = some (id, reaction))
    (wished : (w.next happening).wish? id = some (key, reading)) (untold : id ∉ w.told) :
    c.store.Tells w.now key reading reaction.progress := by
  have free : Pursuit.computes (c.books.pursuit? id) = false := by
    have unlike := mt orderly.telling untold
    rw [here] at unlike
    exact Bool.eq_false_iff.mpr unlike
  cases happening with
  | begin j request =>
      cases reacts
      rw [next, wish?, after_asked] at wished
      cases request with
      | operate operation => simp [asking, Request.wish?] at wished
      | fill k other =>
          simp only [asking, if_pos, Option.bind_some, Request.wish?, Option.some.injEq,
            Prod.mk.injEq] at wished
          obtain ⟨rfl, rfl⟩ := wished
          rw [here]
          exact c.start_tells w.now id k other
  | turn j =>
      cases reacts
      rw [next, wish?, after_asked] at wished
      rw [here]
      refine c.turn_tells w.now id ?_
      intro pursuit stands
      have known := orderly.wished (by rw [here]; exact stands)
      exact Option.some.inj (known.symm.trans wished)
  | reply j reply =>
      cases reacts
      rw [here]
      trivial
  | computed j failure =>
      cases reacts
      rw [here]
      have quiet := c.computed_of_others w.now id free failure
      simp only [Cache.computed, quiet]
      trivial
  | leave j => cases reacts
  | restock store => cases reacts
  | wait length => cases reacts

/-- A caller that has been told to compute hears nothing more until it has. -/
theorem awaited_of_told (orderly : w.Orderly) (here : w.cache = .embedded c)
    (allowed : w.Allows happening) (reacts : w.reaction? happening = some (id, reaction))
    (told : id ∈ w.told) :
    reaction.progress = .waiting ∨ ∃ failure, happening = .computed id failure ∧
      Pursuit.computes (w.cache.books.pursuit? id) = true := by
  have ⟨asked, stands⟩ := orderly.told told
  cases happening with
  | begin j request =>
      cases reacts
      exact absurd allowed asked
  | turn j =>
      cases reacts
      rw [here] at stands ⊢
      have quiet := c.turn_of_others w.now id stands
      exact .inl (by rw [Cache.turn, quiet]; rfl)
  | reply j reply =>
      cases reacts
      rw [here]
      exact .inl rfl
  | computed j failure =>
      cases reacts
      cases free : Pursuit.computes (w.cache.books.pursuit? id) with
      | true => exact .inr ⟨failure, rfl, rfl⟩
      | false =>
          rw [here] at free ⊢
          have quiet := c.computed_of_others w.now id free failure
          exact .inl (by rw [Cache.computed, quiet]; rfl)
  | leave j => cases reacts
  | restock store => cases reacts
  | wait length => cases reacts

end Embedded

theorem single_flight (reached : w.Reachable) : w.SingleFlight := by
  have orderly := reachable_orderly reached
  constructor
  case alone => exact alone_of_orderly orderly
  case needed =>
    intro c happening id reaction key reading here allowed reacts wished computes
    by_cases told : id ∈ w.told
    · rcases awaited_of_told orderly here allowed reacts told with waits | ⟨failure, rfl, _⟩
      · rw [waits] at computes
        cases computes
      · have idle := (Cache.computed_ends orderly.books id w.now failure).idle
        cases reacts
        rw [computes] at idle
        cases idle
    · have tells := tells_of_untold orderly here reacts wished told
      rwa [computes] at tells
  case given =>
    intro c happening id reaction key reading outcome here _ reacts wished finished untold
    have tells := tells_of_untold orderly here reacts wished untold
    rw [finished] at tells
    obtain ⟨e, found, rfl⟩ := tells
    refine ⟨e, found, rfl, ?_, fun k => Reading.of_ne_not_found reading key e.payload k⟩
    rintro rfl
    rfl
  case awaited =>
    intro c happening id reaction key reading outcome here allowed reacts wished finished told
    rcases awaited_of_told orderly here allowed reacts told with waits | ⟨failure, rfl, computes⟩
    · rw [waits] at finished
      cases finished
    · obtain ⟨k, other, stands⟩ := (Pursuit.computes_iff _).mp computes
      have known := orderly.wished stands
      rw [next, wish?, after_asked] at wished
      obtain ⟨rfl, _⟩ := Prod.mk.inj (Option.some.inj (known.symm.trans wished))
      exact ⟨(orderly.running id _).mpr ⟨other, stands⟩, failure, rfl⟩
  case ended =>
    intro c id key here runs
    obtain ⟨reading, stands⟩ := (orderly.running id key).mp runs
    have wished := orderly.wished stands
    rw [here] at stands
    refine ⟨reading, wished, ?_, ?_⟩
    · simp only [here, Cache.computed, c.computed_of_running w.now id stands]
      rfl
    · intro cause
      simp only [here, Cache.computed, c.computed_of_running w.now id stands]
      exact ⟨rfl, rfl⟩
  case queued =>
    intro c id key reading here new waits
    have books := orderly.books
    have unknown := unknown_of_new orderly new
    rw [here] at books unknown
    exact c.queued_of_waiting w.now id books unknown waits
  case passedOn =>
    intro c id key here first
    have books := orderly.books
    rw [here] at books
    obtain ⟨pursuit, pursues, rfl⟩ := Books.pursuit_of_queued books (List.mem_of_head? first)
    have known : w.cache.books.pursuit? id = some pursuit := by
      rw [here]
      exact pursues
    obtain ⟨⟨_, k, reading, stage⟩, _, rfl⟩ := Option.map_eq_some_iff.mp pursues
    cases stage with
    | computing => exact .inl ((orderly.running id k).mpr ⟨reading, known⟩)
    | inLine =>
        exact .inr ⟨reading, orderly.wished known, c.turn_of_first w.now id books pursues first⟩

/-- Three callers ask for a key. The first computes it and has it stored, the second is given that
when its turn comes, and the third is next. -/
def crowd : List (Happening Nat) :=
  [.begin 0 (.fill "k" .bytes), .begin 1 (.fill "k" .bytes), .begin 2 (.fill "k" .bytes),
    .begin 3 (.operate (.set "k" [7] .zero)), .computed 0 none, .turn 1]

theorem crowd_flies_alone :
    (((embedded .start).run crowd.dropLast).cache.turn .start 1).progress =
        .finished (.ok (.bytes [7])) ∧
      ((embedded .start).run crowd).cache.flights.queue "k" = [2] ∧
      ((embedded .start).run crowd).SingleFlight := by
  have lawful : (embedded .start).Lawful crowd :=
    ⟨rfl, rfl, rfl, rfl, trivial, trivial, trivial⟩
  exact ⟨rfl, rfl, single_flight (reachable_of_run (.embedded .start) lawful)⟩

end World

end ExpiringCache
