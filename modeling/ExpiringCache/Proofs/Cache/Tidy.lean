import ExpiringCache.Proofs.Cache.SingleFlight
import ExpiringCache.Proofs.Flight.Leftover
/-!
What an embedded cache leaves behind. A caller that computes has been told that it holds its key,
so the slot goes with it if nobody else is there; as long as no caller of a key goes away early, the
key has a slot only while somebody is at it. Fills leave the store as it is, and nothing in the
books once they are done.
-/

namespace ExpiringCache

variable {ι : Type}

/-- Whoever computes has been told so, and nothing was left over of a key. -/
structure Books.Tidy (books : Books ι) (key : String) : Prop where
  holding : ∀ {id}, Pursuit.computes (books.pursuit? id) = true → books.flights.holds id
  clear : ¬books.flights.Leftover key

variable {id : ι} {key : String}

namespace Books

variable {books : Books ι}

theorem queue_empty_of_idle (orderly : books.Orderly)
    (idle : ∀ {id pursuit}, books.pursuit? id = some pursuit → pursuit.key ≠ key) :
    books.flights.queue key = [] := by
  rw [List.eq_nil_iff_forall_not_mem]
  intro j queued
  obtain ⟨pursuit, found, same⟩ := pursuit_of_queued orderly queued
  exact idle found same

theorem no_slot (orderly : books.Orderly) (tidy : books.Tidy key)
    (idle : ∀ {id pursuit}, books.pursuit? id = some pursuit → pursuit.key ≠ key) :
    books.flights.slots.get? key = none := by
  by_contra slotted
  exact tidy.clear ⟨slotted, queue_empty_of_idle orderly idle⟩

theorem grounded (orderly : books.Orderly) (tidy : ∀ k, books.Tidy k)
    (nobody : ∀ id, books.pursuit? id = none) : books.flights.inFlight = 0 := by
  refine Flights.in_flight_zero (fun k => (tidy k).clear) fun k => ?_
  refine queue_empty_of_idle orderly fun {j} _ found => ?_
  rw [nobody j] at found
  cases found

theorem tidy_of_grounded (grounded : books.flights.inFlight = 0)
    (nobody : ∀ id, books.pursuit? id = none) (key : String) : books.Tidy key where
  holding := by
    intro id computes
    rw [nobody id] at computes
    cases computes
  clear := fun left => left.1 (Flights.no_slots grounded key)

end Books

/-- Every fill of an embedded cache that is not done is in the queue of its key. -/
theorem EmbeddedCache.nobody_of_grounded {c : EmbeddedCache ι} [DecidableEq ι]
    (orderly : c.books.Orderly) (grounded : c.flights.inFlight = 0) (id : ι) :
    c.books.pursuit? id = none := by
  have empty : ∀ key, id ∉ c.flights.queue key := fun key queued =>
    Flights.slot_of_queued orderly.sound queued (Flights.no_slots grounded key)
  have agree := orderly.agree id
  rcases found : c.fill? id with _ | ⟨name, key, reading, stage⟩
  · simp only [books, found, Option.map_none]
  · simp only [books, found, Option.map_some] at agree
    cases stage with
    | inLine => exact absurd agree (empty key)
    | computing => exact absurd (List.mem_of_head? agree) (empty key)

theorem World.after_cache (w : World ι) (id : ι) (reaction : Reaction (Cache ι)) :
    (w.after id reaction).cache = reaction.state := by
  unfold after
  split <;> rfl

theorem World.after_now (w : World ι) (id : ι) (reaction : Reaction (Cache ι)) :
    (w.after id reaction).now = w.now := by
  unfold after
  split <;> rfl

variable [DecidableEq ι]

namespace Books

variable {books : Books ι} {g : Flights ι} {turn : Turn}

/-- A caller that has been told its turn is put elsewhere, and computes only if the turn is its. -/
theorem put_tidy (tidy : books.Tidy key) (handed : books.flights.Handed id turn g)
    {pursuit : Option Pursuit} (told : Pursuit.computes pursuit = true → turn = .held) :
    (books.put g id pursuit).Tidy key where
  holding := by
    intro j computes
    by_cases same : j = id
    · subst same
      rw [put_pursuit] at computes
      exact handed.taken (told computes)
    · rw [put_others _ _ _ same] at computes
      exact handed.holds (tidy.holding computes)
  clear := fun left => tidy.clear (handed.leftover left)

theorem holding_of_leave (tidy : books.Tidy key) (more : ∀ {j}, books.flights.holds j → g.holds j)
    {j : ι} (computes : Pursuit.computes ((books.put (g.drop id).2 id none).pursuit? j) = true) :
    (g.drop id).2.holds j := by
  have other : j ≠ id := by
    rintro rfl
    rw [put_pursuit] at computes
    cases computes
  rw [put_others _ _ _ other] at computes
  exact (Flights.drop_holds g id j).mpr ⟨more (tidy.holding computes), other⟩

theorem release_tidy (tidy : books.Tidy key) (sound : g.Sound)
    (handed : books.flights.Handed id .held g) :
    (books.put (g.drop id).2 id none).Tidy key where
  holding := holding_of_leave tidy handed.holds
  clear := by
    intro left
    have before := Flights.leftover_of_release sound (handed.taken rfl) left
    exact tidy.clear (handed.leftover before)

theorem leave_tidy (tidy : books.Tidy key) (elsewhere : id ∉ books.flights.queue key) :
    (books.put (books.flights.drop id).2 id none).Tidy key where
  holding := holding_of_leave tidy fun held => held
  clear := by
    intro left
    rcases Flights.leftover_of_drop left with before | queued
    · exact tidy.clear before
    · exact elsewhere queued

end Books

theorem Cache.books_flights (c : Cache ι) : c.books.flights = c.flights := by
  cases c <;> rfl

namespace EmbeddedCache

variable {c : EmbeddedCache ι} (now : Instant)

theorem told_tidy (tidy : c.books.Tidy key) {g : Flights ι} (sound : g.Sound) {turn : Turn}
    (handed : c.flights.Handed id turn g) (k : String) (reading : Reading) :
    (({ c with flights := g } : EmbeddedCache ι).told now id k reading turn).state.books.Tidy
      key := by
  cases turn with
  | waiting =>
      simp only [told, Reaction.quiet, note_books]
      exact Books.put_tidy tidy handed fun computes => absurd computes Bool.false_ne_true
  | gone =>
      simp only [told, Reaction.quiet, note_books]
      exact Books.put_tidy tidy handed fun computes => absurd computes Bool.false_ne_true
  | held =>
      simp only [told, arrive]
      split
      · have released : (c.books.put (g.drop id).2 id none).Tidy key :=
          Books.release_tidy tidy sound handed
        rw [fetch_books, leave_books]
        exact released
      · simp only [note_books]
        exact Books.put_tidy tidy handed fun _ => rfl

theorem start_tidy (orderly : c.books.Orderly) (tidy : c.books.Tidy key)
    (new : c.books.pursuit? id = none) (request : Request) :
    (c.start now id request).state.books.Tidy key := by
  cases request with
  | operate operation => exact tidy
  | fill k reading =>
      simp only [start]
      split
      · exact tidy
      · have outside := orderly.agree id
        rw [new] at outside
        exact told_tidy now tidy (Flights.join_sound orderly.sound outside k)
          (Flights.join_handed orderly.sound outside k) k reading

theorem turn_tidy (orderly : c.books.Orderly) (tidy : c.books.Tidy key) (id : ι) :
    (c.turn now id).state.books.Tidy key := by
  unfold turn
  split
  · next name k reading found =>
    have queued := orderly.agree id
    simp only [books, found] at queued
    exact told_tidy now tidy (Flights.poll_told orderly.sound queued).sound
      (Flights.poll_handed orderly.sound queued) k reading
  · exact tidy

theorem computed_tidy (orderly : c.books.Orderly) (tidy : c.books.Tidy key) (id : ι)
    (failure : Option Cause) : (c.computed now id failure).state.books.Tidy key := by
  cases computes : Pursuit.computes (c.books.pursuit? id) with
  | false =>
      rw [c.computed_of_others now id computes]
      exact tidy
  | true =>
      have handed : c.books.flights.Handed id .held c.books.flights :=
        ⟨fun held => held, fun _ => tidy.holding computes, fun left => left⟩
      have released := Books.release_tidy tidy orderly.sound handed
      obtain ⟨k, reading, stands⟩ := (Pursuit.computes_iff _).mp computes
      rw [c.computed_of_running now id stands]
      cases failure with
      | some cause =>
          simp only [Reaction.quiet, leave_books]
          exact released
      | none =>
          simp only [fetch_books, leave_books]
          exact released

end EmbeddedCache

/-! ### Fills leave the store as it is -/

namespace EmbeddedCache

variable (c : EmbeddedCache ι) (now : Instant) (id : ι)

theorem told_entries (key : String) (reading : Reading) (turn : Turn) :
    (c.told now id key reading turn).state.store.entries = c.store.entries := by
  cases turn with
  | waiting => rfl
  | gone => rfl
  | held =>
      simp only [told, arrive]
      split
      · exact c.store.fetch_keeps_entries now key reading
      · rfl

theorem start_entries (key : String) (reading : Reading) :
    (c.start now id (.fill key reading)).state.store.entries = c.store.entries := by
  simp only [start]
  split
  · exact c.store.fetch_keeps_entries now key reading
  · exact told_entries { c with flights := (c.flights.join id key).2 } now id key reading _

theorem turn_entries : (c.turn now id).state.store.entries = c.store.entries := by
  unfold turn
  split
  · exact told_entries { c with flights := (c.flights.poll id).2 } now id _ _ _
  · rfl

theorem computed_entries (failure : Option Cause) :
    (c.computed now id failure).state.store.entries = c.store.entries := by
  unfold computed
  split
  · next key reading _ =>
    cases failure with
    | some cause => rfl
    | none => exact c.store.fetch_keeps_entries now key reading
  · rfl

variable {outcome : Outcome}

theorem told_done {key : String} {reading : Reading} {turn : Turn}
    (finished : (c.told now id key reading turn).progress = .finished outcome) :
    (c.told now id key reading turn).state.books.pursuit? id = none := by
  cases turn with
  | waiting => cases finished
  | gone => cases finished
  | held =>
      simp only [told, arrive] at finished ⊢
      split at finished
      · next live =>
        rw [if_pos live, fetch_books, leave_books]
        exact Books.put_pursuit _ _ _ _
      · cases finished

theorem start_done {key : String} {reading : Reading} (new : c.books.pursuit? id = none)
    (finished : (c.start now id (.fill key reading)).progress = .finished outcome) :
    (c.start now id (.fill key reading)).state.books.pursuit? id = none := by
  simp only [start] at finished ⊢
  split at finished
  · next live =>
    rw [if_pos live]
    exact new
  · next missing =>
    rw [if_neg missing]
    exact told_done _ now id finished

theorem turn_done {name : ι} {key : String} {reading : Reading}
    (found : c.fill? id = some ⟨name, key, reading, .inLine⟩)
    (finished : (c.turn now id).progress = .finished outcome) :
    (c.turn now id).state.books.pursuit? id = none := by
  simp only [turn, found] at finished ⊢
  exact told_done _ now id finished

end EmbeddedCache

namespace World

variable {w : World ι}

/-- One thing happens to an embedded cache, and it is not that a caller of the key goes away. -/
theorem next_tidy (orderly : w.Orderly) {c : EmbeddedCache ι} (here : w.cache = .embedded c)
    (tidy : w.cache.books.Tidy key) {happening : Happening ι} (allowed : w.Allows happening)
    (stays : ∀ id, happening = .leave id → ∀ reading, w.wish? id ≠ some (key, reading)) :
    (w.next happening).cache.books.Tidy key := by
  have ordered : c.books.Orderly := by
    have books := orderly.books
    rwa [here] at books
  have kept : c.books.Tidy key := by rwa [here] at tidy
  cases happening with
  | begin id request =>
      have unknown := unknown_of_new orderly allowed
      rw [here] at unknown
      rw [next, after_cache, here]
      exact c.start_tidy w.now ordered kept unknown request
  | turn id =>
      rw [next, after_cache, here]
      exact c.turn_tidy w.now ordered kept id
  | reply id reply =>
      rw [next, after_cache, here]
      exact kept
  | computed id failure =>
      rw [next, after_cache, here]
      exact c.computed_tidy w.now ordered kept id failure
  | leave id =>
      rw [next, here]
      simp only [Cache.leave, Cache.books, EmbeddedCache.leave_books]
      refine Books.leave_tidy kept fun queued => ?_
      obtain ⟨pursuit, found, rfl⟩ := Books.pursuit_of_queued ordered queued
      have wished := orderly.wished (by rw [here]; exact found)
      exact stays id rfl pursuit.reading wished
  | restock store =>
      rw [next, Cache.with_store_books]
      exact tidy
  | wait length => exact tidy

end World

end ExpiringCache
