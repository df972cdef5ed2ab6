import ExpiringCache.Proofs.Cache.Books
/-!
The moves of both kinds of cache. Each function that takes up a request, looks whether a turn has
come, goes on with a reply or ends a computation is shown to move the one caller that it is for.
-/

namespace ExpiringCache

variable {ι : Type} [DecidableEq ι]

/-! ### Embedded caches -/

namespace EmbeddedCache

def books (c : EmbeddedCache ι) : Books ι := ⟨c.flights, fun id => (c.fill? id).map Fill.pursuit⟩

variable {c : EmbeddedCache ι} {id : ι}

theorem note_books (c : EmbeddedCache ι) (fill : Fill ι) :
    (c.note fill).books = c.books.put c.flights fill.id (some fill.pursuit) := by
  have found : ∀ j, (c.note fill).fill? j = if j = fill.id then some fill else c.fill? j :=
    find_after_note Fill.id c.fills fill
  simp only [books, Books.put, Books.mk.injEq]
  refine ⟨rfl, funext fun j => ?_⟩
  rw [found]
  split <;> rfl

theorem leave_books (c : EmbeddedCache ι) (id : ι) :
    (c.leave id).books = c.books.put (c.flights.drop id).2 id none := by
  have found : ∀ j, (c.leave id).fill? j = if j = id then none else c.fill? j :=
    find_after_removal Fill.id c.fills id
  simp only [books, Books.put, Books.mk.injEq]
  refine ⟨rfl, funext fun j => ?_⟩
  rw [found]
  split <;> rfl

theorem fetch_books (c : EmbeddedCache ι) (now : Instant) (key : String) (reading : Reading)
    (events : List Event) : (c.fetch now key reading events).state.books = c.books := rfl

theorem fill_of_pursuit (c : EmbeddedCache ι) (id : ι) {place : Place} {key : String} {reading : Reading}
    (stands : c.books.pursuit? id = some ⟨place, key, reading⟩) :
    ∃ fill, c.fill? id = some fill ∧ fill.key = key ∧ fill.reading = reading ∧
      (fill.stage = .computing ↔ place = .computing) := by
  obtain ⟨fill, found, same⟩ := Option.map_eq_some_iff.mp stands
  refine ⟨fill, found, ?_⟩
  unfold Fill.pursuit at same
  split at same
  · next stage =>
    cases same
    simp [stage]
  · next stage =>
    cases same
    simp [stage]

theorem computed_of_running (c : EmbeddedCache ι) (now : Instant) (id : ι) {key : String}
    {reading : Reading} (stands : c.books.pursuit? id = some ⟨.computing, key, reading⟩) (failure : Option Cause) :
    c.computed now id failure =
      match failure with
      | some cause => .quiet (.finished (.error (.compute cause))) (c.leave id)
      | none => (c.leave id).fetch now key reading [] := by
  obtain ⟨⟨name, k, other, stage⟩, found, rfl, rfl, placed⟩ := c.fill_of_pursuit id stands
  cases placed.mpr rfl
  cases failure with
  | some cause => simp only [computed, found]
  | none => simp only [computed, found]

theorem leave_ends (orderly : c.books.Orderly) (id : ι) {progress : Progress}
    (idle : progress.computes = false) : c.books.Ends id progress (c.leave id).books := by
  rw [leave_books]
  exact Books.leave_ends orderly id idle

/-- A caller that has been told its turn stands in line, computes or is done. -/
theorem told_moves {key : String} {turn : Turn} {g : Flights ι}
    (told : c.flights.Told id key turn g) (free : Pursuit.computes (c.books.pursuit? id) = false)
    (now : Instant) (reading : Reading) :
    c.books.Moves id (some (key, reading))
      (({ c with flights := g } : EmbeddedCache ι).told now id key reading turn).progress
      (({ c with flights := g } : EmbeddedCache ι).told now id key reading turn).state.books := by
  cases turn with
  | waiting =>
      simp only [EmbeddedCache.told, Reaction.quiet, note_books]
      exact Books.wait_moves told free reading
  | gone =>
      simp only [EmbeddedCache.told, Reaction.quiet, note_books]
      exact Books.wait_moves told free reading
  | held =>
      simp only [EmbeddedCache.told, arrive]
      split
      · rw [fetch_books, leave_books]
        exact Books.leave_moves told free _ rfl
      · simp only [note_books]
        exact Books.compute_moves told free rfl reading

theorem start_moves (orderly : c.books.Orderly) (new : c.books.pursuit? id = none)
    (now : Instant) (request : Request) :
    c.books.Moves id request.wish? (c.start now id request).progress
      (c.start now id request).state.books := by
  cases request with
  | operate operation => exact Books.rest_moves orderly id _ rfl
  | fill key reading =>
      simp only [start]
      split
      · exact Books.rest_moves orderly id _ rfl
      · have agree := orderly.agree id
        rw [new] at agree
        exact told_moves (Flights.join_told orderly.sound agree key) (by rw [new]; rfl) now reading

theorem turn_moves (orderly : c.books.Orderly) (id : ι) (now : Instant) :
    c.books.Moves id ((c.books.pursuit? id).map Pursuit.wish) (c.turn now id).progress
      (c.turn now id).state.books := by
  unfold turn
  split
  · next name key reading found =>
    have stands : c.books.pursuit? id = some ⟨.inLine, key, reading⟩ := by
      simp only [books, found]
      rfl
    have queued := orderly.agree id
    rw [stands] at queued ⊢
    exact told_moves (Flights.poll_told orderly.sound queued) (by rw [stands]; rfl) now reading
  · exact Books.rest_moves orderly id _ rfl

theorem computed_ends (orderly : c.books.Orderly) (id : ι) (now : Instant)
    (failure : Option Cause) :
    c.books.Ends id (c.computed now id failure).progress
      (c.computed now id failure).state.books := by
  unfold computed
  split
  · cases failure with
    | some cause => exact leave_ends orderly id rfl
    | none =>
        simp only [fetch_books]
        exact leave_ends orderly id rfl
  · next free =>
    refine ⟨Books.rest_shifts orderly id, rfl, .inr ⟨rfl, ?_⟩⟩
    simp only [books]
    rcases found : c.fill? id with _ | ⟨_, key, reading, stage⟩
    · rfl
    · cases stage with
      | inLine => rfl
      | computing => exact absurd found (free _ _ _)

end EmbeddedCache

/-! ### Networked caches -/

namespace NetworkedCache

def books (c : NetworkedCache ι) : Books ι :=
  ⟨c.flights, fun id => (c.stage? id).bind RequestStage.pursuit?⟩

variable {c : NetworkedCache ι} {id : ι}

theorem stage_after_note (c : NetworkedCache ι) (id : ι) (stage : RequestStage) (j : ι) :
    (c.note id stage).stage? j = if j = id then some stage else c.stage? j := by
  have found := find_after_note (fun r : ι × RequestStage => r.1) c.requests (id, stage) j
  unfold stage? note
  rw [found]
  split <;> rfl

theorem stage_after_leave (c : NetworkedCache ι) (id j : ι) :
    (c.leave id).stage? j = if j = id then none else c.stage? j := by
  have found := find_after_removal (fun r : ι × RequestStage => r.1) c.requests id j
  unfold stage? leave
  rw [found]
  split <;> rfl

theorem request_of_stage {stage : RequestStage} (found : c.stage? id = some stage) :
    (id, stage) ∈ c.requests := by
  obtain ⟨⟨j, other⟩, first, rfl⟩ := Option.map_eq_some_iff.mp found
  have named := List.find?_some first
  cases beq_iff_eq.mp named
  exact List.mem_of_find?_eq_some first

theorem note_after_note (c : NetworkedCache ι) (id : ι) (before after : RequestStage) :
    (c.note id before).note id after = c.note id after := by
  simp only [note, NetworkedCache.mk.injEq, true_and]
  rw [List.filter_append, List.filter_filter]
  simp

theorem leave_after_note (c : NetworkedCache ι) (id : ι) (stage : RequestStage) :
    (c.note id stage).leave id = c.leave id := by
  simp only [leave, note, NetworkedCache.mk.injEq, true_and]
  rw [List.filter_append, List.filter_filter]
  simp

/-- What a caller does once it has been told is the same wherever it stood. -/
theorem settle_after_note (c : NetworkedCache ι) (id : ι) (stage : RequestStage)
    (outcome : Outcome) (events : List Event) (purpose : Purpose) :
    (c.note id stage).settle id outcome events purpose = c.settle id outcome events purpose := by
  have told : ∀ key reading turn g,
      ({ c.note id stage with flights := g } : NetworkedCache ι).told id key reading turn =
        ({ c with flights := g } : NetworkedCache ι).told id key reading turn := by
    intro key reading turn g
    have note := note_after_note { c with flights := g } id stage
    cases turn with
    | held => exact congrArg (Reaction.mk _ _) (note _)
    | waiting => exact congrArg (Reaction.mk _ _) (note _)
    | gone => exact congrArg (Reaction.mk _ _) (note _)
  cases purpose with
  | answer => simp only [settle, leave_after_note]
  | look key reading =>
      simp only [settle, fetch, leave_after_note, told]
      rfl
  | lookAgain key reading => simp only [settle, fetch, leave_after_note, note_after_note]

theorem reply_after_send (c : NetworkedCache ι) (id : ι) (exchange : Exchange) (purpose : Purpose)
    (before : List Event) (reply : Except ClientError Reply) :
    (c.send id exchange purpose before).state.reply id reply =
      match exchange.resume c.ns reply with
      | .again next => c.send id next purpose []
      | .finished outcome events => c.settle id outcome events purpose := by
  have asked : (c.note id (.asked exchange purpose)).stage? id = some (.asked exchange purpose) := by
    rw [stage_after_note, if_pos rfl]
  simp only [send, NetworkedCache.reply, asked, note_after_note, settle_after_note]
  rfl

theorem note_books (c : NetworkedCache ι) (id : ι) (stage : RequestStage) :
    (c.note id stage).books = c.books.put c.flights id stage.pursuit? := by
  simp only [books, Books.put, Books.mk.injEq]
  refine ⟨rfl, funext fun j => ?_⟩
  rw [stage_after_note]
  split <;> rfl

theorem leave_books (c : NetworkedCache ι) (id : ι) :
    (c.leave id).books = c.books.put (c.flights.drop id).2 id none := by
  simp only [books, Books.put, Books.mk.injEq]
  refine ⟨rfl, funext fun j => ?_⟩
  rw [stage_after_leave]
  split <;> rfl

theorem leave_ends (orderly : c.books.Orderly) (id : ι) {progress : Progress}
    (idle : progress.computes = false) : c.books.Ends id progress (c.leave id).books := by
  rw [leave_books]
  exact Books.leave_ends orderly id idle

theorem leave_moves (orderly : c.books.Orderly)
    (free : Pursuit.computes (c.books.pursuit? id) = false) (wish : Option (String × Reading))
    {progress : Progress} (idle : progress.computes = false) :
    c.books.Moves id wish progress (c.leave id).books where
  toShifts := (leave_ends orderly id idle).toShifts
  course := by
    rw [leave_books, Books.put_pursuit]
    exact .done free idle

/-- Noting where a caller stands, the flights being the same, moves that caller. -/
theorem note_moves (orderly : c.books.Orderly) (stage : RequestStage) (progress : Progress)
    (agree : c.flights.Agree id stage.pursuit?) {wish : Option (String × Reading)}
    (course : Course wish (c.books.pursuit? id) progress stage.pursuit?) :
    c.books.Moves id wish progress (c.note id stage).books := by
  rw [note_books]
  exact Books.put_moves (Flights.spares_of_equal c.flights id) orderly.sound agree course

theorem fetch_books (c : NetworkedCache ι) (id : ι) (key : String) (reading : Reading)
    (events : List Event) : (c.fetch id key reading events).state.books = (c.leave id).books := by
  simp only [fetch, send, note_books, leave_books]
  simp only [Books.put, Books.mk.injEq]
  refine ⟨rfl, funext fun j => ?_⟩
  split <;> rfl

theorem told_moves {key : String} {turn : Turn} {g : Flights ι}
    (told : c.flights.Told id key turn g) (free : Pursuit.computes (c.books.pursuit? id) = false)
    (reading : Reading) :
    c.books.Moves id (some (key, reading))
      (({ c with flights := g } : NetworkedCache ι).told id key reading turn).progress
      (({ c with flights := g } : NetworkedCache ι).told id key reading turn).state.books := by
  cases turn with
  | waiting =>
      simp only [NetworkedCache.told, Reaction.quiet, note_books]
      exact Books.wait_moves told free reading
  | gone =>
      simp only [NetworkedCache.told, Reaction.quiet, note_books]
      exact Books.wait_moves told free reading
  | held =>
      simp only [NetworkedCache.told, send, note_books]
      exact Books.hold_moves told free rfl _ reading

/-- Whether a caller's turn to write has come is of no concern to the books. -/
theorem write_moves (orderly : c.books.Orderly) (none : c.books.pursuit? id = none)
    (exchange : Exchange) (wish : Option (String × Reading)) :
    c.books.Moves id wish (c.write id exchange).progress (c.write id exchange).state.books := by
  have outside := orderly.agree id
  have free : Pursuit.computes (c.books.pursuit? id) = false := by rw [none]; rfl
  rw [none] at outside
  unfold write
  split
  · exact note_moves orderly (.asked exchange .answer) _ outside (.done free rfl)
  · exact note_moves orderly (.toWrite exchange) _ outside (.done free rfl)

theorem start_moves (orderly : c.books.Orderly) (new : c.books.pursuit? id = none)
    (request : Request) :
    c.books.Moves id request.wish? (c.start id request).progress
      (c.start id request).state.books := by
  have outside := orderly.agree id
  have free : Pursuit.computes (c.books.pursuit? id) = false := by rw [new]; rfl
  rw [new] at outside
  cases request with
  | operate operation =>
      simp only [start]
      split
      · exact write_moves (c := { c with writers := c.writers.join id }) orderly new _ _
      · exact note_moves orderly (.asked _ .answer) _ outside (.done free rfl)
  | fill key reading =>
      exact note_moves orderly (.asked _ (.look key reading)) _ outside (.on free rfl rfl)

theorem turn_moves (orderly : c.books.Orderly) (id : ι) :
    c.books.Moves id ((c.books.pursuit? id).map Pursuit.wish) (c.turn id).progress
      (c.turn id).state.books := by
  unfold turn
  split
  · next exchange found =>
    have stands : c.books.pursuit? id = none := by
      simp only [books, found]
      rfl
    exact write_moves orderly stands exchange _
  · next key reading found =>
    have stands : c.books.pursuit? id = some ⟨.inLine, key, reading⟩ := by
      simp only [books, found]
      rfl
    have queued := orderly.agree id
    rw [stands] at queued ⊢
    exact told_moves (Flights.poll_told orderly.sound queued) (by rw [stands]; rfl) reading
  · exact Books.rest_moves orderly id _ rfl

/-- What a caller does once the server has told it what it asked. -/
theorem settle_moves (orderly : c.books.Orderly) {exchange : Exchange} {purpose : Purpose}
    (found : c.stage? id = some (.asked exchange purpose)) (outcome : Outcome)
    (events : List Event) :
    c.books.Moves id ((c.books.pursuit? id).map Pursuit.wish)
      (c.settle id outcome events purpose).progress
      (c.settle id outcome events purpose).state.books := by
  have stands : c.books.pursuit? id = (RequestStage.asked exchange purpose).pursuit? := by
    simp only [books, found]
    rfl
  have free : Pursuit.computes (c.books.pursuit? id) = false := by
    rw [stands]
    cases purpose <;> rfl
  have agree := orderly.agree id
  rw [stands] at agree ⊢
  cases purpose with
  | answer => exact leave_moves orderly free _ rfl
  | look key reading =>
      simp only [settle]
      split
      · rw [fetch_books]
        exact leave_moves orderly free _ rfl
      · exact told_moves (Flights.join_told orderly.sound agree key) free reading
      · exact leave_moves orderly free _ rfl
  | lookAgain key reading =>
      simp only [settle]
      split
      · rw [fetch_books]
        exact leave_moves orderly free _ rfl
      · exact note_moves orderly (.computing key reading) .compute agree (.on free rfl rfl)
      · exact leave_moves orderly free _ rfl

theorem reply_moves (orderly : c.books.Orderly) (id : ι) (reply : Except ClientError Reply) :
    c.books.Moves id ((c.books.pursuit? id).map Pursuit.wish) (c.reply id reply).progress
      (c.reply id reply).state.books := by
  unfold NetworkedCache.reply
  split
  · next exchange purpose found =>
    split
    · next next resumed =>
      -- An exchange of more than one command stays for the same purpose.
      have stands : c.books.pursuit? id = (RequestStage.asked next purpose).pursuit? := by
        simp only [books, found]
        cases purpose <;> rfl
      have agree := orderly.agree id
      rw [stands] at agree
      refine note_moves orderly (.asked next purpose) _ agree ?_
      rw [← stands]
      exact .rest rfl
    · next outcome events _ => exact settle_moves orderly found outcome events
  · exact Books.rest_moves orderly id _ rfl

theorem stage_of_running {key : String} {reading : Reading}
    (stands : c.books.pursuit? id = some ⟨.computing, key, reading⟩) :
    c.stage? id = some (.computing key reading) := by
  obtain ⟨stage, found, placed⟩ := Option.bind_eq_some_iff.mp stands
  rw [found]
  cases stage with
  | toWrite exchange => cases placed
  | forKey key reading => cases placed
  | computing key reading =>
      cases placed
      rfl
  | asked exchange purpose => cases purpose <;> cases placed

theorem computed_of_running (c : NetworkedCache ι) (id : ι) {key : String} {reading : Reading}
    (stands : c.books.pursuit? id = some ⟨.computing, key, reading⟩) (failure : Option Cause) :
    c.computed id failure =
      match failure with
      | some cause => .quiet (.finished (.error (.compute cause))) (c.leave id)
      | none => c.fetch id key reading [] := by
  cases failure with
  | some cause => simp only [computed, stage_of_running stands]
  | none => simp only [computed, stage_of_running stands]

theorem computed_ends (orderly : c.books.Orderly) (id : ι) (failure : Option Cause) :
    c.books.Ends id (c.computed id failure).progress (c.computed id failure).state.books := by
  unfold computed
  split
  · cases failure with
    | some cause => exact leave_ends orderly id rfl
    | none =>
        simp only [fetch_books]
        exact leave_ends orderly id rfl
  · next free =>
    refine ⟨Books.rest_shifts orderly id, rfl, .inr ⟨rfl, ?_⟩⟩
    rw [Bool.eq_false_iff, Ne, Pursuit.computes_iff]
    rintro ⟨key, reading, stands⟩
    exact free key reading (stage_of_running stands)

end NetworkedCache

/-! ### Caches of either kind -/

namespace Cache

def books : Cache ι → Books ι
  | .embedded c => c.books
  | .networked _ _ c => c.books

variable {c : Cache ι} {id : ι}

theorem start_moves (orderly : c.books.Orderly) (new : c.books.pursuit? id = none) (now : Instant)
    (request : Request) :
    c.books.Moves id request.wish? (c.start now id request).progress
      (c.start now id request).state.books := by
  cases c with
  | embedded c => exact EmbeddedCache.start_moves orderly new now request
  | networked _ _ c => exact NetworkedCache.start_moves orderly new request

theorem turn_moves (orderly : c.books.Orderly) (id : ι) (now : Instant) :
    c.books.Moves id ((c.books.pursuit? id).map Pursuit.wish) (c.turn now id).progress
      (c.turn now id).state.books := by
  cases c with
  | embedded c => exact EmbeddedCache.turn_moves orderly id now
  | networked _ _ c => exact NetworkedCache.turn_moves orderly id

theorem reply_moves (orderly : c.books.Orderly) (id : ι) (reply : Except ClientError Reply) :
    c.books.Moves id ((c.books.pursuit? id).map Pursuit.wish) (c.reply id reply).progress
      (c.reply id reply).state.books := by
  cases c with
  | embedded c => exact Books.rest_moves orderly id _ rfl
  | networked _ _ c => exact NetworkedCache.reply_moves orderly id reply

theorem computed_ends (orderly : c.books.Orderly) (id : ι) (now : Instant)
    (failure : Option Cause) :
    c.books.Ends id (c.computed now id failure).progress
      (c.computed now id failure).state.books := by
  cases c with
  | embedded c => exact EmbeddedCache.computed_ends orderly id now failure
  | networked _ _ c => exact NetworkedCache.computed_ends orderly id failure

theorem leave_ends (orderly : c.books.Orderly) (id : ι) :
    c.books.Ends id .waiting (c.leave id).books := by
  cases c with
  | embedded c => exact EmbeddedCache.leave_ends orderly id rfl
  | networked _ _ c => exact NetworkedCache.leave_ends orderly id rfl

theorem with_store_books (c : Cache ι) (store : Store) : (c.withStore store).books = c.books := by
  cases c <;> rfl

end Cache

end ExpiringCache
