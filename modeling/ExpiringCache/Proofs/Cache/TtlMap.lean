import ExpiringCache.Proofs.Cache.Handle
import ExpiringCache.Proofs.Cache.Readings
import ExpiringCache.Proofs.Store.Live
/-!
The embedded cache as a map with deadlines. The map beside it counts time in plain nanoseconds and
drops a value the moment the clock comes to its deadline; it has no entries that are over, no
transactions and nothing to sweep. It holds bytes, and answers with what the bytes stand for. Every
run of calls, jumps of the clock and sweeps gets the same answers from both.
-/

namespace ExpiringCache

/-- A clock and the values that are held, each with the point at which it is dropped. -/
structure TtlMap where
  clock : Nat
  held : String → Option (Payload × Option Nat)

namespace TtlMap

def start (clock : Nat) : TtlMap := ⟨clock, fun _ => none⟩

/-- Moves the clock, which stops at its last point, and drops what has come to its deadline. -/
def advance (m : TtlMap) (nanos : Nat) : TtlMap :=
  let clock := min (m.clock + nanos) Instant.lastNanos
  ⟨clock, fun k => (m.held k).filter fun value => value.2.all fun deadline => clock < deadline⟩

/-- The deadline of a value put now. A time to live of zero is none, and so is one that the clock
does not live to see. -/
def deadline? (m : TtlMap) (ttl : Duration) : Option Nat :=
  if ttl.toNanos = 0 ∨ Instant.lastNanos < m.clock + ttl.toNanos then none
  else some (m.clock + ttl.toNanos)

def put (m : TtlMap) (key : String) (payload : Payload) (ttl : Duration) : TtlMap :=
  { m with held := fun k => if k = key then some (payload, m.deadline? ttl) else m.held k }

def remove (m : TtlMap) (key : String) : TtlMap :=
  { m with held := fun k => if k = key then none else m.held k }

/-- The bytes that are held for a value: bytes as they are, text in its encoding, and an object as
the JSON library writes it, if it can. -/
def bytesOf : Given → Except CacheError Payload
  | .bytes payload => .ok payload
  | .text s => .ok s.toUTF8.data.toList
  | .object document =>
    match document.encode with
    | .ok payload => .ok payload
    | .error fault => .error (.encode fault.message)

open Classical in
/-- What bytes stand for in the form that was asked for. If they stand for nothing, the key is
named. -/
noncomputable def decoded (key : String) (payload : Payload) (reading : Reading) : Outcome :=
  if found : ∃ value, reading.Stands payload value then .ok found.choose
  else .error (.decode key (reading.wording payload))

/-- What a reader is given: bytes as they are held, and everything else decoded. -/
noncomputable def read (key : String) (payload : Payload) : Reading → Outcome
  | .bytes => .ok (.bytes payload)
  | reading => decoded key payload reading

noncomputable def call (m : TtlMap) : HandleCall → Outcome × TtlMap
  | .store key value ttl ifAbsent =>
    match bytesOf value with
    | .error e => (.error e, m)
    | .ok payload =>
      if ifAbsent then
        if (m.held key).isSome then (.ok (.flag false), m)
        else (.ok (.flag true), m.put key payload ttl)
      else (.ok .done, m.put key payload ttl)
  | .get key reading =>
    match m.held key with
    | some (payload, _) => (read key payload reading, m)
    | none => (.error (.notFound key), m)
  | .exists key => (.ok (.flag (m.held key).isSome), m)
  | .delete key => (.ok .done, m.remove key)
  | .clear => (.ok .done, { m with held := fun _ => none })

def timeLeft (m : TtlMap) (key : String) : Except CacheError (Option Duration) :=
  match m.held key with
  | some (_, deadline) => .ok (deadline.map fun deadline => .ofNanos (deadline - m.clock))
  | none => .error (.notFound key)

end TtlMap

inductive HandleEvent (ι : Type) where
  | call (id : ι) (call : HandleCall)
  | timeLeft (key : String)
  | advance (length : Duration)
  | sweep

inductive HandleAnswer where
  | outcome (outcome : Outcome)
  | unanswered
  | timeLeft (left : Except CacheError (Option Duration))

def HandleEvent.isSweep {ι : Type} : HandleEvent ι → Bool
  | .sweep => true
  | _ => false

/-- The answers to the calls of a run over a cache. Jumps and sweeps are not answered. -/
def Cache.answers {ι : Type} [DecidableEq ι] (c : Cache ι) (now : Instant) :
    List (HandleEvent ι) → List HandleAnswer
  | [] => []
  | .call id call :: rest =>
    let (outcome, after) := c.call now id call
    outcome.elim .unanswered .outcome :: after.answers now rest
  | .timeLeft key :: rest => .timeLeft (c.timeLeft now key) :: c.answers now rest
  | .advance length :: rest => c.answers (now.later length) rest
  | .sweep :: rest => (c.swept now).answers now rest

noncomputable def TtlMap.answers {ι : Type} (m : TtlMap) : List (HandleEvent ι) → List HandleAnswer
  | [] => []
  | .call _ call :: rest =>
    let (outcome, after) := m.call call
    .outcome outcome :: after.answers rest
  | .timeLeft key :: rest => .timeLeft (m.timeLeft key) :: m.answers rest
  | .advance length :: rest => (m.advance length.toNanos).answers rest
  | .sweep :: rest => m.answers rest

/-! ### What is held and what is read -/

namespace TtlMap

theorem bytes_of_eq (value : Given) : bytesOf value = value.payload := by
  cases value with
  | bytes payload => rfl
  | text s => exact congrArg Except.ok (Payload.of_text_eq s).symm
  | object document =>
      cases encoded : document.encode with
      | ok payload => simp only [bytesOf, Given.payload, Payload.ofDocument, encoded]
      | error fault => simp only [bytesOf, Given.payload, Payload.ofDocument, encoded]

/-- Bytes stand for one value at most, so that nothing is left to choice. -/
theorem decoded_of_stands (key : String) {payload : Payload} {reading : Reading} {value : Value}
    (stands : reading.Stands payload value) : decoded key payload reading = .ok value := by
  have found : ∃ value, reading.Stands payload value := ⟨value, stands⟩
  rw [decoded, dif_pos found, found.choose_spec.unique stands]

theorem decoded_eq (key : String) (payload : Payload) (reading : Reading) :
    decoded key payload reading = reading.of key payload := by
  by_cases found : ∃ value, reading.Stands payload value
  · obtain ⟨value, stands⟩ := found
    rw [decoded_of_stands key stands, (Reading.of_eq_ok_iff key value).mpr stands]
  · rw [decoded, dif_neg found, Reading.of_nothing key (not_exists.mp found)]

theorem read_eq (key : String) (payload : Payload) (reading : Reading) :
    read key payload reading = reading.of key payload := by
  cases reading with
  | bytes => rfl
  | text => exact decoded_eq key payload .text
  | whole => exact decoded_eq key payload .whole
  | json shape => exact decoded_eq key payload (.json shape)

end TtlMap

/-! ### What ties the two together -/

/-- The map holds what the store shows. Entries that are over are no part of it. -/
structure Store.Shows (store : Store) (now : Instant) (m : TtlMap) : Prop where
  clock : m.clock = now.toNanos
  held : ∀ k, m.held k =
    (store.live? now k).map fun e => (e.payload, e.deadline.map Instant.toNanos)

namespace TtlMap

variable {store : Store} {now : Instant} {m : TtlMap}

theorem shown_nothing (now : Instant) : Store.empty.Shows now (start now.toNanos) :=
  ⟨rfl, fun _ => rfl⟩

theorem held_of_live (shown : store.Shows now m) {key : String} {e : Entry}
    (live : store.live? now key = some e) :
    m.held key = some (e.payload, e.deadline.map Instant.toNanos) := by
  rw [shown.held, live]
  rfl

theorem held_of_missing (shown : store.Shows now m) {key : String}
    (missing : store.live? now key = none) : m.held key = none := by
  rw [shown.held, missing]
  rfl

theorem is_held_iff_live (shown : store.Shows now m) (key : String) :
    (m.held key).isSome = store.isLive now key := by
  rw [shown.held, Option.isSome_map]
  rfl

theorem clock_after_advance (m : TtlMap) (nanos : Nat) :
    (m.advance nanos).clock = min (m.clock + nanos) Instant.lastNanos := rfl

theorem held_after_advance (m : TtlMap) (nanos : Nat) (k : String) :
    (m.advance nanos).held k = (m.held k).filter fun value =>
      value.2.all fun deadline => (m.advance nanos).clock < deadline := rfl

/-- Dropping a value at its deadline and hiding its entry from then on come to the same. -/
theorem drop_or_hide (e : Entry) {now later : Instant} (order : now.toNanos ≤ later.toNanos) :
    (((some e).filter fun e => !e.isExpired now).map fun e =>
      (e.payload, e.deadline.map Instant.toNanos)).filter
        (fun value => value.2.all fun deadline => later.toNanos < deadline) =
      ((some e).filter fun e => !e.isExpired later).map fun e =>
        (e.payload, e.deadline.map Instant.toNanos) := by
  have dropped : ((e.deadline.map Instant.toNanos).all fun deadline => later.toNanos < deadline) =
      !e.isExpired later := by
    cases found : e.deadline with
    | none => simp [Entry.isExpired, found]
    | some deadline =>
        have expired : e.isExpired later = deadline.reached later := by
          simp [Entry.isExpired, found]
        rw [expired, Option.map_some, Option.all_some]
        exact deadline.ahead_iff_not_reached later
  cases past : e.isExpired now with
  | true => simp [Option.filter, past, Entry.expired_later past order]
  | false =>
      cases pastLater : e.isExpired later with
      | true => simp [Option.filter, past, pastLater, dropped]
      | false => simp [Option.filter, past, pastLater, dropped]

/-- A jump of the clock drops from the map what it takes from view in the store. -/
theorem shown_after_jump (shown : store.Shows now m) (length : Duration) :
    store.Shows (now.later length) (m.advance length.toNanos) := by
  have clock : (m.advance length.toNanos).clock = (now.later length).toNanos := by
    rw [clock_after_advance, Instant.later_nanos, shown.clock]
  refine ⟨clock, ?_⟩
  intro k
  rw [held_after_advance, clock, shown.held, Store.live_of_entries, Store.live_of_entries]
  cases store.entries.get? k with
  | none => rfl
  | some e => exact drop_or_hide e (Instant.nanos_le_later now length)

theorem deadline_of_write (clock : m.clock = now.toNanos) (payload : Payload) (ttl : Duration) :
    (Entry.write payload now ttl.ttl?).deadline.map Instant.toNanos = m.deadline? ttl := by
  unfold deadline? Entry.write
  rw [clock]
  by_cases zero : ttl.toNanos = 0
  · simp [Duration.ttl_of_zero zero, zero]
  · rw [Duration.ttl_of_positive zero]
    cases sum : now.plus? ttl with
    | none => simp [sum, (Instant.plus_eq_none_iff now ttl).mp sum]
    | some deadline =>
        have value := (Instant.plus_eq_some_iff now ttl deadline).mp sum
        have bound := deadline.to_nanos_le_last
        have fits : ¬Instant.lastNanos < now.toNanos + ttl.toNanos := by omega
        simp [sum, zero, fits, value]

theorem write_is_live (payload : Payload) (now : Instant) (ttl : Duration) :
    (Entry.write payload now ttl.ttl?).isExpired now = false := by
  apply Entry.not_expired_within
  omega

theorem shown_after_put (shown : store.Shows now m) (key : String) (payload : Payload)
    (ttl : Duration) :
    (store.perform now (.set key payload ttl)).2.2.Shows now (m.put key payload ttl) := by
  refine ⟨shown.clock, ?_⟩
  intro k
  rw [Store.live_after_set]
  by_cases same : k = key
  · rw [if_pos same]
    simp only [put, if_pos same, Option.filter, write_is_live, Bool.not_false, if_true,
      Option.map_some, deadline_of_write shown.clock payload ttl]
    rfl
  · rw [if_neg same]
    simp only [put, if_neg same, shown.held]

theorem shown_after_read (shown : store.Shows now m) (key : String) (reading : Reading) :
    (store.fetch now key reading).2.Shows now m := by
  refine ⟨shown.clock, ?_⟩
  intro k
  rw [Store.live_after_fetch, shown.held]

theorem shown_after_remove (shown : store.Shows now m) (key : String) :
    (store.perform now (.delete key)).2.2.Shows now (m.remove key) := by
  refine ⟨shown.clock, ?_⟩
  intro k
  rw [Store.live_after_delete store now key (Nat.le_refl _)]
  by_cases same : k = key
  · simp [remove, same]
  · simp [remove, same, shown.held]

theorem shown_after_set_if_absent (shown : store.Shows now m) (key : String) (payload : Payload)
    (ttl : Duration) :
    (store.perform now (.setIfAbsent key payload ttl)).2.2.Shows now
      (if (m.held key).isSome then m else m.put key payload ttl) := by
  rw [is_held_iff_live shown]
  cases live : store.isLive now key with
  | true =>
      refine ⟨shown.clock, ?_⟩
      intro k
      rw [Store.live_after_set_if_absent]
      simp [live, shown.held]
  | false =>
      rw [Store.perform_set_if_absent]
      simp only [live, Bool.false_eq_true, if_false]
      exact shown_after_put shown key payload ttl

theorem shown_after_sweep (shown : store.Shows now m) : (store.sweep now).2.Shows now m := by
  refine ⟨shown.clock, ?_⟩
  intro k
  rw [Store.live_after_sweep store now (Nat.le_refl _), shown.held]

theorem call_without_encoding (m : TtlMap) {asked : HandleCall} {e : CacheError}
    (refused : asked.operation = .error e) : m.call asked = (.error e, m) := by
  cases asked with
  | store key value ttl ifAbsent =>
      simp only [HandleCall.operation] at refused
      cases encoded : value.payload with
      | ok payload =>
          rw [encoded] at refused
          cases refused
      | error e' =>
          rw [encoded] at refused
          cases refused
          simp [call, bytes_of_eq, encoded]
  | _ => cases refused

theorem map_after_get (m : TtlMap) (key : String) (reading : Reading) :
    (m.call (.get key reading)).2 = m := by
  simp only [call]
  cases m.held key <;> rfl

/-- One operation: the same answer, and the map still holds what the store shows. -/
theorem call_matches_perform (shown : store.Shows now m) {asked : HandleCall}
    {operation : Operation} (asks : asked.operation = .ok operation) :
    (m.call asked).1 = (store.perform now operation).1 ∧
      (store.perform now operation).2.2.Shows now (m.call asked).2 := by
  cases asked with
  | store key value ttl ifAbsent =>
      obtain ⟨payload, encoded, rfl⟩ := HandleCall.operation_of_store asks
      cases ifAbsent with
      | false =>
          simp only [call, bytes_of_eq, encoded, Bool.false_eq_true, if_false]
          exact ⟨rfl, shown_after_put shown key payload ttl⟩
      | true =>
          have after := shown_after_set_if_absent shown key payload ttl
          simp only [call, bytes_of_eq, encoded, if_true]
          rw [is_held_iff_live shown] at after ⊢
          rw [Store.perform_set_if_absent] at after ⊢
          cases live : store.isLive now key with
          | true => simpa [live] using after
          | false => simpa [live] using after
  | get key reading =>
      cases asks
      refine ⟨?_, ?_⟩
      · change _ = (store.fetch now key reading).1
        cases live : store.live? now key with
        | some e =>
            rw [Store.fetch_of_live store now live]
            simp [call, held_of_live shown live, read_eq]
        | none =>
            rw [Store.fetch_of_missing store now live]
            simp [call, held_of_missing shown live]
      · rw [map_after_get]
        exact shown_after_read shown key reading
  | «exists» key =>
      cases asks
      refine ⟨?_, shown⟩
      simp [call, Store.perform, is_held_iff_live shown]
  | delete key =>
      cases asks
      exact ⟨(Store.perform_delete store now key).symm, shown_after_remove shown key⟩
  | clear =>
      cases asks
      refine ⟨rfl, shown.clock, ?_⟩
      intro k
      rw [Store.live_after_clear]
      rfl

theorem time_left_of_deadline (clock : m.clock = now.toNanos) (e : Entry) :
    ((e.deadline.map Instant.toNanos).map fun deadline => .ofNanos (deadline - m.clock)) =
      e.timeLeft now := by
  rw [Option.map_map, Entry.timeLeft]
  apply congrArg (fun left => e.deadline.map left)
  funext deadline
  have difference := Instant.since_nanos deadline now
  rw [← clock] at difference
  exact (congrArg Duration.ofNanos difference).symm.trans (Duration.of_nanos_to_nanos _)

theorem time_left_matches (shown : store.Shows now m) (key : String) :
    m.timeLeft key = match store.timeLeft? now key with
      | some left => .ok left
      | none => .error (.notFound key) := by
  unfold timeLeft Store.timeLeft?
  cases live : store.live? now key with
  | none => rw [held_of_missing shown live]; rfl
  | some e =>
      rw [held_of_live shown live]
      exact congrArg _ (time_left_of_deadline shown.clock e)

/-- What a run keeps: from any state in which the map holds what the store shows, the answers to
all that follows are the same. -/
theorem answers_match {ι : Type} [DecidableEq ι] (events : List (HandleEvent ι)) :
    ∀ (c : EmbeddedCache ι) (now : Instant) (m : TtlMap), c.store.Shows now m →
      (Cache.embedded c).answers now events = m.answers events := by
  induction events with
  | nil => intros; rfl
  | cons event rest ih =>
      intro c now m shown
      cases event with
      | call id asked =>
          simp only [Cache.answers, answers]
          cases asks : asked.operation with
          | ok operation =>
              obtain ⟨same, after⟩ := call_matches_perform shown asks
              rw [Cache.call_of_embedded c now id asks, same]
              exact congrArg (_ :: ·) (ih _ now _ after)
          | error e =>
              have refused : m.call asked = (.error e, m) :=
                call_without_encoding m asks
              rw [Cache.call_without_encoding _ now id asks, refused]
              exact congrArg (_ :: ·) (ih c now m shown)
      | timeLeft key =>
          simp only [Cache.answers, answers, time_left_matches shown key]
          exact congrArg (_ :: ·) (ih c now m shown)
      | advance length =>
          simp only [Cache.answers, answers]
          exact ih c _ _ (shown_after_jump shown length)
      | sweep =>
          simp only [Cache.answers, answers]
          exact ih { c with store := (c.store.sweep now).2 } now m (shown_after_sweep shown)

theorem answers_without_sweeps {ι : Type} (events : List (HandleEvent ι)) :
    ∀ m : TtlMap, m.answers (events.filter fun event => !event.isSweep) = m.answers events := by
  induction events with
  | nil => intro m; rfl
  | cons event rest ih =>
      intro m
      cases event with
      | call id asked => exact congrArg (_ :: ·) (ih _)
      | timeLeft key => exact congrArg (_ :: ·) (ih m)
      | advance length => exact ih _
      | sweep => exact ih m

end TtlMap

/-- A new embedded cache answers every run as a map with deadlines does, so that sweeps, wherever
they come, change no answer. What the map holds for a value of a shape stands for that value again,
unless it lies too deep. -/
theorem embedded_cache_refines_ttl_map {ι : Type} [DecidableEq ι] :
    (∀ (now : Instant) (events : List (HandleEvent ι)),
      (Cache.embedded .empty).answers now events = (TtlMap.start now.toNanos).answers events ∧
        (Cache.embedded .empty).answers now (events.filter fun event => !event.isSweep) =
          (Cache.embedded .empty).answers now events) ∧
      ∀ {shape : Json.Shape} {v : Json}, shape.Holds v → ∀ key, ∃ payload,
        TtlMap.bytesOf (.object (.json v)) = .ok payload ∧
          v.Bound key (TtlMap.read key payload (.json shape)) := by
  constructor
  · intro now events
    have start := TtlMap.shown_nothing now
    have same := TtlMap.answers_match events .empty now _ start
    refine ⟨same, ?_⟩
    rw [TtlMap.answers_match _ .empty now _ start, same]
    exact TtlMap.answers_without_sweeps events _
  · intro shape v holds key
    refine ⟨v.bytes, rfl, ?_⟩
    rw [TtlMap.read_eq]
    exact Json.bound_of_held holds key

end ExpiringCache
