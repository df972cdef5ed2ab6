import ExpiringCache.Proofs.Remote.Clearing
import ExpiringCache.Simulation.State
/-!
Failures of round trips, as callers of a networked cache are told of them. A round trip that brings
no value ends its operation as a failure of the backend, whatever was asked; a key is said to be
missing exactly if the server says so; and a value is found unreadable only if there is one. So
nobody takes a failure for a miss or a value.
-/

namespace ExpiringCache

/-! ### Replies with an error in them -/

inductive Reply.Erroneous : Reply → Prop where
  | error (code : String) (detail : Option String) : Erroneous (.error code detail)
  | item {items : List Reply} {item : Reply} (member : item ∈ items) (erroneous : Erroneous item) :
    Erroneous (.array items)

inductive RoundTrip where
  | answered (reply : Reply)
  | timedOut
  | closed

def RoundTrip.brings : RoundTrip → Except ClientError Reply
  | answered reply => .ok reply
  | timedOut => .error .timedOut
  | closed => .error .closed

def Failed : Except ClientError Reply → Prop
  | .ok reply => reply.Erroneous
  | .error _ => True

namespace Reply

theorem error_code_is_no_type (code : String) : kindOfCode code ≠ some .typeError := by
  unfold kindOfCode
  split <;> simp

theorem client_error_is_no_type_error (code : String) (detail : Option String) :
    (clientError code detail).isTypeError = false := by
  unfold clientError
  split
  · next kind found =>
    have other := error_code_is_no_type code
    rw [found] at other
    cases kind <;> first | rfl | exact absurd rfl other
  · rfl

theorem first_error_of_list {items : List Reply} :
    ∀ {e : ClientError}, firstErrorOf items = some e →
      ∃ item ∈ items, item.firstError = some e := by
  induction items with
  | nil => nofun
  | cons item rest ih =>
      intro e found
      rw [firstErrorOf] at found
      cases first : item.firstError with
      | some e' =>
          rw [first] at found
          exact ⟨item, List.mem_cons_self, first.trans found⟩
      | none =>
          rw [first] at found
          obtain ⟨other, member, found⟩ := ih found
          exact ⟨other, List.mem_cons_of_mem item member, found⟩

theorem first_error_of_member {items : List Reply} {item : Reply} (member : item ∈ items)
    (erroneous : item.firstError ≠ none) : firstErrorOf items ≠ none := by
  induction items with
  | nil => cases member
  | cons first rest ih =>
      rw [firstErrorOf]
      cases found : first.firstError with
      | some e => exact Option.some_ne_none e
      | none =>
          rcases List.mem_cons.mp member with rfl | later
          · exact absurd found erroneous
          · exact ih later

theorem first_error_of_erroneous {reply : Reply} (erroneous : reply.Erroneous) :
    reply.firstError ≠ none := by
  induction erroneous with
  | error code detail => exact Option.some_ne_none _
  | item member _ ih =>
      rw [firstError]
      exact first_error_of_member member ih

/-- What is found first in a reply is an error of the server's, which is none of conversion. -/
theorem erroneous_of_first_error {reply : Reply} {e : ClientError}
    (found : reply.firstError = some e) : reply.Erroneous ∧ e.isTypeError = false := by
  match reply with
  | .error code detail =>
      cases found
      exact ⟨.error code detail, client_error_is_no_type_error code detail⟩
  | .array items =>
      rw [firstError] at found
      obtain ⟨item, member, first⟩ := first_error_of_list found
      obtain ⟨erroneous, kind⟩ := erroneous_of_first_error first
      exact ⟨.item member erroneous, kind⟩

end Reply

/-! ### Conversions -/

namespace Exchange

variable {α : Type} {trip : RoundTrip} (ns : Namespace)

theorem convert_of_failed (conversion : Reply → Except ClientError α)
    (failed : Failed trip.brings) :
    ∃ e, convert conversion trip.brings = .error e ∧ e.isTypeError = false := by
  cases trip with
  | timedOut => exact ⟨.timedOut, rfl, rfl⟩
  | closed => exact ⟨.closed, rfl, rfl⟩
  | answered reply =>
      obtain ⟨e, first⟩ := Option.ne_none_iff_exists'.mp (Reply.first_error_of_erroneous failed)
      refine ⟨e, ?_, (Reply.erroneous_of_first_error first).2⟩
      simp only [convert, RoundTrip.brings, Except.bind, Reply.read, Reply.checked, first]

/-- A reply that may be nil: an error in it comes first, and nil is nothing. -/
theorem convert_option_cases (conversion : Reply → Except ClientError α) (trip : RoundTrip) :
    (Failed trip.brings ∧ ∃ e, convert (Reply.toOption conversion) trip.brings = .error e ∧
        e.isTypeError = false) ∨
      (trip = .answered .nil ∧ convert (Reply.toOption conversion) trip.brings = .ok none) ∨
      ∃ reply, trip = .answered reply ∧ reply ≠ .nil ∧ ¬reply.Erroneous ∧
        convert (Reply.toOption conversion) trip.brings = (conversion reply).map some := by
  by_cases failed : Failed trip.brings
  · exact .inl ⟨failed, convert_of_failed _ failed⟩
  · right
    cases trip with
    | timedOut => exact absurd trivial failed
    | closed => exact absurd trivial failed
    | answered reply =>
        have plain : reply.firstError = none := by
          cases first : reply.firstError with
          | none => rfl
          | some e => exact absurd (Reply.erroneous_of_first_error first).1 failed
        have converted : convert (Reply.toOption conversion) (RoundTrip.answered reply).brings =
            Reply.toOption conversion reply := Reply.read_of_plain _ plain
        by_cases nothing : reply = .nil
        · subst nothing
          exact .inl ⟨rfl, converted⟩
        · refine .inr ⟨reply, rfl, nothing, failed, converted.trans ?_⟩
          cases reply with
          | nil => exact absurd rfl nothing
          | _ => rfl

/-! ### Single replies -/

theorem backend_of_failed {next : Next} {op : String} {e : ClientError}
    (same : next = failed op e) :
    ∃ why events, next = .finished (.error (.backend why)) events :=
  ⟨_, _, same⟩

/-- A round trip that fails ends its exchange, whatever it was for. -/
theorem resume_of_failed (exchange : Exchange) (failed : Failed trip.brings) :
    ∃ why events, exchange.resume ns trip.brings = .finished (.error (.backend why)) events := by
  have refused : ∀ {β : Type} (conversion : Reply → Except ClientError β),
      ∃ e, convert conversion trip.brings = .error e ∧ e.isTypeError = false :=
    fun conversion => convert_of_failed conversion failed
  cases exchange with
  | get key reading =>
      cases reading with
      | whole =>
          obtain ⟨e, converted, kind⟩ := refused (Reply.toOption (Reply.toWhole (.signed 64)))
          apply backend_of_failed
          simp only [resume, gotten, converted, kind]
          rfl
      | _ =>
          obtain ⟨e, converted, _⟩ := refused (Reply.toOption Reply.toBytes)
          apply backend_of_failed
          simp only [resume, gotten, converted]
          rfl
  | «exists» | delete | deletePage =>
      obtain ⟨e, converted, _⟩ := refused (Reply.toWhole (.signed 64))
      apply backend_of_failed
      simp only [resume, converted]
      rfl
  | set key payload ttl =>
      obtain ⟨e, converted, _⟩ := refused fun _ => .ok ()
      apply backend_of_failed
      simp only [resume, converted]
      rfl
  | setIfAbsent key payload ttl =>
      obtain ⟨e, converted, _⟩ := refused (Reply.toOption Reply.toText)
      apply backend_of_failed
      simp only [resume, converted]
      rfl
  | page cursor removed =>
      obtain ⟨e, converted, _⟩ := refused Reply.toPage
      apply backend_of_failed
      simp only [resume, converted]
      rfl

/-- What a caller may be told of a key that it asked the server for. -/
inductive Verdict (key : String) (reading : Reading) : RoundTrip → Outcome → Prop where
  | missing : Verdict key reading (.answered .nil) (.error (.notFound key))
  | found {trip value} (nonNil : trip ≠ .answered .nil) : Verdict key reading trip (.ok value)
  | undecoded {reply why} (other : reading ≠ .bytes) (nonNil : reply ≠ .nil)
      (plain : ¬reply.Erroneous) : Verdict key reading (.answered reply) (.error (.decode key why))
  | failed {trip why} (nonNil : trip ≠ .answered .nil) :
      Verdict key reading trip (.error (.backend why))

theorem Verdict.not_found_iff {key name : String} {reading : Reading} {outcome : Outcome}
    (verdict : Verdict key reading trip outcome) :
    outcome = .error (.notFound name) ↔ key = name ∧ trip = .answered .nil := by
  cases verdict with
  | missing => exact ⟨fun same => by cases same; exact ⟨rfl, rfl⟩, fun ⟨same, _⟩ => same ▸ rfl⟩
  | found nonNil => exact ⟨nofun, fun ⟨_, nil⟩ => absurd nil nonNil⟩
  | undecoded _ nonNil => exact ⟨nofun, fun ⟨_, nil⟩ => absurd (RoundTrip.answered.inj nil) nonNil⟩
  | failed nonNil => exact ⟨nofun, fun ⟨_, nil⟩ => absurd nil nonNil⟩

section Bytes

variable (key : String) {reading : Reading} (other : reading ≠ .whole)
  {reply : Except ClientError Reply}

include other

theorem gotten_of_payload {payload : Payload}
    (converted : convert (Reply.toOption Reply.toBytes) reply = .ok (some payload)) :
    gotten key reply reading = .finished (reading.of key payload) [] := by
  cases reading with
  | whole => exact absurd rfl other
  | _ => simp only [gotten, converted]

theorem gotten_of_nil : gotten key (.ok .nil) reading = .finished (.error (.notFound key)) [] := by
  cases reading with
  | whole => exact absurd rfl other
  | _ => rfl

theorem gotten_of_misread {e : ClientError}
    (converted : convert (Reply.toOption Reply.toBytes) reply = .error e) :
    gotten key reply reading = Exchange.failed "GET" e := by
  cases reading with
  | whole => exact absurd rfl other
  | _ => simp only [gotten, converted]

end Bytes

theorem gotten_verdict (key : String) (reading : Reading) (trip : RoundTrip) :
    ∃ outcome events, gotten key trip.brings reading = .finished outcome events ∧
      Verdict key reading trip outcome := by
  have lost : Failed trip.brings → ∃ outcome events,
      gotten key trip.brings reading = .finished outcome events ∧
        Verdict key reading trip outcome := by
    intro failed
    obtain ⟨why, events, resumed⟩ := resume_of_failed ⟨[]⟩ (.get key reading) failed
    refine ⟨_, events, resumed, .failed ?_⟩
    rintro rfl
    cases failed
  by_cases whole : reading = .whole
  · subst whole
    rcases convert_option_cases (Reply.toWhole (.signed 64)) trip with
      ⟨failed, _⟩ | ⟨rfl, _⟩ | ⟨reply, rfl, nonNil, plain, converted⟩
    · exact lost failed
    · exact ⟨_, [], rfl, .missing⟩
    · have there : RoundTrip.answered reply ≠ .answered .nil := mt RoundTrip.answered.inj nonNil
      simp only [gotten, converted]
      cases reply.toWhole (.signed 64) with
      | ok n => exact ⟨_, [], rfl, .found there⟩
      | error e =>
          cases kind : e.isTypeError with
          | true =>
              have other : Reading.whole ≠ .bytes := Reading.noConfusion
              refine ⟨.error (.decode key e.message), [], ?_, .undecoded other nonNil plain⟩
              simp only [Except.map, kind, if_true]
          | false =>
              refine ⟨.error (.backend ("Redis " ++ "GET" ++ " failed: " ++ e.message)),
                [.commandFailed "GET" e.message], ?_, .failed there⟩
              simp only [Except.map, kind, Bool.false_eq_true, if_false]
              rfl
  · rcases convert_option_cases Reply.toBytes trip with
      ⟨failed, _⟩ | ⟨rfl, _⟩ | ⟨reply, rfl, nonNil, plain, converted⟩
    · exact lost failed
    · exact ⟨_, [], gotten_of_nil key whole, .missing⟩
    · have there : RoundTrip.answered reply ≠ .answered .nil := mt RoundTrip.answered.inj nonNil
      cases bytes : reply.toBytes with
      | error e =>
          rw [bytes] at converted
          exact ⟨_, _, gotten_of_misread key whole converted, .failed there⟩
      | ok payload =>
          rw [bytes] at converted
          refine ⟨_, [], gotten_of_payload key whole converted, ?_⟩
          cases read : reading.of key payload with
          | ok value => exact .found there
          | error e =>
              obtain ⟨other, why, rfl⟩ := Reading.error_of_of read
              exact .undecoded other nonNil plain

def IsGet : Exchange → Prop
  | .get .. => True
  | _ => False

/-- Any other exchange is done, goes on, or fails with the backend. -/
theorem resume_of_other {exchange : Exchange} (other : ¬exchange.IsGet)
    (reply : Except ClientError Reply) :
    (∃ next, exchange.resume ns reply = .again next ∧ ¬next.IsGet) ∨
      (∃ value events, exchange.resume ns reply = .finished (.ok value) events) ∨
      ∃ why events, exchange.resume ns reply = .finished (.error (.backend why)) events := by
  have onwards : ∀ next removed,
      (∃ further, afterPage ns next removed = .again further ∧ ¬further.IsGet) ∨
        ∃ value events, afterPage ns next removed = .finished (.ok value) events := by
    intro next removed
    unfold afterPage
    split
    · exact .inr ⟨_, _, rfl⟩
    · exact .inl ⟨_, rfl, id⟩
  cases exchange with
  | get key reading => exact absurd trivial other
  | «exists» | set | setIfAbsent | delete =>
      rw [resume]
      split
      · exact .inr (.inl ⟨_, _, rfl⟩)
      · exact .inr (.inr (backend_of_failed rfl))
  | page cursor removed =>
      rw [resume]
      split
      · exact (onwards _ _).imp_right .inl
      · exact .inl ⟨_, rfl, id⟩
      · exact .inr (.inr (backend_of_failed rfl))
  | deletePage keys next removed =>
      rw [resume]
      split
      · exact (onwards _ _).imp_right .inl
      · exact .inr (.inr (backend_of_failed rfl))

/-- A key that holds something is found to, and only nil says that it held nothing. -/
theorem resume_of_set_if_absent (key : String) (payload : Payload) (ttl : Duration)
    (trip : RoundTrip) :
    ∃ outcome events,
      (setIfAbsent key payload ttl).resume ns trip.brings = .finished outcome events ∧
        (outcome = .ok (.flag false) ↔ trip = .answered .nil) := by
  rcases convert_option_cases Reply.toText trip with
    ⟨failed, _⟩ | ⟨rfl, _⟩ | ⟨reply, rfl, nonNil, plain, converted⟩
  · obtain ⟨why, events, resumed⟩ := resume_of_failed ns (.setIfAbsent key payload ttl) failed
    refine ⟨_, events, resumed, ?_, ?_⟩
    · intro told
      cases told
    · rintro rfl
      cases failed
  · exact ⟨_, [], rfl, fun _ => rfl, fun _ => rfl⟩
  · have there : RoundTrip.answered reply ≠ .answered .nil := mt RoundTrip.answered.inj nonNil
    simp only [resume, converted]
    cases reply.toText with
    | ok text =>
        refine ⟨_, [], rfl, ?_, fun same => absurd same there⟩
        intro told
        cases told
    | error e =>
        refine ⟨_, _, rfl, ?_, fun same => absurd same there⟩
        intro told
        cases told

theorem finished_of_single {operation : Operation} (single : operation ≠ .clear)
    (trip : RoundTrip) :
    ∃ outcome events, (ofOperation operation).resume ns trip.brings = .finished outcome events := by
  cases operation with
  | clear => exact absurd rfl single
  | get key reading =>
      obtain ⟨outcome, events, ended, _⟩ := gotten_verdict key reading trip
      exact ⟨outcome, events, ended⟩
  | setIfAbsent key payload ttl =>
      obtain ⟨outcome, events, ended, _⟩ := resume_of_set_if_absent ns key payload ttl trip
      exact ⟨outcome, events, ended⟩
  | «exists» key =>
      rw [ofOperation, resume]
      split <;> exact ⟨_, _, rfl⟩
  | set key payload ttl =>
      rw [ofOperation, resume]
      split <;> exact ⟨_, _, rfl⟩
  | delete key =>
      rw [ofOperation, resume]
      split <;> exact ⟨_, _, rfl⟩

end Exchange

/-! ### Dialogues -/

namespace NetworkedCache

variable {ι : Type} [DecidableEq ι] (c : NetworkedCache ι) (id : ι)

/-- A round trip that fails is the last one, and is what the caller is told of. -/
theorem backend_of_failed_round (trips : List RoundTrip) :
    ∀ (exchange : Exchange) (events : List Event),
      let talk := converse id (c.send id exchange .answer events) (trips.map (·.brings))
      ∀ round ∈ talk.rounds, Failed round.2 →
        ∃ why, talk.progress = .finished (.error (.backend why)) := by
  induction trips with
  | nil => exact fun _ _ _ member => absurd member List.not_mem_nil
  | cons trip trips ih =>
      intro exchange events talk round member failed
      have first := converse_after_send c id exchange events trip.brings (trips.map (·.brings))
      have split : talk = _ := first
      rw [split] at member ⊢
      rcases List.mem_cons.mp member with rfl | later
      · obtain ⟨why, told, ended⟩ := exchange.resume_of_failed c.ns failed
        exact ⟨why, by simp only [ended, Dialogue.after]⟩
      · cases resumed : exchange.resume c.ns trip.brings with
        | finished outcome told =>
            simp only [resumed] at later
            cases later
        | again next =>
            simp only [resumed, Dialogue.after] at later ⊢
            exact ih next [] round later failed

/-- Whatever does not ask for a value fails with the backend or not at all. -/
theorem backend_of_error (replies : List (Except ClientError Reply)) :
    ∀ {exchange : Exchange} (events : List Event) {e : CacheError}, ¬exchange.IsGet →
      (converse id (c.send id exchange .answer events) replies).progress = .finished (.error e) →
      ∃ why, e = .backend why := by
  induction replies with
  | nil => exact fun _ _ _ ended => nomatch ended
  | cons reply replies ih =>
      intro exchange events e other ended
      rw [converse_after_send] at ended
      rcases Exchange.resume_of_other c.ns other reply with
        ⟨next, resumed, other⟩ | ⟨value, told, resumed⟩ | ⟨why, told, resumed⟩
      · rw [resumed] at ended
        exact ih [] other ended
      · rw [resumed] at ended
        cases ended
      · rw [resumed] at ended
        cases ended
        exact ⟨why, rfl⟩

theorem converse_single {operation : Operation} (single : operation ≠ .clear) (trip : RoundTrip)
    (replies : List (Except ClientError Reply)) :
    ∃ outcome events,
      (Exchange.ofOperation operation).resume c.ns trip.brings = .finished outcome events ∧
        converse id (c.send id (.ofOperation operation) .answer []) (trip.brings :: replies) =
          ⟨[((Exchange.ofOperation operation).command c.ns, trip.brings)], .finished outcome⟩ := by
  obtain ⟨outcome, events, ended⟩ := Exchange.finished_of_single c.ns single trip
  refine ⟨outcome, events, ended, ?_⟩
  rw [converse_after_send, ended]
  rfl

end NetworkedCache

/-- What callers may rely on once an operation has been told how its round trips went. A round trip
without a reply, or with an error anywhere in the reply, is told as a failure of the backend; only a
nil for a read is told as a missing key, and only bytes that came back can fail to decode. -/
structure Dialogue.Truthful (ns : Namespace) (operation : Operation) (trips : List RoundTrip)
    (talk : Dialogue) : Prop where
  asked : ∀ trip rest, trips = trip :: rest →
    (∃ rounds, talk.rounds =
      ((Exchange.ofOperation operation).command ns, trip.brings) :: rounds) ∧
      (operation ≠ .clear → talk.rounds.length = 1 ∧ ∃ outcome, talk.progress = .finished outcome)
  failed : ∀ round ∈ talk.rounds, Failed round.2 →
    ∃ why, talk.progress = .finished (.error (.backend why))
  missing : ∀ key, talk.progress = .finished (.error (.notFound key)) ↔
    ∃ reading, operation = .get key reading ∧ talk.rounds = [(.get ns key, .ok .nil)]
  undecoded : ∀ key why, talk.progress = .finished (.error (.decode key why)) →
    ∃ reading reply, operation = .get key reading ∧ reading ≠ .bytes ∧
      talk.rounds = [(.get ns key, .ok reply)] ∧ reply ≠ .nil ∧ ¬reply.Erroneous
  errors : ∀ e, talk.progress = .finished (.error e) → (∃ why, e = .backend why) ∨
    ∃ key reading, operation = .get key reading ∧ (e = .notFound key ∨ ∃ why, e = .decode key why)
  taken : ∀ key payload ttl, operation = .setIfAbsent key payload ttl →
    (talk.progress = .finished (.ok (.flag false)) ↔
      talk.rounds = [(.set ns key payload ttl true, .ok .nil)])

namespace RoundTrip

theorem brings_nil_iff {trip : RoundTrip} : trip.brings = .ok .nil ↔ trip = .answered .nil := by
  constructor
  · intro brought
    cases trip <;> cases brought
    rfl
  · rintro rfl
    rfl

end RoundTrip

namespace NetworkedCache

variable {ι : Type} [DecidableEq ι] {c : NetworkedCache ι} {id : ι} {operation : Operation}
  {reaction : Reaction (NetworkedCache ι)}

theorem asked_of_send (c : NetworkedCache ι) (id : ι) (operation : Operation) (trip : RoundTrip)
    (replies : List (Except ClientError Reply)) :
    let talk := converse id (c.send id (.ofOperation operation) .answer []) (trip.brings :: replies)
    (∃ rounds, talk.rounds =
      ((Exchange.ofOperation operation).command c.ns, trip.brings) :: rounds) ∧
      (operation ≠ .clear → talk.rounds.length = 1 ∧
        ∃ outcome, talk.progress = .finished outcome) := by
  intro talk
  constructor
  · exact ⟨_, congrArg Dialogue.rounds (converse_after_send c id _ [] trip.brings replies)⟩
  · intro single
    obtain ⟨outcome, _, _, said⟩ := converse_single c id single trip replies
    have said : talk = _ := said
    rw [said]
    exact ⟨rfl, outcome, rfl⟩

theorem verdict_of_get (c : NetworkedCache ι) (id : ι) (key : String) (reading : Reading)
    (trip : RoundTrip) (replies : List (Except ClientError Reply)) :
    ∃ outcome, Exchange.Verdict key reading trip outcome ∧
      converse id (c.send id (.get key reading) .answer []) (trip.brings :: replies) =
        ⟨[(.get c.ns key, trip.brings)], .finished outcome⟩ := by
  obtain ⟨outcome, events, ended, verdict⟩ := Exchange.gotten_verdict key reading trip
  refine ⟨outcome, verdict, (converse_after_send c id _ [] trip.brings replies).trans ?_⟩
  simp only [Exchange.resume, ended]
  rfl

theorem truthful_of_get (c : NetworkedCache ι) (id : ι) (key : String) (reading : Reading)
    (trips : List RoundTrip) :
    (converse id (c.send id (.get key reading) .answer []) (trips.map (·.brings))).Truthful c.ns
      (.get key reading) trips := by
  have failed := backend_of_failed_round c id trips (.get key reading) []
  cases trips with
  | nil =>
      have silent : ∀ {name : String}, ¬∃ reading', Operation.get key reading = .get name reading' ∧
          ([] : List (Command × Except ClientError Reply)) = [(.get c.ns name, .ok .nil)] :=
        fun ⟨_, _, silent⟩ => nomatch silent
      exact ⟨nofun, failed, fun _ => ⟨nofun, fun told => absurd told silent⟩, nofun, nofun, nofun⟩
  | cons trip rest =>
      have asked := asked_of_send c id (.get key reading) trip (rest.map (·.brings))
      obtain ⟨outcome, verdict, said⟩ := verdict_of_get c id key reading trip (rest.map (·.brings))
      have said : converse id (c.send id (.get key reading) .answer [])
        ((trip :: rest).map (·.brings)) = _ := said
      rw [said] at failed ⊢
      refine ⟨?_, failed, fun name => ⟨?_, ?_⟩, ?_, ?_, nofun⟩
      · rintro _ _ ⟨⟩
        exact said ▸ asked
      · intro ended
        obtain ⟨rfl, rfl⟩ := verdict.not_found_iff.mp (Progress.finished.inj ended)
        exact ⟨reading, rfl, rfl⟩
      · rintro ⟨_, same, rounds⟩
        cases same
        have brought : trip.brings = .ok .nil := (Prod.mk.inj (List.cons.inj rounds).1).2
        have nil := RoundTrip.brings_nil_iff.mp brought
        exact congrArg _ (verdict.not_found_iff.mpr ⟨rfl, nil⟩)
      · rintro name why ⟨⟩
        cases verdict with
        | undecoded other nonNil plain => exact ⟨reading, _, rfl, other, rfl, nonNil, plain⟩
      · rintro e ⟨⟩
        cases verdict with
        | missing => exact .inr ⟨key, reading, rfl, .inl rfl⟩
        | undecoded => exact .inr ⟨key, reading, rfl, .inr ⟨_, rfl⟩⟩
        | failed => exact .inl ⟨_, rfl⟩

/-- Who sets a key if it is absent is told that it was there exactly if the reply is nil. -/
theorem taken_of_set_if_absent (c : NetworkedCache ι) (id : ι) (key : String) (payload : Payload)
    (ttl : Duration) (trips : List RoundTrip) :
    let talk := converse id (c.send id (.setIfAbsent key payload ttl) .answer [])
      (trips.map (·.brings))
    talk.progress = .finished (.ok (.flag false)) ↔
      talk.rounds = [(.set c.ns key payload ttl true, .ok .nil)] := by
  cases trips with
  | nil => exact ⟨nofun, nofun⟩
  | cons trip rest =>
      obtain ⟨outcome, events, ended, taken⟩ :=
        Exchange.resume_of_set_if_absent c.ns key payload ttl trip
      have said := converse_after_send c id (.setIfAbsent key payload ttl) [] trip.brings
        (rest.map (·.brings))
      rw [ended] at said
      intro talk
      have said : talk = _ := said
      rw [said]
      constructor
      · intro refused
        have nil := RoundTrip.brings_nil_iff.mpr (taken.mp (Progress.finished.inj refused))
        exact congrArg (fun reply => [(Command.set c.ns key payload ttl true, reply)]) nil
      · intro rounds
        have brought : trip.brings = .ok .nil := (Prod.mk.inj (List.cons.inj rounds).1).2
        exact congrArg _ (taken.mpr (RoundTrip.brings_nil_iff.mp brought))

theorem truthful_of_other (c : NetworkedCache ι) (id : ι) {operation : Operation}
    (other : ¬(Exchange.ofOperation operation).IsGet) (trips : List RoundTrip) :
    (converse id (c.send id (.ofOperation operation) .answer []) (trips.map (·.brings))).Truthful
      c.ns operation trips := by
  have backend {e : CacheError} := backend_of_error c id (trips.map (·.brings)) (e := e) [] other
  have noGet : ∀ {key reading}, operation ≠ .get key reading := by
    rintro key reading rfl
    exact other trivial
  refine ⟨?_, backend_of_failed_round c id trips _ [], fun key => ⟨?_, ?_⟩, ?_, ?_, ?_⟩
  · rintro trip rest rfl
    exact asked_of_send c id operation trip _
  · intro ended
    obtain ⟨_, same⟩ := backend ended
    cases same
  · rintro ⟨_, same, _⟩
    exact absurd same noGet
  · intro key why ended
    obtain ⟨_, same⟩ := backend ended
    cases same
  · intro e ended
    exact .inl (backend ended)
  · rintro key payload ttl rfl
    exact taken_of_set_if_absent c id key payload ttl trips

/-- Whatever operation a caller asks for and however its round trips go, a failure of one is told as
the backend's, and nobody is told of a miss, a value or an unreadable one in its place. -/
theorem failures_are_told_as_failures (performs : c.Performs id operation reaction)
    (turn : reaction.progress ≠ .waiting) (trips : List RoundTrip) :
    (converse id reaction (trips.map (·.brings))).Truthful c.ns operation trips := by
  obtain ⟨c', named, rfl⟩ := send_of_performs operation performs turn
  rw [← named]
  by_cases get : (Exchange.ofOperation operation).IsGet
  · cases operation with
    | get key reading => exact truthful_of_get c' id key reading trips
    | _ => cases get
  · exact truthful_of_other c' id get trips

/-- An error inside an array is no number, no miss and nothing that could not be read. -/
theorem nested_error_is_told :
    let c : NetworkedCache Nat := opened ⟨['a', 'p', 'p']⟩
    let reaction := c.start 0 (.operate (.get "k" .whole))
    let reply : Reply := .array [.int 1, .error "ERR" (some "no")]
    c.Performs 0 (.get "k" .whole) reaction ∧ reaction.progress ≠ .waiting ∧
      ∃ why, (converse 0 reaction [.ok reply]).progress = .finished (.error (.backend why)) := by
  intro c reaction reply
  have sends : reaction.progress ≠ .waiting := nofun
  refine ⟨.inl rfl, sends, ?_⟩
  have truthful := failures_are_told_as_failures (.inl rfl) sends [.answered reply]
  have erroneous : reply.Erroneous := .item (List.mem_cons_of_mem _ List.mem_cons_self) (.error _ _)
  exact truthful.failed _ List.mem_cons_self erroneous

end NetworkedCache

namespace Simulation

/-- A wait for a reply ends in one of the ways in which a round trip can. -/
theorem outcome_is_round_trip {s : State} {wait : Wait} {outcome : Except ClientError (List Reply)}
    (past : s.outcome? wait = some outcome) :
    ∃ trip : RoundTrip, outcome.map (fun replies => replies.headD .nil) = trip.brings := by
  unfold State.outcome? Link.repliesTo at past
  split at past
  · next link _ =>
    split at past
    · next found =>
      cases past
      split at found
      · cases found
        exact ⟨.answered _, rfl⟩
      · split at found
        · cases found
          exact ⟨.closed, rfl⟩
        · cases found
    · split at past
      · cases past
        exact ⟨.timedOut, rfl⟩
      · cases past
  · cases past
    exact ⟨.closed, rfl⟩

end Simulation

end ExpiringCache
