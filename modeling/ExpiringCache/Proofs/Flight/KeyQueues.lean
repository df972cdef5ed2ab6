import ExpiringCache.Proofs.Flight.Queues
/-!
Flights as queues, one for each key and all independent of one another. The queues beside the
flights know nothing of slots and locks, so that whatever slots are cleared away, for whichever key,
can be seen in no answer.
-/

namespace ExpiringCache

variable {ι : Type}

inductive FlightCall (ι : Type) where
  | begin (id : ι) (key : String)
  | poll (id : ι)
  | drop (id : ι)

inductive FlightAnswer where
  | begun
  | turn (turn : Turn)
  | departure (departure : Departure)
  deriving DecidableEq

/-- Each key with a queue of its own, and of each caller the key that it means to have, until it is
let go, and whether it has been told that it holds it. -/
structure KeyQueues (ι : Type) where
  wish : ι → Option String
  queue : String → List ι
  told : ι → Bool

namespace KeyQueues

def empty : KeyQueues ι := ⟨fun _ => none, fun _ => [], fun _ => false⟩

variable [DecidableEq ι]

/-- The queue of a key after a caller has asked for it: the first time, it joins at the end. -/
def asked (q : KeyQueues ι) (id : ι) (key : String) : List ι :=
  if id ∈ q.queue key then q.queue key else q.queue key ++ [id]

def call (q : KeyQueues ι) : FlightCall ι → FlightAnswer × KeyQueues ι
  | .begin id key => (.begun, { q with wish := fun j => if j = id then some key else q.wish j })
  | .poll id =>
    match q.wish id with
    | none => (.turn .gone, q)
    | some key =>
      let first := (q.asked id key).head? == some id
      (.turn (if first then .held else .waiting),
        { q with
          queue := fun k => if k = key then q.asked id key else q.queue k
          told := fun j => q.told j || (j == id && first) })
  | .drop id =>
    match q.wish id with
    | none => (.departure .gone, q)
    | some key =>
      (.departure (if q.told id then .released else .cancelled),
        { wish := fun j => if j = id then none else q.wish j
          queue := fun k => if k = key then (q.queue k).filter (· != id) else q.queue k
          told := fun j => q.told j && j != id })

def run (q : KeyQueues ι) : List (FlightCall ι) → List FlightAnswer × KeyQueues ι
  | [] => ([], q)
  | call :: rest =>
    let (answer, q) := q.call call
    let (answers, q) := run q rest
    (answer :: answers, q)

end KeyQueues

namespace Flights

variable [DecidableEq ι]

def call (f : Flights ι) : FlightCall ι → FlightAnswer × Flights ι
  | .begin id key => (.begun, f.intend id key)
  | .poll id =>
    let (turn, f) := f.poll id
    (.turn turn, f)
  | .drop id =>
    let (departure, f) := f.drop id
    (.departure departure, f)

def run (f : Flights ι) : List (FlightCall ι) → List FlightAnswer × Flights ι
  | [] => ([], f)
  | call :: rest =>
    let (answer, f) := f.call call
    let (answers, f) := run f rest
    (answer :: answers, f)

/-- The flights are as the queues say. A caller that stands in line does not also mean to join. -/
structure Follows (f : Flights ι) (q : KeyQueues ι) : Prop where
  sound : f.Sound
  queues : ∀ key, f.queue key = q.queue key
  lined : ∀ {id key}, id ∈ f.queue key → q.wish id = some key
  meant : ∀ {id}, id ∉ f.callers → q.wish id = (f.intended.find? (·.1 == id)).map (·.2)
  once : ∀ {id}, id ∈ f.callers → f.intended.find? (·.1 == id) = none
  tellings : ∀ id, f.holds id ↔ q.told id = true

theorem empty_follows : (empty : Flights ι).Follows .empty where
  sound := empty_sound
  queues := fun _ => rfl
  lined := by
    intro id key queued
    cases queued
  meant := fun _ => rfl
  once := by
    intro id member
    cases member
  tellings := by
    intro id
    simp [holds, empty, KeyQueues.empty]

variable {f : Flights ι} {q : KeyQueues ι}

/-! ### Callers that mean to ask -/

theorem find_of_other {intended : List (ι × String)} {id j : ι} (other : j ≠ id) :
    (intended.filter (·.1 != id)).find? (·.1 == j) = intended.find? (·.1 == j) := by
  rw [List.find?_filter]
  apply congrArg (fun p => intended.find? p)
  funext entry
  by_cases same : entry.1 = j
  · simp [same, other]
  · simp [same]

theorem find_of_dropped (intended : List (ι × String)) (id : ι) :
    (intended.filter (·.1 != id)).find? (·.1 == id) = none := by
  rw [List.find?_eq_none]
  intro entry member
  simpa using (List.mem_filter.mp member).2

def withdrawn (f : Flights ι) (id : ι) : Flights ι :=
  { f with intended := f.intended.filter (·.1 != id) }

theorem begin_follows (follows : f.Follows q) {id : ι} (new : q.wish id = none) (key : String) :
    (f.intend id key).Follows (q.call (.begin id key)).2 where
  sound := sound_of_same_claims follows.sound rfl rfl rfl
  queues := follows.queues
  lined := by
    intro j k queued
    have wish := follows.lined queued
    have other : j ≠ id := by
      rintro rfl
      rw [new] at wish
      cases wish
    simp only [KeyQueues.call, if_neg other]
    exact wish
  meant := by
    intro j absent
    have wish : q.wish j = (f.intended.find? (·.1 == j)).map (·.2) := follows.meant absent
    simp only [KeyQueues.call, intend, List.find?_append]
    by_cases same : j = id
    · subst same
      rw [new, eq_comm, Option.map_eq_none_iff] at wish
      simp [wish]
    · have differs : (id == j) = false := beq_eq_false_iff_ne.mpr (Ne.symm same)
      simp only [if_neg same, List.find?_singleton, differs]
      simpa using wish
  once := by
    intro j member
    have before : f.intended.find? (·.1 == j) = none := follows.once member
    have other : id ≠ j := by
      rintro rfl
      obtain ⟨claim, there, named⟩ := (mem_callers_iff f id).mp member
      have wish := follows.lined ((mem_queue_iff f claim.key id).mpr ⟨claim, there, rfl, named⟩)
      rw [new] at wish
      cases wish
    simp [intend, List.find?_append, before, other]
  tellings := follows.tellings

/-! ### Polls -/

theorem poll_of_claim (follows : f.Follows q) {id : ι} {claim : Claim ι}
    (found : f.claim? id = some claim) :
    (f.call (.poll id)).1 = (q.call (.poll id)).1 ∧
      (f.call (.poll id)).2.Follows (q.call (.poll id)).2 := by
  obtain ⟨member, rfl⟩ := (claim_eq_some_iff follows.sound id claim).mp found
  have queued : claim.id ∈ f.queue claim.key :=
    (mem_queue_iff f claim.key claim.id).mpr ⟨claim, member, rfl, rfl⟩
  have wish := follows.lined queued
  have asked : q.asked claim.id claim.key = f.queue claim.key := by
    rw [follows.queues] at queued ⊢
    exact if_pos queued
  have told : f.poll claim.id = f.tell claim.id claim.lock := by
    unfold poll
    rw [found]
  simp only [call, told, KeyQueues.call, wish, asked, tell_turn follows.sound member, beq_iff_eq]
  refine ⟨trivial, ?_⟩
  constructor
  case sound => exact tell_sound follows.sound member
  case queues =>
    intro k
    rw [tell_queue, follows.queues]
    by_cases same : k = claim.key
    · simp [same, follows.queues]
    · simp [same]
  case lined =>
    intro id k there
    rw [tell_queue] at there
    exact follows.lined there
  case meant =>
    intro id absent
    rw [tell_callers] at absent
    rw [tell_intended]
    exact follows.meant absent
  case once =>
    intro id there
    rw [tell_callers] at there
    rw [tell_intended]
    exact follows.once there
  case tellings =>
    intro j
    rw [tell_holds follows.sound member, follows.tellings]
    simp

/-- A caller that polls for the first time joins the end of its queue. -/
theorem poll_of_meant (follows : f.Follows q) {id : ι} {key : String}
    (absent : f.claim? id = none) (wish : q.wish id = some key) :
    (f.call (.poll id)).1 = (q.call (.poll id)).1 ∧
      (f.call (.poll id)).2.Follows (q.call (.poll id)).2 := by
  have new : id ∉ f.callers := (claim_eq_none_iff f id).mp absent
  have meant := follows.meant new
  rw [wish, eq_comm, Option.map_eq_some_iff] at meant
  obtain ⟨⟨id', key'⟩, found, rfl⟩ := meant
  have unqueued : id ∉ f.queue key' := by
    intro queued
    exact new (mem_callers_of_queue queued)
  have asked : q.asked id key' = f.queue key' ++ [id] := by
    rw [KeyQueues.asked, ← follows.queues, if_neg unqueued]
  have sound : (f.withdrawn id).Sound := sound_of_same_claims follows.sound rfl rfl rfl
  have joins : f.poll id = (f.withdrawn id).join id key' := by
    unfold poll
    rw [absent, found]
    rfl
  have head : (f.queue key' ++ [id]).head? = some id ↔ (f.withdrawn id).queue key' = [] :=
    last_is_first_iff unqueued
  simp only [call, joins, KeyQueues.call, wish, asked, beq_iff_eq, head, join_turn sound new]
  refine ⟨trivial, ?_⟩
  constructor
  case sound => exact join_sound sound new key'
  case queues =>
    intro k
    rw [join_queue]
    by_cases same : k = key'
    · simp only [if_pos same]
      rfl
    · simp only [if_neg same]
      exact follows.queues k
  case lined =>
    intro j k there
    rw [join_queue] at there
    split at there
    · next same =>
      subst same
      rcases List.mem_append.mp there with before | last
      · exact follows.lined before
      · rw [List.mem_singleton] at last
        rw [last, wish]
    · exact follows.lined there
  case meant =>
    intro j absent'
    rw [join_callers, List.mem_append, not_or] at absent'
    rw [join_intended, withdrawn, find_of_other (by simpa using absent'.2)]
    exact follows.meant absent'.1
  case once =>
    intro j there
    rw [join_callers, List.mem_append, List.mem_singleton] at there
    rw [join_intended]
    by_cases same : j = id
    · subst same
      exact find_of_dropped f.intended j
    · rw [withdrawn, find_of_other same]
      exact follows.once (there.resolve_right same)
  case tellings =>
    intro j
    rw [join_holds sound new]
    have before : (f.withdrawn id).holds j ↔ q.told j = true := follows.tellings j
    rw [Bool.or_eq_true, Bool.and_eq_true, beq_iff_eq, beq_iff_eq, head, before]

/-! ### Departures -/

theorem departure_of_claim {id : ι} {claim : Claim ι} (found : f.claim? id = some claim) :
    (f.drop id).1 = (if claim.held then .released else .cancelled) ∧
      (f.drop id).2.intended = f.intended := by
  unfold drop
  rw [found]
  simp only
  split
  · split
    · split <;> exact ⟨rfl, rfl⟩
    · exact ⟨rfl, rfl⟩
  · exact ⟨rfl, rfl⟩

theorem drop_of_claim (follows : f.Follows q) {id : ι} {claim : Claim ι}
    (found : f.claim? id = some claim) :
    (f.call (.drop id)).1 = (q.call (.drop id)).1 ∧
      (f.call (.drop id)).2.Follows (q.call (.drop id)).2 := by
  obtain ⟨member, rfl⟩ := (claim_eq_some_iff follows.sound id claim).mp found
  have wish := follows.lined ((mem_queue_iff f claim.key claim.id).mpr ⟨claim, member, rfl, rfl⟩)
  obtain ⟨departure, intended⟩ := departure_of_claim found
  -- Callers have one claim each, so that what one claim says of its caller is all there is.
  have held : claim.held = q.told claim.id := by
    rw [Bool.eq_iff_iff, ← follows.tellings]
    constructor
    · intro held
      exact ⟨claim, member, rfl, held⟩
    · rintro ⟨other, there, named, held⟩
      rwa [← List.inj_on_of_nodup_map follows.sound.distinct there member named]
  have caller : claim.id ∈ f.callers := (mem_callers_iff f claim.id).mpr ⟨claim, member, rfl⟩
  simp only [call, KeyQueues.call, wish, departure, held]
  refine ⟨trivial, ?_⟩
  constructor
  case sound => exact drop_sound follows.sound claim.id
  case queues =>
    intro k
    rw [drop_queue, follows.queues]
    by_cases same : k = claim.key
    · simp only [if_pos same]
    · simp only [if_neg same]
      rw [List.filter_eq_self]
      intro id there
      rw [← follows.queues] at there
      have other := follows.lined there
      rw [bne_iff_ne]
      rintro rfl
      exact same (Option.some.inj (other.symm.trans wish))
  case lined =>
    intro j k there
    rw [drop_queue, List.mem_filter, bne_iff_ne] at there
    simp only [if_neg there.2]
    exact follows.lined there.1
  case meant =>
    intro j absent
    rw [drop_callers, List.mem_filter, bne_iff_ne, not_and_not_right] at absent
    rw [intended]
    by_cases same : j = claim.id
    · simp [same, follows.once caller]
    · simp only [if_neg same]
      exact follows.meant (mt absent same)
  case once =>
    intro j there
    rw [drop_callers, List.mem_filter] at there
    rw [intended]
    exact follows.once there.1
  case tellings =>
    intro j
    rw [drop_holds, follows.tellings, Bool.and_eq_true, bne_iff_ne]

/-- A caller that is let go before it has joined leaves no trace. -/
theorem drop_of_meant (follows : f.Follows q) {id : ι} {key : String}
    (absent : f.claim? id = none) (wish : q.wish id = some key) :
    (f.call (.drop id)).1 = (q.call (.drop id)).1 ∧
      (f.call (.drop id)).2.Follows (q.call (.drop id)).2 := by
  have new : id ∉ f.callers := (claim_eq_none_iff f id).mp absent
  have means : f.intended.any (·.1 == id) = true := by
    have meant := follows.meant new
    rw [wish, eq_comm, Option.map_eq_some_iff] at meant
    obtain ⟨entry, found, _⟩ := meant
    rw [List.any_eq_true]
    exact ⟨entry, List.mem_of_find?_eq_some found, by simpa using List.find?_some found⟩
  have untold : q.told id = false := by
    rw [← Bool.not_eq_true, ← follows.tellings]
    rintro ⟨claim, member, named, _⟩
    exact new ((mem_callers_iff f id).mpr ⟨claim, member, named⟩)
  have drops : f.drop id = (.cancelled, f.withdrawn id) := by
    unfold drop
    rw [absent]
    exact if_pos means
  simp only [call, drops, KeyQueues.call, wish, untold, Bool.false_eq_true, if_false]
  refine ⟨trivial, ?_⟩
  constructor
  case sound => exact sound_of_same_claims follows.sound rfl rfl rfl
  case queues =>
    intro k
    have unqueued : (q.queue k).filter (· != id) = q.queue k := by
      rw [List.filter_eq_self]
      intro j there
      rw [← follows.queues] at there
      rw [bne_iff_ne]
      rintro rfl
      exact new (mem_callers_of_queue there)
    simp only [unqueued, ite_self]
    exact follows.queues k
  case lined =>
    intro j k there
    have other : j ≠ id := by
      rintro rfl
      exact new (mem_callers_of_queue there)
    simp only [if_neg other]
    exact follows.lined there
  case meant =>
    intro j unlisted
    by_cases same : j = id
    · subst same
      simp only [if_true, withdrawn, find_of_dropped, Option.map_none]
    · simp only [if_neg same, withdrawn, find_of_other same]
      exact follows.meant unlisted
  case once =>
    intro j there
    have other : j ≠ id := by
      rintro rfl
      exact new there
    rw [withdrawn, find_of_other other]
    exact follows.once there
  case tellings =>
    intro j
    have told : (f.withdrawn id).holds j ↔ q.told j = true := follows.tellings j
    by_cases same : j = id
    · subst same
      rw [untold] at told
      simpa using told
    · simpa [same] using told

/-! ### Runs -/

theorem unknown_of_no_wish (follows : f.Follows q) {id : ι} (none_ : q.wish id = none) :
    f.poll id = (.gone, f) ∧ f.drop id = (.gone, f) := by
  have absent : f.claim? id = none := by
    cases found : f.claim? id with
    | none => rfl
    | some claim =>
        obtain ⟨member, named⟩ := (claim_eq_some_iff follows.sound id claim).mp found
        have wish := follows.lined ((mem_queue_iff f claim.key id).mpr ⟨claim, member, rfl, named⟩)
        rw [none_] at wish
        cases wish
  have meant := follows.meant ((claim_eq_none_iff f id).mp absent)
  rw [none_, eq_comm, Option.map_eq_none_iff] at meant
  have unlisted : f.intended.any (·.1 == id) = false := by
    rw [List.any_eq_false]
    intro entry member
    exact List.find?_eq_none.mp meant entry member
  constructor
  · simp [poll, absent, meant]
  · simp [drop, absent, unlisted]

end Flights

def FlightCall.begun? : FlightCall ι → Option ι
  | .begin id _ => some id
  | _ => none

namespace Flights

variable [DecidableEq ι] {f : Flights ι} {q : KeyQueues ι}

/-- One call: the same answer, and the flights still are as the queues say. -/
theorem call_follows (follows : f.Follows q) (call : FlightCall ι)
    (new : ∀ id, call.begun? = some id → q.wish id = none) :
    (f.call call).1 = (q.call call).1 ∧ (f.call call).2.Follows (q.call call).2 := by
  cases call with
  | begin id key => exact ⟨rfl, begin_follows follows (new id rfl) key⟩
  | poll id =>
      cases wish : q.wish id with
      | none =>
          have unknown := (unknown_of_no_wish follows wish).1
          simp only [Flights.call, unknown, KeyQueues.call, wish]
          exact ⟨trivial, follows⟩
      | some key =>
          cases found : f.claim? id with
          | some claim => exact poll_of_claim follows found
          | none => exact poll_of_meant follows found wish
  | drop id =>
      cases wish : q.wish id with
      | none =>
          have unknown := (unknown_of_no_wish follows wish).2
          simp only [Flights.call, unknown, KeyQueues.call, wish]
          exact ⟨trivial, follows⟩
      | some key =>
          cases found : f.claim? id with
          | some claim => exact drop_of_claim follows found
          | none => exact drop_of_meant follows found wish

end Flights

theorem KeyQueues.no_wish_after [DecidableEq ι] {q : KeyQueues ι} {call : FlightCall ι} {id : ι}
    (before : q.wish id = none) (other : call.begun? ≠ some id) :
    (q.call call).2.wish id = none := by
  cases call with
  | begin begun key =>
      have differs : id ≠ begun := by
        rintro rfl
        exact other rfl
      simp only [KeyQueues.call, if_neg differs]
      exact before
  | poll polled =>
      simp only [KeyQueues.call]
      cases q.wish polled <;> exact before
  | drop dropped =>
      simp only [KeyQueues.call]
      cases q.wish dropped with
      | none => exact before
      | some key =>
          simp only
          split
          · rfl
          · exact before

/-- What a script keeps, if it announces each caller once and none that has a wish already. -/
theorem Flights.run_follows [DecidableEq ι] (script : List (FlightCall ι)) :
    ∀ {f : Flights ι} {q : KeyQueues ι}, f.Follows q →
      (script.filterMap FlightCall.begun?).Nodup →
      (∀ id ∈ script.filterMap FlightCall.begun?, q.wish id = none) →
      (f.run script).1 = (q.run script).1 ∧ (f.run script).2.Follows (q.run script).2 := by
  induction script with
  | nil =>
      intro f q follows _ _
      exact ⟨rfl, follows⟩
  | cons call rest ih =>
      intro f q follows once unknown
      have restOnce : (rest.filterMap FlightCall.begun?).Nodup :=
        once.sublist ((List.sublist_cons_self call rest).filterMap _)
      have first : ∀ id, call.begun? = some id →
          id ∉ rest.filterMap FlightCall.begun? ∧ q.wish id = none := by
        intro id begun
        rw [List.filterMap_cons_some begun] at once unknown
        exact ⟨(List.nodup_cons.mp once).1, unknown id List.mem_cons_self⟩
      obtain ⟨same, after⟩ := call_follows follows call fun id begun => (first id begun).2
      have restUnknown : ∀ id ∈ rest.filterMap FlightCall.begun?,
          (q.call call).2.wish id = none := by
        intro id later
        apply KeyQueues.no_wish_after
        · apply unknown
          exact ((List.sublist_cons_self call rest).filterMap _).subset later
        · intro begun
          exact (first id begun).1 later
      obtain ⟨restSame, restAfter⟩ := ih after restOnce restUnknown
      refine ⟨?_, restAfter⟩
      simp only [Flights.run, KeyQueues.run, same, restSame]

end ExpiringCache
