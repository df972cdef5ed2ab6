import ExpiringCache.Proofs.Remote.Fillers
import ExpiringCache.Proofs.Remote.WriteTurns
/-!
Fills of a networked cache over whole runs. Whatever callers do, and whatever comes back from the
server, each fill goes one of its ways. Callers hold a key from their second question until they
read it or come to their end, of whatever kind, and then it is the next caller that asks again.
-/

namespace ExpiringCache

open RequestStage (looking lookingAgain fetching)
open FillMark (Fills)

/-! ### Runs -/

namespace World

variable {ι : Type} [DecidableEq ι]

/-- What is seen of a fill when something happens, `marks` having been seen of it before. -/
def fillMarks (w : World ι) (id : ι) (marks : List FillMark) : Happening ι → List FillMark
  | .begin j request =>
    if j = id then FillMark.ofProgress (w.cache.start w.now id request).progress else []
  | .turn j => if j = id then FillMark.ofProgress (w.cache.turn w.now id).progress else []
  | .reply j reply =>
    if j = id ∧ FillMark.awaitsReply marks then
      .heard reply :: FillMark.ofProgress (w.cache.reply id reply).progress
    else []
  | .computed j failure =>
    if j = id ∧ FillMark.runs marks then
      .computed failure :: FillMark.ofProgress (w.cache.computed w.now id failure).progress
    else []
  | .leave j => if j = id ∧ FillMark.underWay marks then [.left] else []
  | .restock _ | .wait _ => []

def seen (w : World ι) (id : ι) (marks : List FillMark) : List (Happening ι) → List FillMark
  | [] => marks
  | happening :: script =>
    (w.next happening).seen id (marks ++ w.fillMarks id marks happening) script

/-- The world's cache is a networked one, and what has been seen of fills agrees with its books. -/
structure Followed (link : Nat) (patience : Duration) (ns : Namespace) (w : World ι)
    (marks : ι → List FillMark) (c : NetworkedCache ι) : Prop where
  orderly : w.Orderly
  here : w.cache = .networked link patience c
  named : c.ns = ns
  strangers : ∀ id, w.asked id = none → marks id = [] ∧ c.stage? id = none
  fills : ∀ id key reading, w.asked id = some (.fill key reading) →
    Fills ns key reading (marks id) (c.stage? id)

variable {w : World ι} {link : Nat} {patience : Duration} {ns : Namespace}
  {marks : ι → List FillMark} {c : NetworkedCache ι}

theorem followed_of_move (followed : w.Followed link patience ns marks c) {v : World ι}
    (orderly : v.Orderly) {d : NetworkedCache ι} (there : v.cache = .networked link patience d)
    {j : ι} (spared : c.Spares j d) (asked : ∀ {id}, id ≠ j → v.asked id = w.asked id)
    {new : ι → List FillMark} (silent : ∀ {id}, id ≠ j → new id = [])
    (stranger : v.asked j = none → marks j ++ new j = [] ∧ d.stage? j = none)
    (fills : ∀ key reading, v.asked j = some (.fill key reading) →
      Fills ns key reading (marks j ++ new j) (d.stage? j)) :
    v.Followed link patience ns (fun id => marks id ++ new id) d where
  orderly := orderly
  here := there
  named := spared.named.trans followed.named
  strangers := by
    intro id none
    by_cases same : id = j
    · subst same
      exact stranger none
    · rw [silent same, List.append_nil, spared.others same]
      rw [asked same] at none
      exact followed.strangers id none
  fills := by
    intro id key reading mine
    by_cases same : id = j
    · subst same
      exact fills key reading mine
    · rw [silent same, List.append_nil, spared.others same]
      rw [asked same] at mine
      exact followed.fills id key reading mine

/-- The same for a caller that goes on with what it has asked for before. -/
theorem followed_of_going_on (followed : w.Followed link patience ns marks c) {v : World ι}
    (orderly : v.Orderly) {d : NetworkedCache ι} (there : v.cache = .networked link patience d)
    {j : ι} (spared : c.Spares j d) (asked : v.asked = w.asked)
    {new : ι → List FillMark} (silent : ∀ {id}, id ≠ j → new id = [])
    (stranger : marks j = [] → c.stage? j = none → new j = [] ∧ d.stage? j = none)
    (fills : ∀ key reading, Fills c.ns key reading (marks j) (c.stage? j) →
      Fills c.ns key reading (marks j ++ new j) (d.stage? j)) :
    v.Followed link patience ns (fun id => marks id ++ new id) d := by
  apply followed_of_move followed orderly there spared (fun _ => congrFun asked _) silent
  · intro none
    rw [asked] at none
    obtain ⟨unseen, absent⟩ := followed.strangers j none
    rw [unseen]
    exact stranger unseen absent
  · intro key reading mine
    rw [asked] at mine
    have before := followed.fills j key reading mine
    rw [← followed.named] at before ⊢
    exact fills key reading before

theorem followed_of_silence (followed : w.Followed link patience ns marks c) {v : World ι}
    (orderly : v.Orderly) (there : v.cache = .networked link patience c) (asked : v.asked = w.asked) :
    v.Followed link patience ns (fun id => marks id ++ []) c where
  orderly := orderly
  here := there
  named := followed.named
  strangers := by
    intro id none
    rw [asked] at none
    rw [List.append_nil]
    exact followed.strangers id none
  fills := by
    intro id key reading mine
    rw [asked] at mine
    rw [List.append_nil]
    exact followed.fills id key reading mine

theorem begin_followed (followed : w.Followed link patience ns marks c) {j : ι} {request : Request}
    (new : w.asked j = none) :
    (w.next (.begin j request)).Followed link patience ns
      (fun id => marks id ++ w.fillMarks id (marks id) (.begin j request))
      (c.start j request).state := by
  have here := followed.here
  have mine : (w.next (.begin j request)).asked j = some request := by
    rw [next, after_asked]
    exact if_pos rfl
  obtain ⟨unseen, _⟩ := followed.strangers j new
  refine followed_of_move followed (next_orderly followed.orderly (.begin j request) new) ?_
    (c.start_spares j request) ?_ (fun other => if_neg (Ne.symm other)) ?_ ?_
  · rw [next, after_cache, here]
    rfl
  · intro id other
    rw [next, after_asked]
    exact if_neg other
  · intro none
    cases mine.symm.trans none
  · intro key reading fill
    cases mine.symm.trans fill
    rw [fillMarks, if_pos rfl, here, unseen, ← followed.named]
    exact c.fills_of_start j key reading

theorem next_followed (followed : w.Followed link patience ns marks c) (happening : Happening ι)
    (allowed : w.Allows happening) :
    ∃ d, (w.next happening).Followed link patience ns
      (fun id => marks id ++ w.fillMarks id (marks id) happening) d := by
  have orderly := next_orderly followed.orderly happening allowed
  have here := followed.here
  cases happening with
  | begin j request => exact ⟨_, begin_followed followed allowed⟩
  | turn j =>
      refine ⟨(c.turn j).state, followed_of_going_on followed orderly ?_ (c.turn_spares j)
        (after_asked _ _ _) (fun other => if_neg (Ne.symm other)) ?_ ?_⟩
      · rw [next, after_cache, here]
        rfl
      · intro _ absent
        obtain ⟨rests, _⟩ := NetworkedCache.rests_of_stranger absent
        rw [fillMarks, if_pos rfl, here]
        change FillMark.ofProgress (c.turn j).progress = [] ∧ _
        rw [rests]
        exact ⟨rfl, absent⟩
      · intro key reading before
        rw [fillMarks, if_pos rfl, here]
        exact NetworkedCache.fills_of_turn before
  | reply j reply =>
      refine ⟨(c.reply j reply).state, followed_of_going_on followed orderly ?_
        (c.reply_spares j reply) (after_asked _ _ _)
        (fun other => if_neg fun both => other both.1.symm) ?_ ?_⟩
      · rw [next, after_cache, here]
        rfl
      · intro unseen absent
        obtain ⟨_, rests, _⟩ := NetworkedCache.rests_of_stranger absent
        rw [fillMarks, unseen, rests]
        exact ⟨if_neg fun both => Bool.false_ne_true both.2, absent⟩
      · intro key reading before
        have after := NetworkedCache.fills_of_reply before reply
        simp only [fillMarks, here, true_and]
        exact after
  | computed j failure =>
      refine ⟨(c.computed j failure).state, followed_of_going_on followed orderly ?_
        (c.computed_spares j failure) (after_asked _ _ _)
        (fun other => if_neg fun both => other both.1.symm) ?_ ?_⟩
      · rw [next, after_cache, here]
        rfl
      · intro unseen absent
        obtain ⟨_, _, rests⟩ := NetworkedCache.rests_of_stranger absent
        rw [fillMarks, unseen, rests]
        exact ⟨if_neg fun both => Bool.false_ne_true both.2, absent⟩
      · intro key reading before
        have after := NetworkedCache.fills_of_computed before failure
        simp only [fillMarks, here, true_and]
        exact after
  | leave j =>
      refine ⟨c.leave j, followed_of_going_on followed orderly ?_ (c.leave_spares j) rfl
        (fun other => if_neg fun both => other both.1.symm) ?_ ?_⟩
      · rw [next, here]
        rfl
      · intro unseen _
        refine ⟨if_neg ?_, c.stage_of_leave j⟩
        rw [unseen]
        exact fun both => Bool.false_ne_true both.2
      · intro key reading before
        simp only [fillMarks, true_and]
        exact NetworkedCache.fills_of_leave before
  | restock store =>
      refine ⟨c, followed_of_silence followed orderly ?_ rfl⟩
      rw [next, here]
      rfl
  | wait length => exact ⟨c, followed_of_silence followed orderly here rfl⟩

theorem run_followed {script : List (Happening ι)} (followed : w.Followed link patience ns marks c)
    (lawful : w.Lawful script) :
    ∃ d, (w.run script).Followed link patience ns (fun id => w.seen id (marks id) script) d := by
  induction script generalizing w marks c with
  | nil => exact ⟨c, followed⟩
  | cons happening script ih =>
      obtain ⟨d, next⟩ := next_followed followed happening lawful.1
      exact ih next lawful.2

theorem networked_followed (link : Nat) (patience : Duration) (ns : Namespace) (now : Instant) :
    (networked link patience ns now : World ι).Followed link patience ns (fun _ => [])
      (.opened ns) where
  orderly := reachable_orderly (.networked link patience ns now)
  here := rfl
  named := rfl
  strangers := fun _ _ => ⟨rfl, rfl⟩
  fills := nofun

end World

/-! ### Who holds a key -/

namespace NetworkedCache

variable {ι : Type} [DecidableEq ι] {c : NetworkedCache ι} {id : ι} {key : String}
  {reading : Reading}

theorem queue_first_of_holding (orderly : c.books.Orderly)
    (found : c.stage? id = some (lookingAgain key reading) ∨
      c.stage? id = some (.computing key reading)) : (c.flights.queue key).head? = some id := by
  have agree := orderly.agree id
  rcases found with found | found
  · simp only [books, found] at agree
    exact agree
  · simp only [books, found] at agree
    exact agree

theorem unqueued_of_let_go (orderly : c.books.Orderly)
    (found : c.stage? id = some (fetching key reading) ∨ c.stage? id = none) (k : String) :
    id ∉ c.flights.queue k := by
  have agree := orderly.agree id
  apply mt Flights.mem_callers_of_queue
  rcases found with found | found
  · simp only [books, found] at agree
    exact agree
  · simp only [books, found] at agree
    exact agree

theorem queued_of_waiting (orderly : c.books.Orderly)
    (found : c.stage? id = some (.forKey key reading)) : id ∈ c.flights.queue key := by
  have agree := orderly.agree id
  simp only [books, found] at agree
  exact agree

theorem turn_of_first (orderly : c.books.Orderly)
    (found : c.stage? id = some (.forKey key reading))
    (first : (c.flights.queue key).head? = some id) :
    id ∈ c.due ∧ (c.turn id).progress = .send (.probe c.ns key) := by
  have sound : c.flights.Sound := orderly.sound
  obtain ⟨claim, member, rfl, rfl⟩ :=
    (Flights.mem_queue_iff c.flights key id).mp (queued_of_waiting orderly found)
  have claimed := Flights.claim_of_caller sound member
  have ripe := (Flights.is_first_iff sound member claim.id).mpr first
  constructor
  · refine List.mem_map_of_mem (List.mem_filter.mpr ⟨request_of_stage found, ?_⟩)
    simp only [claimed, ripe]
  · have polled : (c.flights.poll claim.id).1 = .held := by
      rw [Flights.poll, claimed, Flights.tell_turn sound member, if_pos first]
    simp only [turn, found, polled]
    rfl

end NetworkedCache

/-! ### What callers are promised -/

namespace World

open Simulation (Caller)
open FillMark (Kept Waiting Holding LetGo)

/-- The first in the queue of a key is a fill that holds the key, or one that is woken and asks
again when it looks whether its turn has come. -/
def Led (w : World Caller) (c : NetworkedCache Caller) (ns : Namespace)
    (seen : Caller → List FillMark) (key : String) : Prop :=
  ∃ first reading, (c.flights.queue key).head? = some first ∧
    w.asked first = some (.fill key reading) ∧
      (Holding ns key (seen first) ∨ Waiting ns key (seen first) ∧
        (∀ (s : Simulation.State) (n : Nat), .task first.task ∈ (s.putCache n w.cache).queue) ∧
        (w.cache.turn w.now first).progress = .send (.probe ns key))

/-- What holds after any run, given what has been seen of fills. A fill that asks again or computes
is the first in the queue of its key, one that reads the key is in no queue, and one that waits
stands in a queue that goes on. -/
structure FillsKept (w : World Caller) (c : NetworkedCache Caller) (ns : Namespace)
    (seen : Caller → List FillMark) : Prop where
  kept : ∀ {id key reading}, w.asked id = some (.fill key reading) → Kept ns key (seen id)
  holds : ∀ {id key reading}, w.asked id = some (.fill key reading) →
    Holding ns key (seen id) → (c.flights.queue key).head? = some id
  letsGo : ∀ {id key reading}, w.asked id = some (.fill key reading) →
    LetGo ns key (seen id) → ∀ k, id ∉ c.flights.queue k
  passedOn : ∀ {id key reading}, w.asked id = some (.fill key reading) →
    Waiting ns key (seen id) → id ∈ c.flights.queue key ∧ w.Led c ns seen key

variable {w : World Caller} {link : Nat} {patience : Duration} {ns : Namespace}
  {marks : Caller → List FillMark} {c : NetworkedCache Caller}

/-- Somebody stands first in any queue, and nobody stands in it that has let go. -/
theorem led_of_queued (followed : w.Followed link patience ns marks c) (books : c.books.Orderly)
    {id : Caller} {key : String} (queued : id ∈ c.flights.queue key) : w.Led c ns marks key := by
  obtain ⟨first, head⟩ := Option.isSome_iff_exists.mp
    (List.isSome_head?.mpr (List.ne_nil_of_mem queued))
  have there := List.mem_of_head? head
  have asks : ∃ reading, w.asked first = some (.fill key reading) := by
    obtain ⟨pursuit, pursues, rfl⟩ := Books.pursuit_of_queued books there
    have wished := followed.orderly.wished (by rw [followed.here]; exact pursues)
    obtain ⟨request, asked, wish⟩ := Option.bind_eq_some_iff.mp wished
    cases request with
    | operate operation => cases wish
    | fill k reading =>
        cases wish
        exact ⟨_, asked⟩
  obtain ⟨reading, asked⟩ := asks
  refine ⟨first, reading, head, asked, ?_⟩
  have stands := FillMark.Fills.stands (followed.fills first key reading asked)
  generalize stage : c.stage? first = now at stands
  cases stands with
  | looks =>
      have outside := books.agree first
      simp only [NetworkedCache.books, stage] at outside
      exact absurd (Flights.mem_callers_of_queue there) outside
  | waits waits =>
      obtain ⟨due, asksAgain⟩ := NetworkedCache.turn_of_first books stage head
      have ripe : first ∈ w.cache.due := by
        rw [followed.here]
        exact due
      refine .inr ⟨waits, fun s n => s.put_cache_wakes_due n ripe, ?_⟩
      rw [followed.here, ← followed.named]
      exact asksAgain
  | looksAgain holding => exact .inl holding
  | computes holding => exact .inl holding
  | reads =>
      have gone : c.stage? first = some (fetching key reading) ∨ c.stage? first = none := .inl stage
      exact absurd there (NetworkedCache.unqueued_of_let_go books gone key)
  | done =>
      have gone : c.stage? first = some (fetching key reading) ∨ c.stage? first = none := .inr stage
      exact absurd there (NetworkedCache.unqueued_of_let_go books gone key)

theorem fills_kept (followed : w.Followed link patience ns marks c) : w.FillsKept c ns marks := by
  have books : c.books.Orderly := by
    have all := followed.orderly.books
    rwa [followed.here] at all
  constructor
  case kept =>
    intro id key reading mine
    exact FillMark.Fills.kept (followed.fills id key reading mine)
  case holds =>
    intro id key reading mine holding
    have found := FillMark.Fills.stage_of_holding (followed.fills id key reading mine) holding
    exact NetworkedCache.queue_first_of_holding books found
  case letsGo =>
    intro id key reading mine gone
    have found := FillMark.Fills.stage_of_let_go (followed.fills id key reading mine) gone
    exact NetworkedCache.unqueued_of_let_go books found
  case passedOn =>
    intro id key reading mine waiting
    have found := FillMark.Fills.stage_of_waiting (followed.fills id key reading mine) waiting
    have queued := NetworkedCache.queued_of_waiting books found
    exact ⟨queued, led_of_queued followed books queued⟩

/-- Whatever callers of a networked cache do and whatever comes back from the server, a fill
computes only a key that was missing before and after it stood in line, reads the key at last, and
hands it on however it ends. -/
theorem fills_compute_proven_misses (link : Nat) (patience : Duration) (ns : Namespace) (now : Instant)
    {script : List (Happening Caller)} (lawful : (networked link patience ns now).Lawful script) :
    let w := networked link patience ns now
    ∃ c, (w.run script).cache = .networked link patience c ∧
      (w.run script).FillsKept c ns fun id => w.seen id [] script := by
  intro w
  obtain ⟨c, followed⟩ := run_followed (networked_followed link patience ns now) lawful
  exact ⟨c, followed.here, fills_kept followed⟩

/-- Two callers have a key filled. The one that holds it gives up while it computes, and the other
one finds the key there when it asks again. -/
def computingGivenUp : List (Happening Caller) :=
  [.begin ⟨0, 0⟩ (.fill "k" .bytes), .begin ⟨1, 1⟩ (.fill "k" .bytes),
    .reply ⟨0, 0⟩ (.ok (.int 0)), .reply ⟨1, 1⟩ (.ok (.int 0)), .reply ⟨0, 0⟩ (.ok (.int 0)),
    .leave ⟨0, 0⟩, .turn ⟨1, 1⟩, .reply ⟨1, 1⟩ (.ok (.int 1)), .reply ⟨1, 1⟩ (.ok (.bulk [7]))]

theorem waiting_caller_goes_on :
    let ns : Namespace := ⟨['a', 'p', 'p']⟩
    let w := networked 0 .zero ns .start
    w.Lawful computingGivenUp ∧
      (FillMark.commands (w.seen ⟨0, 0⟩ [] computingGivenUp) = [.probe ns "k", .probe ns "k"] ∧
        FillMark.isOver (w.seen ⟨0, 0⟩ [] computingGivenUp) = true) ∧
      FillMark.commands (w.seen ⟨1, 1⟩ [] computingGivenUp) =
        [.probe ns "k", .probe ns "k", .get ns "k"] ∧
      ∃ c, (w.run computingGivenUp).cache = .networked 0 .zero c ∧
        (w.run computingGivenUp).FillsKept c ns fun id => w.seen id [] computingGivenUp := by
  intro ns w
  have lawful : w.Lawful computingGivenUp := by
    refine ⟨rfl, ?_, trivial, trivial, trivial, trivial, trivial, trivial, trivial, trivial⟩
    simp only [Allows, next, after_asked, asking]
    rfl
  exact ⟨lawful, by decide +kernel, by decide +kernel,
    fills_compute_proven_misses 0 .zero ns .start lawful⟩

end World

end ExpiringCache
