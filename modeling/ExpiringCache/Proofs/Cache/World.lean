import ExpiringCache.Proofs.Cache.Moves
/-!
A cache among its callers. Any number of callers make requests, look whether their turn has come,
bring replies, compute and go away, in whatever order; time passes between what they do, and an
embedded cache's store may be swept or written to by others. A caller that computes is a caller like
any other to the requests that its computation makes, which have names of their own.
-/

namespace ExpiringCache

inductive Happening (ι : Type) where
  | begin (id : ι) (request : Request)
  | turn (id : ι)
  | reply (id : ι) (reply : Except ClientError Reply)
  | computed (id : ι) (failure : Option Cause)
  | leave (id : ι)
  | restock (store : Store)
  | wait (length : Duration)

/-- A cache, the clock, and what the callers have done so far. -/
structure World (ι : Type) where
  cache : Cache ι
  now : Instant
  asked : ι → Option Request
  running : List (ι × String)
  told : List ι

namespace World

variable {ι : Type}

def embedded (now : Instant) : World ι := ⟨.embedded .empty, now, fun _ => none, [], []⟩

def networked (link : Nat) (patience : Duration) (ns : Namespace) (now : Instant) : World ι :=
  ⟨.networked link patience (.opened ns), now, fun _ => none, [], []⟩

def wish? (w : World ι) (id : ι) : Option (String × Reading) := (w.asked id).bind Request.wish?

/-- The world after a cache has reacted to a caller. A caller that is told to compute begins to. -/
def after (w : World ι) (id : ι) (reaction : Reaction (Cache ι)) : World ι :=
  match reaction.progress, w.wish? id with
  | .compute, some (key, _) =>
    { w with
      cache := reaction.state
      running := w.running ++ [(id, key)]
      told := w.told ++ [id] }
  | _, _ => { w with cache := reaction.state }

theorem after_of_idle {w : World ι} {id : ι} {reaction : Reaction (Cache ι)}
    (idle : reaction.progress.computes = false) :
    w.after id reaction = { w with cache := reaction.state } := by
  unfold after
  split
  · next computes _ =>
    rw [computes] at idle
    cases idle
  · rfl

theorem after_of_compute {w : World ι} {id : ι} {reaction : Reaction (Cache ι)}
    (computes : reaction.progress.computes = true) {key : String} {reading : Reading}
    (wished : w.wish? id = some (key, reading)) :
    w.after id reaction =
      { w with
        cache := reaction.state
        running := w.running ++ [(id, key)]
        told := w.told ++ [id] } := by
  unfold after
  rw [Progress.compute_of_computes computes, wished]

theorem after_asked (w : World ι) (id : ι) (reaction : Reaction (Cache ι)) :
    (w.after id reaction).asked = w.asked := by
  unfold after
  split <;> rfl

def Allows (w : World ι) : Happening ι → Prop
  | .begin id _ => w.asked id = none
  | _ => True

variable [DecidableEq ι]

def asking (w : World ι) (id : ι) (request : Request) : World ι :=
  { w with asked := fun j => if j = id then some request else w.asked j }

def ended (w : World ι) (id : ι) : World ι :=
  { w with running := w.running.filter (·.1 != id) }

def reaction? (w : World ι) : Happening ι → Option (ι × Reaction (Cache ι))
  | .begin id request => some (id, w.cache.start w.now id request)
  | .turn id => some (id, w.cache.turn w.now id)
  | .reply id reply => some (id, w.cache.reply id reply)
  | .computed id failure => some (id, w.cache.computed w.now id failure)
  | .leave _ | .restock _ | .wait _ => none

def next (w : World ι) : Happening ι → World ι
  | .begin id request => (w.asking id request).after id (w.cache.start w.now id request)
  | .turn id => w.after id (w.cache.turn w.now id)
  | .reply id reply => w.after id (w.cache.reply id reply)
  | .computed id failure => (w.ended id).after id (w.cache.computed w.now id failure)
  | .leave id => { w.ended id with cache := w.cache.leave id }
  | .restock store => { w with cache := w.cache.withStore store }
  | .wait length => { w with now := w.now.later length }

def run (w : World ι) (script : List (Happening ι)) : World ι := script.foldl next w

def Lawful (w : World ι) : List (Happening ι) → Prop
  | [] => True
  | happening :: script => w.Allows happening ∧ (w.next happening).Lawful script

inductive Reachable : World ι → Prop where
  | embedded (now : Instant) : Reachable (embedded now)
  | networked (link : Nat) (patience : Duration) (ns : Namespace) (now : Instant) :
      Reachable (networked link patience ns now)
  | next {w : World ι} (reached : Reachable w) (happening : Happening ι)
      (allowed : w.Allows happening) : Reachable (w.next happening)

theorem reachable_of_run {w : World ι} {script : List (Happening ι)} (reached : w.Reachable)
    (lawful : w.Lawful script) : (w.run script).Reachable := by
  induction script generalizing w with
  | nil => exact reached
  | cons happening script ih => exact ih (reached.next happening lawful.1) lawful.2

/-- What is true of every world. The books agree with what callers have asked for and with the
computations that run. -/
structure Orderly (w : World ι) : Prop where
  books : w.cache.books.Orderly
  wished : ∀ {id pursuit}, w.cache.books.pursuit? id = some pursuit →
    w.wish? id = some pursuit.wish
  running : ∀ id key, (id, key) ∈ w.running ↔
    ∃ reading, w.cache.books.pursuit? id = some ⟨.computing, key, reading⟩
  distinct : (w.running.map (·.1)).Nodup
  told : ∀ {id}, id ∈ w.told → w.asked id ≠ none ∧
    (w.cache.books.pursuit? id = none ∨ Pursuit.computes (w.cache.books.pursuit? id) = true)
  telling : ∀ {id}, Pursuit.computes (w.cache.books.pursuit? id) = true → id ∈ w.told

/-! ### Every world is in order -/

section Steps

variable {w : World ι} {id : ι} {wish : Option (String × Reading)}

theorem unknown_of_new (orderly : w.Orderly) (new : w.asked id = none) :
    w.cache.books.pursuit? id = none := by
  cases found : w.cache.books.pursuit? id with
  | none => rfl
  | some pursuit =>
      have wished := orderly.wished found
      rw [wish?, new] at wished
      cases wished

theorem asking_orderly (orderly : w.Orderly) (new : w.asked id = none) (request : Request) :
    (w.asking id request).Orderly where
  books := orderly.books
  wished := by
    intro j pursuit found
    have other : j ≠ id := by
      rintro rfl
      rw [asking, unknown_of_new orderly new] at found
      cases found
    have wished := orderly.wished found
    rw [wish?] at wished ⊢
    simp only [asking, if_neg other]
    exact wished
  running := orderly.running
  distinct := orderly.distinct
  told := by
    intro j there
    refine ⟨?_, (orderly.told there).2⟩
    simp only [asking]
    split
    · exact Option.some_ne_none _
    · exact (orderly.told there).1
  telling := orderly.telling

/-- A reaction without a computation keeps the world in order: the same computations run. -/
theorem idle_orderly (orderly : w.Orderly) {progress : Progress} {d : Cache ι}
    (moves : w.cache.books.Moves id wish progress d.books) (idle : progress.computes = false)
    (wished : ∀ x, wish = some x → w.wish? id = some x)
    (fresh : w.cache.books.pursuit? id = none → wish ≠ none → id ∉ w.told) :
    ({ w with cache := d } : World ι).Orderly := by
  have same : ∀ j, d.books.pursuit? j = w.cache.books.pursuit? j ∨
      Pursuit.computes (w.cache.books.pursuit? j) = false ∧
        Pursuit.computes (d.books.pursuit? j) = false := by
    intro j
    by_cases mine : j = id
    · subst mine
      exact (moves.course.of_idle idle).imp_right fun moved => ⟨moved.1, moved.2.1⟩
    · exact .inl (moves.others mine)
  constructor
  case books => exact Books.orderly_of_shifts orderly.books moves.toShifts
  case wished =>
    intro j pursuit found
    by_cases mine : j = id
    · subst mine
      rcases moves.course.of_idle idle with stays | ⟨_, _, goes⟩
      · exact orderly.wished (stays ▸ found)
      · exact wished _ (goes _ found)
    · exact orderly.wished (moves.others mine ▸ found)
  case running =>
    intro j key
    rw [orderly.running]
    rcases same j with stays | ⟨before, after⟩
    · simp only [stays]
    · constructor
      · rintro ⟨reading, found⟩
        rw [found] at before
        cases before
      · rintro ⟨reading, found⟩
        rw [found] at after
        cases after
  case distinct => exact orderly.distinct
  case told =>
    intro j there
    have before := orderly.told there
    refine ⟨before.1, ?_⟩
    by_cases mine : j = id
    · subst mine
      rcases moves.course.of_idle idle with stays | ⟨free, _, goes⟩
      · rw [stays]
        exact before.2
      · rw [free] at before
        have absent := before.2.resolve_right Bool.false_ne_true
        -- A caller that was told to compute and is done has no way back into the books.
        cases found : d.books.pursuit? j with
        | none => exact .inl rfl
        | some pursuit =>
            exact absurd there (fresh absent (by rw [goes _ found]; exact Option.some_ne_none _))
    · rw [moves.others mine]
      exact before.2
  case telling =>
    intro j computes
    rcases same j with stays | ⟨_, after⟩
    · exact orderly.telling (stays ▸ computes)
    · have impossible := computes.symm.trans after
      cases impossible

/-- When a caller is told to compute, its computation runs beside the others. -/
theorem compute_orderly (orderly : w.Orderly) {reaction : Reaction (Cache ι)}
    (moves : w.cache.books.Moves id wish reaction.progress reaction.state.books)
    (computes : reaction.progress.computes = true)
    (wished : ∀ x, wish = some x → w.wish? id = some x) :
    (w.after id reaction).Orderly := by
  obtain ⟨free, key, reading, mine, placed⟩ := moves.course.of_compute computes
  have asked := wished _ mine
  have unrun : ∀ k, (id, k) ∉ w.running := by
    intro k there
    obtain ⟨_, found⟩ := (orderly.running id k).mp there
    rw [found] at free
    cases free
  rw [after_of_compute computes asked]
  constructor
  case books => exact Books.orderly_of_shifts orderly.books moves.toShifts
  case wished =>
    intro j pursuit found
    by_cases same : j = id
    · subst same
      rw [placed] at found
      cases found
      exact asked
    · exact orderly.wished (moves.others same ▸ found)
  case running =>
    intro j k
    rw [List.mem_append, List.mem_singleton, Prod.mk.injEq]
    by_cases same : j = id
    · subst same
      simp [unrun, placed, eq_comm]
    · simp only [same, false_and, or_false, moves.others same]
      exact orderly.running j k
  case distinct =>
    have new : id ∉ w.running.map (·.1) := by
      intro there
      obtain ⟨⟨_, k⟩, runs, rfl⟩ := List.mem_map.mp there
      exact unrun k runs
    rw [List.map_append, List.map_singleton, ← List.concat_eq_append]
    exact List.Nodup.concat new orderly.distinct
  case told =>
    intro j there
    by_cases same : j = id
    · subst same
      refine ⟨?_, .inr (by rw [placed]; rfl)⟩
      intro unasked
      rw [wish?, unasked] at asked
      cases asked
    · have before : j ∈ w.told := by simpa [same] using there
      rw [moves.others same]
      exact orderly.told before
  case telling =>
    intro j there
    by_cases same : j = id
    · rw [same]
      exact List.mem_append_right _ (List.mem_singleton_self _)
    · rw [moves.others same] at there
      exact List.mem_append_left _ (orderly.telling there)

theorem after_orderly (orderly : w.Orderly) {reaction : Reaction (Cache ι)}
    (moves : w.cache.books.Moves id wish reaction.progress reaction.state.books)
    (wished : ∀ x, wish = some x → w.wish? id = some x)
    (fresh : w.cache.books.pursuit? id = none → wish ≠ none → id ∉ w.told) :
    (w.after id reaction).Orderly := by
  cases progress : reaction.progress.computes with
  | true => exact compute_orderly orderly moves progress wished
  | false =>
      rw [after_of_idle progress]
      exact idle_orderly orderly moves progress wished fresh

/-- The same for a caller that goes on with what it has asked for before. -/
theorem going_on_orderly (orderly : w.Orderly) {reaction : Reaction (Cache ι)}
    (moves : w.cache.books.Moves id ((w.cache.books.pursuit? id).map Pursuit.wish)
      reaction.progress reaction.state.books) : (w.after id reaction).Orderly := by
  refine after_orderly orderly moves ?_ ?_
  · intro x same
    obtain ⟨pursuit, found, rfl⟩ := Option.map_eq_some_iff.mp same
    exact orderly.wished found
  · intro absent wished
    rw [absent] at wished
    exact absurd rfl wished

theorem ended_orderly (orderly : w.Orderly) {progress : Progress} {d : Cache ι}
    (ends : w.cache.books.Ends id progress d.books) :
    ({ w.ended id with cache := d } : World ι).Orderly := by
  have free : Pursuit.computes (d.books.pursuit? id) = false := by
    rcases ends.settled with gone | ⟨stays, free⟩
    · rw [gone]
      rfl
    · rw [stays, free]
  constructor
  case books => exact Books.orderly_of_shifts orderly.books ends.toShifts
  case wished =>
    intro j pursuit found
    by_cases same : j = id
    · subst same
      rcases ends.settled with gone | ⟨stays, _⟩
      · rw [gone] at found
        cases found
      · exact orderly.wished (stays ▸ found)
    · exact orderly.wished (ends.others same ▸ found)
  case running =>
    intro j key
    simp only [ended, List.mem_filter, bne_iff_ne, orderly.running]
    by_cases same : j = id
    · subst same
      constructor
      · exact fun there => absurd rfl there.2
      · rintro ⟨reading, found⟩
        rw [found] at free
        cases free
    · simp only [ends.others same, same, ne_eq, not_false_eq_true, and_true]
  case distinct => exact orderly.distinct.sublist (List.filter_sublist.map _)
  case told =>
    intro j there
    have before := orderly.told there
    refine ⟨before.1, ?_⟩
    by_cases same : j = id
    · subst same
      rcases ends.settled with gone | ⟨stays, _⟩
      · exact .inl gone
      · rw [stays]
        exact before.2
    · rw [ends.others same]
      exact before.2
  case telling =>
    intro j computes
    have other : j ≠ id := by
      rintro rfl
      rw [free] at computes
      cases computes
    rw [ends.others other] at computes
    exact orderly.telling computes

theorem orderly_of_same_books (orderly : w.Orderly) {d : Cache ι}
    (same : d.books = w.cache.books) : ({ w with cache := d } : World ι).Orderly where
  books := by
    rw [same]
    exact orderly.books
  wished := by
    intro j pursuit found
    rw [same] at found
    exact orderly.wished found
  running := by
    simp only [same]
    exact orderly.running
  distinct := orderly.distinct
  told := by
    simp only [same]
    exact orderly.told
  telling := by
    simp only [same]
    exact orderly.telling

theorem next_orderly (orderly : w.Orderly) (happening : Happening ι)
    (allowed : w.Allows happening) : (w.next happening).Orderly := by
  cases happening with
  | begin id request =>
      have unknown := unknown_of_new orderly allowed
      have moves := Cache.start_moves orderly.books unknown w.now request
      refine after_orderly (asking_orderly orderly allowed request) moves ?_ ?_
      · intro x same
        rw [wish?, asking]
        simpa using same
      · intro _ _ there
        exact (orderly.told there).1 allowed
  | turn id => exact going_on_orderly orderly (Cache.turn_moves orderly.books id w.now)
  | reply id reply => exact going_on_orderly orderly (Cache.reply_moves orderly.books id reply)
  | computed id failure =>
      have ends := Cache.computed_ends orderly.books id w.now failure
      rw [next, after_of_idle ends.idle]
      exact ended_orderly orderly ends
  | leave id => exact ended_orderly orderly (Cache.leave_ends orderly.books id)
  | restock store => exact orderly_of_same_books orderly (Cache.with_store_books w.cache store)
  | wait length => exact ⟨orderly.books, orderly.wished, orderly.running, orderly.distinct,
      orderly.told, orderly.telling⟩

end Steps

theorem fresh_orderly {w : World ι} (flights : w.cache.books.flights = .empty)
    (nobody : ∀ id, w.cache.books.pursuit? id = none) (idle : w.running = [])
    (untold : w.told = []) : w.Orderly where
  books := Books.orderly_of_nobody flights nobody
  wished := by
    intro id pursuit found
    rw [nobody] at found
    cases found
  running := by simp [idle, nobody]
  distinct := by simp [idle]
  told := by simp [untold]
  telling := by
    intro id computes
    rw [nobody] at computes
    cases computes

theorem reachable_orderly {w : World ι} (reached : w.Reachable) : w.Orderly := by
  induction reached with
  | embedded now => exact fresh_orderly rfl (fun _ => rfl) rfl rfl
  | networked link patience ns now => exact fresh_orderly rfl (fun _ => rfl) rfl rfl
  | next _ happening allowed ih => exact next_orderly ih happening allowed

end World

end ExpiringCache
