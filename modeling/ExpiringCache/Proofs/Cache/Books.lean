import ExpiringCache.Cache.Basic
import ExpiringCache.Proofs.Flight.Queues
import ExpiringCache.Proofs.Named
/-!
Where fills stand. The two kinds of cache keep their books in different ways, yet a fill passes the
same places in both: it looks for its key, stands in line for it, holds it and looks again, and
computes. The books are in order if whoever holds a key is first in its queue. Each reaction of a
cache moves one caller, leaves all others where they are and keeps the books in order.
-/

namespace ExpiringCache

inductive Place where
  | looking
  | inLine
  | holding
  | computing
  deriving DecidableEq

structure Pursuit where
  place : Place
  key : String
  reading : Reading

/-- What a cache has in its books: the flights, and the fills that are not done. -/
structure Books (ι : Type) where
  flights : Flights ι
  pursuit? : ι → Option Pursuit

def Fill.pursuit {ι : Type} (fill : Fill ι) : Pursuit :=
  match fill.stage with
  | .inLine => ⟨.inLine, fill.key, fill.reading⟩
  | .computing => ⟨.computing, fill.key, fill.reading⟩

def RequestStage.pursuit? : RequestStage → Option Pursuit
  | .toWrite _ | .asked _ .answer => none
  | .asked _ (.look key reading) => some ⟨.looking, key, reading⟩
  | .asked _ (.lookAgain key reading) => some ⟨.holding, key, reading⟩
  | .forKey key reading => some ⟨.inLine, key, reading⟩
  | .computing key reading => some ⟨.computing, key, reading⟩

def Request.wish? : Request → Option (String × Reading)
  | .operate _ => none
  | .fill key reading => some (key, reading)

def Pursuit.wish (pursuit : Pursuit) : String × Reading := (pursuit.key, pursuit.reading)

def Progress.computes : Progress → Bool
  | .compute => true
  | _ => false

theorem Progress.compute_of_computes {progress : Progress} (computes : progress.computes = true) :
    progress = .compute := by
  cases progress with
  | compute => rfl
  | waiting => cases computes
  | send command => cases computes
  | finished outcome => cases computes

variable {ι : Type}

def Flights.Agree (f : Flights ι) (id : ι) : Option Pursuit → Prop
  | none | some ⟨.looking, _, _⟩ => id ∉ f.callers
  | some ⟨.inLine, key, _⟩ => id ∈ f.queue key
  | some ⟨.holding, key, _⟩ | some ⟨.computing, key, _⟩ => (f.queue key).head? = some id

structure Books.Orderly (books : Books ι) : Prop where
  sound : books.flights.Sound
  agree : ∀ id, books.flights.Agree id (books.pursuit? id)

theorem Books.pursuit_of_queued {books : Books ι} (orderly : books.Orderly) {id : ι} {key : String}
    (queued : id ∈ books.flights.queue key) :
    ∃ pursuit, books.pursuit? id = some pursuit ∧ pursuit.key = key := by
  have agree := orderly.agree id
  have caller := Flights.mem_callers_of_queue queued
  rcases found : books.pursuit? id with _ | ⟨place, k, reading⟩
  · rw [found] at agree
    exact absurd caller agree
  · rw [found] at agree
    refine ⟨_, rfl, ?_⟩
    cases place with
    | looking => exact absurd caller agree
    | inLine => exact Flights.key_of_queued orderly.sound agree queued
    | holding => exact Flights.key_of_queued orderly.sound (List.mem_of_head? agree) queued
    | computing => exact Flights.key_of_queued orderly.sound (List.mem_of_head? agree) queued

/-! ### Bystanders -/

/-- The flights `g` are the flights `f` to everyone but one caller. -/
structure Flights.Spares (f g : Flights ι) (id : ι) : Prop where
  absent : ∀ {j}, j ≠ id → j ∉ f.callers → j ∉ g.callers
  queued : ∀ {j key}, j ≠ id → j ∈ f.queue key → j ∈ g.queue key
  first : ∀ {j key}, j ≠ id → (f.queue key).head? = some j → (g.queue key).head? = some j

namespace Flights

variable {f g : Flights ι} {id : ι}

theorem spares_of_equal (f : Flights ι) (id : ι) : f.Spares f id where
  absent := fun _ outside => outside
  queued := fun _ there => there
  first := fun _ head => head

theorem spares_trans {e : Flights ι} (one : e.Spares f id) (two : f.Spares g id) :
    e.Spares g id where
  absent := fun other outside => two.absent other (one.absent other outside)
  queued := fun other there => two.queued other (one.queued other there)
  first := fun other head => two.first other (one.first other head)

theorem agree_of_spares (spares : f.Spares g id) {j : ι} (other : j ≠ id) {p : Option Pursuit}
    (agree : f.Agree j p) : g.Agree j p := by
  rcases p with _ | ⟨place, key, reading⟩
  · exact spares.absent other agree
  · cases place with
    | looking => exact spares.absent other agree
    | inLine => exact spares.queued other agree
    | holding => exact spares.first other agree
    | computing => exact spares.first other agree

/-- The flights `g` after a caller in `f` has asked for a key and been told its turn. -/
structure Told (f : Flights ι) (id : ι) (key : String) (turn : Turn) (g : Flights ι) : Prop where
  sound : g.Sound
  spares : f.Spares g id
  queued : id ∈ g.queue key
  first : turn = .held → (g.queue key).head? = some id

variable [DecidableEq ι]

theorem join_spares (f : Flights ι) (id : ι) (key : String) : f.Spares (f.join id key).2 id where
  absent := by
    intro j other outside
    rw [join_callers, List.mem_append, List.mem_singleton]
    exact fun there => there.elim outside other
  queued := by
    intro j k other there
    rw [join_queue]
    split
    · next same => exact List.mem_append_left _ (same ▸ there)
    · exact there
  first := by
    intro j k other head
    rw [join_queue]
    split
    · next same =>
      subst same
      rw [List.head?_append, head]
      rfl
    · exact head

theorem join_told (sound : f.Sound) (new : id ∉ f.callers) (key : String) :
    f.Told id key (f.join id key).1 (f.join id key).2 where
  sound := join_sound sound new key
  spares := join_spares f id key
  queued := by
    rw [join_queue, if_pos rfl]
    exact List.mem_append_right _ (List.mem_singleton_self _)
  first := by
    intro held
    rw [join_turn sound new] at held
    rw [join_queue, if_pos rfl, last_is_first_iff (mt mem_callers_of_queue new)]
    split at held
    · next empty => exact empty
    · cases held

/-- A caller that stands in line is told its turn and moves nobody. -/
theorem poll_told (sound : f.Sound) {key : String} (queued : id ∈ f.queue key) :
    f.Told id key (f.poll id).1 (f.poll id).2 := by
  obtain ⟨claim, member, rfl, rfl⟩ := (mem_queue_iff f key id).mp queued
  have told : f.poll claim.id = f.tell claim.id claim.lock := by
    rw [poll, claim_of_caller sound member]
  rw [told]
  refine ⟨tell_sound sound member, ⟨?_, ?_, ?_⟩, ?_, ?_⟩
  · intro j _ outside
    rwa [tell_callers]
  · intro j k _ there
    rwa [tell_queue]
  · intro j k _ head
    rwa [tell_queue]
  · rwa [tell_queue]
  · intro held
    rw [tell_turn sound member] at held
    rw [tell_queue]
    split at held
    · next head => exact head
    · cases held

theorem drop_spares (f : Flights ι) (id : ι) : f.Spares (f.drop id).2 id where
  absent := by
    intro j _ outside
    rw [drop_callers]
    exact fun there => outside (List.mem_filter.mp there).1
  queued := by
    intro j k other there
    rw [drop_queue]
    exact List.mem_filter.mpr ⟨there, bne_iff_ne.mpr other⟩
  first := by
    intro j k other head
    rw [drop_queue]
    exact head_of_without head other

theorem not_caller_of_drop (f : Flights ι) (id : ι) : id ∉ (f.drop id).2.callers := by
  rw [drop_callers]
  intro there
  simpa using (List.mem_filter.mp there).2

end Flights

/-! ### Moves -/

def Pursuit.computes : Option Pursuit → Bool
  | some ⟨.computing, _, _⟩ => true
  | _ => false

theorem Pursuit.computes_iff (pursuit : Option Pursuit) :
    computes pursuit = true ↔ ∃ key reading, pursuit = some ⟨.computing, key, reading⟩ := by
  rcases pursuit with _ | ⟨place, key, reading⟩
  · simp [computes]
  · cases place <;> simp [computes]

/-- How a caller gets from one place to the next with a reaction that ends no computation. A caller
that computes stays where it is; any other may go on with its wish. It is told to compute on its way
to that place only. -/
inductive Course (wish : Option (String × Reading)) (before : Option Pursuit) :
    Progress → Option Pursuit → Prop where
  | rest {progress} (idle : progress.computes = false) : Course wish before progress before
  | done {progress} (free : Pursuit.computes before = false) (idle : progress.computes = false) :
      Course wish before progress none
  | on {progress} {pursuit : Pursuit} (free : Pursuit.computes before = false)
      (wished : wish = some pursuit.wish)
      (computes : progress.computes = Pursuit.computes (some pursuit)) :
      Course wish before progress (some pursuit)

theorem Course.of_idle {wish : Option (String × Reading)} {before after : Option Pursuit}
    {progress : Progress} (course : Course wish before progress after)
    (idle : progress.computes = false) :
    after = before ∨ Pursuit.computes before = false ∧ Pursuit.computes after = false ∧
      ∀ pursuit, after = some pursuit → wish = some pursuit.wish := by
  cases course with
  | rest _ => exact .inl rfl
  | done free _ => exact .inr ⟨free, rfl, nofun⟩
  | on free wished computes =>
      refine .inr ⟨free, computes.symm.trans idle, ?_⟩
      intro pursuit same
      cases same
      exact wished

theorem Course.of_compute {wish : Option (String × Reading)} {before after : Option Pursuit}
    {progress : Progress} (course : Course wish before progress after)
    (computes : progress.computes = true) :
    Pursuit.computes before = false ∧ ∃ key reading,
      wish = some (key, reading) ∧ after = some ⟨.computing, key, reading⟩ := by
  cases course with
  | rest idle =>
      rw [idle] at computes
      cases computes
  | done _ idle =>
      rw [idle] at computes
      cases computes
  | on free wished told =>
      obtain ⟨key, reading, same⟩ := (Pursuit.computes_iff _).mp (told.symm.trans computes)
      cases same
      exact ⟨free, key, reading, wished, rfl⟩

/-- Books in which one caller is put elsewhere and the flights agree with that. -/
structure Books.Shifts (before : Books ι) (id : ι) (after : Books ι) : Prop where
  others : ∀ {j}, j ≠ id → after.pursuit? j = before.pursuit? j
  spares : before.flights.Spares after.flights id
  sound : after.flights.Sound
  agree : after.flights.Agree id (after.pursuit? id)

structure Books.Moves (before : Books ι) (id : ι) (wish : Option (String × Reading))
    (progress : Progress) (after : Books ι) : Prop extends before.Shifts id after where
  course : Course wish (before.pursuit? id) progress (after.pursuit? id)

/-- What the end of a caller's computation does to the books. Whoever does not compute may stay. -/
structure Books.Ends (before : Books ι) (id : ι) (progress : Progress) (after : Books ι) : Prop
    extends before.Shifts id after where
  idle : progress.computes = false
  settled : after.pursuit? id = none ∨
    after.pursuit? id = before.pursuit? id ∧ Pursuit.computes (before.pursuit? id) = false

namespace Books

variable {books after : Books ι} {id : ι} {wish : Option (String × Reading)} {progress : Progress}

theorem orderly_of_shifts (orderly : books.Orderly) (shifts : books.Shifts id after) :
    after.Orderly where
  sound := shifts.sound
  agree := by
    intro j
    by_cases same : j = id
    · rw [same]
      exact shifts.agree
    · rw [shifts.others same]
      exact Flights.agree_of_spares shifts.spares same (orderly.agree j)

theorem orderly_of_nobody (flights : books.flights = .empty)
    (nobody : ∀ id, books.pursuit? id = none) : books.Orderly where
  sound := by
    rw [flights]
    exact Flights.empty_sound
  agree := by
    intro id
    rw [nobody, flights]
    exact nofun

theorem rest_shifts (orderly : books.Orderly) (id : ι) : books.Shifts id books where
  others := fun _ => rfl
  spares := Flights.spares_of_equal books.flights id
  sound := orderly.sound
  agree := orderly.agree id

theorem rest_moves (orderly : books.Orderly) (id : ι) (wish : Option (String × Reading))
    (idle : progress.computes = false) : books.Moves id wish progress books where
  toShifts := rest_shifts orderly id
  course := .rest idle

variable [DecidableEq ι]

def put (books : Books ι) (g : Flights ι) (id : ι) (pursuit : Option Pursuit) : Books ι :=
  ⟨g, fun j => if j = id then pursuit else books.pursuit? j⟩

theorem put_pursuit (books : Books ι) (g : Flights ι) (id : ι) (pursuit : Option Pursuit) :
    (books.put g id pursuit).pursuit? id = pursuit := if_pos rfl

theorem put_others (books : Books ι) (g : Flights ι) (pursuit : Option Pursuit) {id j : ι}
    (other : j ≠ id) : (books.put g id pursuit).pursuit? j = books.pursuit? j := if_neg other

theorem put_shifts {g : Flights ι} {pursuit : Option Pursuit} (spares : books.flights.Spares g id)
    (sound : g.Sound) (agree : g.Agree id pursuit) :
    books.Shifts id (books.put g id pursuit) where
  others := put_others _ _ _
  spares := spares
  sound := sound
  agree := by
    rw [put_pursuit]
    exact agree

theorem put_moves {g : Flights ι} {pursuit : Option Pursuit} (spares : books.flights.Spares g id)
    (sound : g.Sound) (agree : g.Agree id pursuit)
    (course : Course wish (books.pursuit? id) progress pursuit) :
    books.Moves id wish progress (books.put g id pursuit) where
  toShifts := put_shifts spares sound agree
  course := by
    rw [put_pursuit]
    exact course

theorem leave_shifts {g : Flights ι} (spares : books.flights.Spares g id) (sound : g.Sound) :
    books.Shifts id (books.put (g.drop id).2 id none) :=
  put_shifts (Flights.spares_trans spares (Flights.drop_spares g id)) (Flights.drop_sound sound id)
    (Flights.not_caller_of_drop g id)

theorem leave_ends (orderly : books.Orderly) (id : ι) (idle : progress.computes = false) :
    books.Ends id progress (books.put (books.flights.drop id).2 id none) where
  toShifts := leave_shifts (Flights.spares_of_equal books.flights id) orderly.sound
  idle := idle
  settled := .inl (put_pursuit _ _ _ _)

section Told

variable {key : String} {turn : Turn} {g : Flights ι}
  (told : books.flights.Told id key turn g) (free : Pursuit.computes (books.pursuit? id) = false)

include told free

theorem wait_moves (reading : Reading) :
    books.Moves id (some (key, reading)) .waiting
      (books.put g id (some ⟨.inLine, key, reading⟩)) :=
  put_moves told.spares told.sound told.queued (.on free rfl rfl)

theorem hold_moves (held : turn = .held) (command : Command) (reading : Reading) :
    books.Moves id (some (key, reading)) (.send command)
      (books.put g id (some ⟨.holding, key, reading⟩)) :=
  put_moves told.spares told.sound (told.first held) (.on free rfl rfl)

theorem compute_moves (held : turn = .held) (reading : Reading) :
    books.Moves id (some (key, reading)) .compute
      (books.put g id (some ⟨.computing, key, reading⟩)) :=
  put_moves told.spares told.sound (told.first held) (.on free rfl rfl)

theorem leave_moves (wish : Option (String × Reading)) (idle : progress.computes = false) :
    books.Moves id wish progress (books.put (g.drop id).2 id none) where
  toShifts := leave_shifts told.spares told.sound
  course := by
    rw [put_pursuit]
    exact .done free idle

end Told

end Books

end ExpiringCache
