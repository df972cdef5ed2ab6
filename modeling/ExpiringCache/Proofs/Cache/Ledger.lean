import ExpiringCache.Proofs.Cache.Tidy
import ExpiringCache.Proofs.Store.Lasting
/-!
Keeping books of a stampede. Many callers ask an embedded cache to fill one key, each with a
computation of its own that stores the key once and ends well, or fails without having stored it.
The ledger says who asked, whose computation was begun, stored the key and ended how, and who was
given what; it is in balance if all of that fits together. Each kind of step keeps the balance.
-/

namespace ExpiringCache

def Happening.calls {ι : Type} : Happening ι → List (ι × String × Reading)
  | .begin id (.fill key reading) => [(id, key, reading)]
  | _ => []

def Progress.answers {ι : Type} (id : ι) : Progress → List (ι × Outcome)
  | .finished outcome => [(id, outcome)]
  | _ => []

theorem Progress.mem_answers {ι : Type} {id j : ι} {progress : Progress} {outcome : Outcome} :
    (j, outcome) ∈ progress.answers id ↔ j = id ∧ progress = .finished outcome := by
  cases progress with
  | finished given => simp [answers, eq_comm]
  | waiting => simp [answers]
  | send command => simp [answers]
  | compute => simp [answers]

theorem World.runner_unique {ι : Type} [DecidableEq ι] {w : World ι} (orderly : w.Orderly)
    {i j : ι} {key : String} (one : (i, key) ∈ w.running) (other : (j, key) ∈ w.running) :
    i = j :=
  congrArg Prod.fst (List.inj_on_of_nodup_map (World.alone_of_orderly orderly) one other rfl)

/-- A world, and what has happened in it around one key. -/
structure Stampede (ι : Type) where
  world : World ι
  calls : List (ι × String × Reading)
  begun : List ι
  stored : List (ι × Payload)
  ended : List (ι × Option Cause)
  returned : List (ι × Outcome)

namespace Stampede

variable {ι : Type}

def start (w : World ι) : Stampede ι := ⟨w, [], [], [], [], []⟩

/-- What may happen around the key. No caller that wants the key goes away before it is given
something, a computation that has stored the key ends well and one that has not fails, and nobody
else touches the key. -/
def Allows (key : String) (s : Stampede ι) : Happening ι → Prop
  | .begin id (.operate operation) => s.world.asked id = none ∧
    (operation.touches key = true → ∃ caller payload, (caller, key) ∈ s.world.running ∧
      caller ∉ s.stored.map (·.1) ∧ operation.stores? key s.world.now = some payload)
  | .begin id (.fill _ _) => s.world.asked id = none
  | .computed id failure =>
    (id, key) ∈ s.world.running → (failure = none ↔ id ∈ s.stored.map (·.1))
  | .leave id => ∀ reading, s.world.wish? id ≠ some (key, reading)
  | .restock store => ∀ c, s.world.cache = .embedded c →
    ∀ t : Instant, s.world.now.toNanos ≤ t.toNanos → store.live? t key = c.store.live? t key
  | .turn _ | .reply _ _ | .wait _ => True

theorem world_allows {key : String} {s : Stampede ι} {happening : Happening ι}
    (allowed : s.Allows key happening) :
    s.world.Allows happening := by
  cases happening with
  | begin id request =>
      cases request with
      | operate operation => exact allowed.1
      | fill k reading => exact allowed
  | turn id => trivial
  | reply id reply => trivial
  | computed id failure => trivial
  | leave id => trivial
  | restock store => trivial
  | wait length => trivial

section Next

variable [DecidableEq ι] (key : String) (s : Stampede ι)

def begins (happening : Happening ι) : List ι :=
  match s.world.reaction? happening with
  | some (id, reaction) =>
    match reaction.progress, (s.world.next happening).wish? id with
    | .compute, some (k, _) => if k = key then [id] else []
    | _, _ => []
  | none => []

def stores : Happening ι → List (ι × Payload)
  | .begin _ (.operate operation) =>
    match s.world.running.find? (·.2 == key), operation.stores? key s.world.now with
    | some (id, _), some payload => [(id, payload)]
    | _, _ => []
  | _ => []

def ends : Happening ι → List (ι × Option Cause)
  | .computed id failure => if (id, key) ∈ s.world.running then [(id, failure)] else []
  | _ => []

def returns (happening : Happening ι) : List (ι × Outcome) :=
  match s.world.reaction? happening with
  | some (id, reaction) => reaction.progress.answers id
  | none => []

def next (happening : Happening ι) : Stampede ι where
  world := s.world.next happening
  calls := s.calls ++ happening.calls
  begun := s.begun ++ s.begins key happening
  stored := s.stored ++ s.stores key happening
  ended := s.ended ++ s.ends key happening
  returned := s.returned ++ s.returns happening

end Next

/-- What a caller of the key was given: its own failure, or what the one good computation stored. -/
def Deserved (key : String) (s : Stampede ι) (id : ι) (outcome : Outcome) : Prop :=
  (∃ cause, (id, some cause) ∈ s.ended ∧ outcome = .error (.compute cause)) ∨
    ∃ winner payload, s.stored = [(winner, payload)] ∧
      (∃ reading, (id, key, reading) ∈ s.calls ∧ outcome = reading.of key payload) ∧
      (id ∈ s.begun → id = winner)

variable {key : String} {s : Stampede ι} {id : ι}

/-- What a caller deserves it deserves later, if nothing more is stored. -/
theorem deserved_later {t : Stampede ι} {outcome : Outcome} (deserved : s.Deserved key id outcome)
    (stored : t.stored = s.stored ∨ s.stored = [])
    (calls : ∀ {k reading}, (id, k, reading) ∈ s.calls → (id, k, reading) ∈ t.calls)
    (ended : ∀ {failure}, (id, failure) ∈ s.ended → (id, failure) ∈ t.ended)
    (begun : id ∈ t.begun → id ∈ s.begun) : t.Deserved key id outcome := by
  rcases deserved with ⟨cause, there, same⟩ | ⟨winner, payload, one, ⟨reading, called, same⟩, won⟩
  · exact .inl ⟨cause, ended there, same⟩
  · rcases stored with stays | empty
    · exact .inr ⟨winner, payload, stays.trans one, ⟨reading, calls called, same⟩,
        fun there => won (begun there)⟩
    · rw [empty] at one
      cases one

theorem mem_begun_iff {j : ι} {k : String} :
    j ∈ s.begun ++ (if k = key then [id] else []) ↔ j ∈ s.begun ∨ j = id ∧ k = key := by
  by_cases same : k = key
  · simp [same]
  · simp [same]

variable [DecidableEq ι]

structure Ledger (key : String) (s : Stampede ι) : Prop where
  single : s.stored.length ≤ 1
  writer : ∀ {id payload}, (id, payload) ∈ s.stored →
    (id, key) ∈ s.world.running ∨ (id, none) ∈ s.ended
  wrote : ∀ {id}, (id, key) ∈ s.world.running → s.stored = [] ∨ id ∈ s.stored.map (·.1)
  begun : ∀ {id}, id ∈ s.begun →
    id ∈ s.world.told ∧ ∃ reading, (id, key, reading) ∈ s.calls
  once : s.begun.Nodup
  ended : ∀ {id failure}, (id, failure) ∈ s.ended → id ∈ s.begun ∧
    s.world.cache.books.pursuit? id = none ∧ (failure = none ↔ id ∈ s.stored.map (·.1))
  endedOnce : (s.ended.map (·.1)).Nodup
  runs : ∀ {id}, (id, key) ∈ s.world.running → id ∈ s.begun
  called : ∀ {id k reading}, (id, k, reading) ∈ s.calls → s.world.wish? id = some (k, reading)
  pending : ∀ {id pursuit}, s.world.cache.books.pursuit? id = some pursuit →
    (id, pursuit.wish) ∈ s.calls
  returned : ∀ {id outcome}, (id, outcome) ∈ s.returned →
    s.world.asked id ≠ none ∧ s.world.cache.books.pursuit? id = none
  deserved : ∀ {id reading outcome}, (id, key, reading) ∈ s.calls → (id, outcome) ∈ s.returned →
    s.Deserved key id outcome

theorem start_ledger {w : World ι} (idle : w.running = [])
    (nobody : ∀ id, w.cache.books.pursuit? id = none) (key : String) :
    (start w).Ledger key where
  single := Nat.zero_le 1
  writer := nofun
  wrote := fun _ => .inl rfl
  begun := nofun
  once := List.nodup_nil
  ended := nofun
  endedOnce := List.nodup_nil
  runs := by
    intro id runs
    rw [start, idle] at runs
    cases runs
  called := nofun
  pending := by
    intro id pursuit found
    rw [start, nobody id] at found
    cases found
  returned := nofun
  deserved := nofun

/-- Whoever is done with the key, or was given something, is in the books no longer. -/
theorem absent_of_known (ledger : s.Ledger key)
    (known : id ∈ s.ended.map (·.1) ∨ id ∈ s.returned.map (·.1)) :
    s.world.cache.books.pursuit? id = none := by
  rcases known with past | given
  · obtain ⟨⟨_, failure⟩, there, rfl⟩ := List.mem_map.mp past
    exact (ledger.ended there).2.1
  · obtain ⟨⟨_, outcome⟩, there, rfl⟩ := List.mem_map.mp given
    exact (ledger.returned there).2

/-- Whoever is in the books after one caller has been put elsewhere has asked for what it waits. -/
theorem pending_of_others (ledger : s.Ledger key) {d : Cache ι}
    (others : ∀ {j}, j ≠ id → d.books.pursuit? j = s.world.cache.books.pursuit? j)
    (mine : ∀ {pursuit}, d.books.pursuit? id = some pursuit → (id, pursuit.wish) ∈ s.calls) {j : ι}
    {pursuit : Pursuit} (found : d.books.pursuit? j = some pursuit) :
    (j, pursuit.wish) ∈ s.calls := by
  by_cases same : j = id
  · subst same
    exact mine found
  · exact ledger.pending ((others same).symm.trans found)

/-- Whoever is done stays out of the books when another caller is put elsewhere. -/
theorem absent_of_others (ledger : s.Ledger key) {d : Cache ι}
    (others : ∀ {j}, j ≠ id → d.books.pursuit? j = s.world.cache.books.pursuit? j)
    (settled : id ∈ s.ended.map (·.1) ∨ id ∈ s.returned.map (·.1) → d.books.pursuit? id = none)
    {j : ι} (known : j ∈ s.ended.map (·.1) ∨ j ∈ s.returned.map (·.1)) :
    d.books.pursuit? j = none := by
  by_cases same : j = id
  · subst same
    exact settled known
  · exact (others same).trans (absent_of_known ledger known)

theorem asking_ledger (ledger : s.Ledger key) (new : s.world.asked id = none) (request : Request)
    {calls : List (ι × String × Reading)}
    (wished : ∀ {j wish}, (j, wish) ∈ calls → j = id ∧ request.wish? = some wish) :
    ({ s with world := s.world.asking id request, calls := s.calls ++ calls } :
      Stampede ι).Ledger key where
  single := ledger.single
  writer := ledger.writer
  wrote := ledger.wrote
  begun := by
    intro j there
    obtain ⟨told, reading, called⟩ := ledger.begun there
    exact ⟨told, reading, List.mem_append_left _ called⟩
  once := ledger.once
  ended := ledger.ended
  endedOnce := ledger.endedOnce
  runs := ledger.runs
  called := by
    intro j k reading there
    rcases List.mem_append.mp there with before | now
    · have known := ledger.called before
      have other : j ≠ id := by
        rintro rfl
        rw [World.wish?, new] at known
        cases known
      simpa only [World.wish?, World.asking, if_neg other] using known
    · obtain ⟨rfl, wish⟩ := wished now
      simpa only [World.wish?, World.asking, if_true, Option.bind_some] using wish
  pending := fun found => List.mem_append_left _ (ledger.pending found)
  returned := by
    intro j outcome there
    obtain ⟨asked, gone⟩ := ledger.returned there
    refine ⟨?_, gone⟩
    simp only [World.asking]
    split
    · exact Option.some_ne_none _
    · exact asked
  deserved := by
    intro j reading outcome called there
    have other : j ≠ id := by
      rintro rfl
      exact (ledger.returned there).1 new
    rcases List.mem_append.mp called with before | now
    · exact deserved_later (ledger.deserved before there) (.inl rfl)
        (List.mem_append_left _) (fun there => there) (fun there => there)
    · exact absurd (wished now).1 other

/-- A reaction without a computation of the key: one caller is put elsewhere, and may be given
something. -/
theorem idle_ledger (ledger : s.Ledger key) (id : ι) {d : Cache ι}
    {running : List (ι × String)} {answers : List (ι × Outcome)}
    (runs : ∀ j, (j, key) ∈ running ↔ (j, key) ∈ s.world.running)
    (others : ∀ {j}, j ≠ id → d.books.pursuit? j = s.world.cache.books.pursuit? j)
    (mine : ∀ {pursuit}, d.books.pursuit? id = some pursuit → (id, pursuit.wish) ∈ s.calls)
    (settled : id ∈ s.ended.map (·.1) ∨ id ∈ s.returned.map (·.1) → d.books.pursuit? id = none)
    (given : ∀ {j outcome}, (j, outcome) ∈ answers → j = id ∧ s.world.asked id ≠ none ∧
      d.books.pursuit? id = none ∧
      ∀ {reading}, (id, key, reading) ∈ s.calls → s.Deserved key id outcome) :
    ({ s with
      world := { s.world with cache := d, running }
      returned := s.returned ++ answers } : Stampede ι).Ledger key where
  single := ledger.single
  writer := fun there => (ledger.writer there).imp_left (runs _).mpr
  wrote := fun there => ledger.wrote ((runs _).mp there)
  begun := ledger.begun
  once := ledger.once
  ended := by
    intro j failure there
    obtain ⟨begun, _, agreed⟩ := ledger.ended there
    have known : j ∈ s.ended.map (·.1) := List.mem_map_of_mem there
    exact ⟨begun, absent_of_others ledger others settled (.inl known), agreed⟩
  endedOnce := ledger.endedOnce
  runs := fun there => ledger.runs ((runs _).mp there)
  called := ledger.called
  pending := pending_of_others ledger others mine
  returned := by
    intro j outcome there
    rcases List.mem_append.mp there with before | now
    · have known : j ∈ s.returned.map (·.1) := List.mem_map_of_mem before
      exact ⟨(ledger.returned before).1, absent_of_others ledger others settled (.inr known)⟩
    · obtain ⟨rfl, asked, gone, _⟩ := given now
      exact ⟨asked, gone⟩
  deserved := by
    intro j reading outcome called there
    rcases List.mem_append.mp there with before | now
    · exact ledger.deserved called before
    · obtain ⟨rfl, _, _, deserved⟩ := given now
      exact deserved called

theorem storing_ledger (ledger : s.Ledger key) (orderly : s.world.Orderly)
    (runs : (id, key) ∈ s.world.running) (empty : s.stored = []) (payload : Payload) :
    ({ s with stored := [(id, payload)] } : Stampede ι).Ledger key where
  single := Nat.le_refl 1
  writer := by
    intro j other there
    cases List.mem_singleton.mp there
    exact .inl runs
  wrote := by
    intro j there
    rw [World.runner_unique orderly there runs]
    exact .inr (List.mem_singleton_self _)
  begun := ledger.begun
  once := ledger.once
  ended := by
    intro j failure there
    obtain ⟨begun, gone, agreed⟩ := ledger.ended there
    have failed : failure ≠ none := by
      intro well
      simpa [empty] using agreed.mp well
    have other : j ≠ id := by
      rintro rfl
      obtain ⟨reading, found⟩ := (orderly.running j key).mp runs
      rw [gone] at found
      cases found
    refine ⟨begun, gone, ?_⟩
    simp [failed, other]
  endedOnce := ledger.endedOnce
  runs := ledger.runs
  called := ledger.called
  pending := ledger.pending
  returned := ledger.returned
  deserved := by
    intro j reading outcome called there
    exact deserved_later (ledger.deserved called there) (.inr empty) (fun there => there)
      (fun there => there) (fun there => there)

theorem begins_ledger (ledger : s.Ledger key) {d : Cache ι} {k : String} {reading : Reading}
    (others : ∀ {j}, j ≠ id → d.books.pursuit? j = s.world.cache.books.pursuit? j)
    (mine : d.books.pursuit? id = some ⟨.computing, k, reading⟩)
    (called : (id, k, reading) ∈ s.calls) (untold : id ∉ s.world.told)
    (ungiven : id ∉ s.returned.map (·.1)) (missing : k = key → s.stored = []) :
    ({ s with
      world := { s.world with
        cache := d
        running := s.world.running ++ [(id, k)]
        told := s.world.told ++ [id] }
      begun := s.begun ++ if k = key then [id] else [] } : Stampede ι).Ledger key where
  single := ledger.single
  writer := fun there => (ledger.writer there).imp_left (List.mem_append_left _)
  wrote := by
    intro j there
    rcases List.mem_append.mp there with before | now
    · exact ledger.wrote before
    · cases List.mem_singleton.mp now
      exact .inl (missing rfl)
  begun := by
    intro j there
    rcases mem_begun_iff.mp there with before | ⟨rfl, rfl⟩
    · obtain ⟨told, wanted⟩ := ledger.begun before
      exact ⟨List.mem_append_left _ told, wanted⟩
    · exact ⟨List.mem_append_right _ (List.mem_singleton_self _), reading, called⟩
  once := by
    split
    · have new : id ∉ s.begun := fun there => untold (ledger.begun there).1
      simpa only [List.concat_eq_append] using List.Nodup.concat new ledger.once
    · rw [List.append_nil]
      exact ledger.once
  ended := by
    intro j failure there
    obtain ⟨begun, gone, agreed⟩ := ledger.ended there
    have other : j ≠ id := by
      rintro rfl
      exact untold (ledger.begun begun).1
    exact ⟨List.mem_append_left _ begun, (others other).trans gone, agreed⟩
  endedOnce := ledger.endedOnce
  runs := by
    intro j there
    rcases List.mem_append.mp there with before | now
    · exact mem_begun_iff.mpr (.inl (ledger.runs before))
    · cases List.mem_singleton.mp now
      exact mem_begun_iff.mpr (.inr ⟨rfl, rfl⟩)
  called := ledger.called
  pending := by
    apply pending_of_others ledger others
    intro pursuit found
    rw [mine] at found
    cases found
    exact called
  returned := by
    intro j outcome there
    obtain ⟨asked, gone⟩ := ledger.returned there
    have other : j ≠ id := by
      rintro rfl
      exact ungiven (List.mem_map_of_mem there)
    exact ⟨asked, (others other).trans gone⟩
  deserved := by
    intro j other outcome wanted there
    refine deserved_later (ledger.deserved wanted there) (.inl rfl) (fun there => there)
      (fun there => there) ?_
    intro begun
    rcases mem_begun_iff.mp begun with before | ⟨rfl, _⟩
    · exact before
    · exact absurd (List.mem_map_of_mem there) ungiven

/-- A computation of the key ends, and its caller is given what it deserves. -/
theorem ending_ledger (ledger : s.Ledger key) (orderly : s.world.Orderly) {d : Cache ι}
    (others : ∀ {j}, j ≠ id → d.books.pursuit? j = s.world.cache.books.pursuit? j)
    (gone : d.books.pursuit? id = none) (runs : (id, key) ∈ s.world.running)
    {failure : Option Cause} (agreed : failure = none ↔ id ∈ s.stored.map (·.1))
    {outcome : Outcome}
    (deserved : ({ s with ended := s.ended ++ [(id, failure)] } : Stampede ι).Deserved key id
      outcome) :
    ({ s with
      world := { s.world.ended id with cache := d }
      ended := s.ended ++ [(id, failure)]
      returned := s.returned ++ [(id, outcome)] } : Stampede ι).Ledger key := by
  obtain ⟨reading, computing⟩ := (orderly.running id key).mp runs
  -- Whoever is in no books is another caller, since this one computes.
  have other : ∀ {j}, s.world.cache.books.pursuit? j = none → j ≠ id := by
    rintro j absent rfl
    rw [absent] at computing
    cases computing
  have before : ∀ {j}, (j, key) ∈ (s.world.ended id).running → (j, key) ∈ s.world.running :=
    fun there => (List.mem_filter.mp there).1
  constructor
  case single => exact ledger.single
  case writer =>
    intro j payload there
    rcases ledger.writer there with still | well
    · by_cases same : j = id
      · subst same
        have well := agreed.mpr (List.mem_map_of_mem there)
        subst well
        exact .inr (List.mem_append_right _ (List.mem_singleton_self _))
      · exact .inl (List.mem_filter.mpr ⟨still, bne_iff_ne.mpr same⟩)
    · exact .inr (List.mem_append_left _ well)
  case wrote => exact fun there => ledger.wrote (before there)
  case begun => exact ledger.begun
  case once => exact ledger.once
  case ended =>
    intro j how there
    rcases List.mem_append.mp there with past | now
    · obtain ⟨begun, absent, same⟩ := ledger.ended past
      exact ⟨begun, (others (other absent)).trans absent, same⟩
    · cases List.mem_singleton.mp now
      exact ⟨ledger.runs runs, gone, agreed⟩
  case endedOnce =>
    have new : id ∉ s.ended.map (·.1) := fun there =>
      other (absent_of_known ledger (.inl there)) rfl
    rw [List.map_append, List.map_singleton, ← List.concat_eq_append]
    exact List.Nodup.concat new ledger.endedOnce
  case runs => exact fun there => ledger.runs (before there)
  case called => exact ledger.called
  case pending =>
    apply pending_of_others ledger others
    intro pursuit found
    rw [gone] at found
    cases found
  case returned =>
    intro j given there
    rcases List.mem_append.mp there with past | now
    · obtain ⟨asked, absent⟩ := ledger.returned past
      exact ⟨asked, (others (other absent)).trans absent⟩
    · cases List.mem_singleton.mp now
      exact ⟨(orderly.told (ledger.begun (ledger.runs runs)).1).1, gone⟩
  case deserved =>
    intro j wanted given called there
    rcases List.mem_append.mp there with past | now
    · exact deserved_later (ledger.deserved called past) (.inl rfl) (fun there => there)
        (List.mem_append_left _) (fun there => there)
    · cases List.mem_singleton.mp now
      exact deserved_later deserved (.inl rfl) (fun there => there) (fun there => there)
        (fun there => there)

end Stampede

end ExpiringCache
