import ExpiringCache.Proofs.Cache.Ledger
/-!
The ledger stays in balance. An embedded cache shows at a key what the ledger says was stored there:
nothing until a computation stores the key, and that from then on. So fills are told what they
should be told, and whatever happens in a stampede fits what the ledger said before.
-/

namespace ExpiringCache.Stampede

variable {ι : Type} {key : String} {s : Stampede ι} {c : EmbeddedCache ι} {id : ι}

/-! ### What the key shows -/

def Shows (key : String) (s : Stampede ι) (c : EmbeddedCache ι) : Prop :=
  ∀ t : Instant, s.world.now.toNanos ≤ t.toNanos →
    (c.store.live? t key).map (·.payload) = s.stored.head?.map (·.2)

theorem stored_of_live (shows : s.Shows key c) (single : s.stored.length ≤ 1) {e : Entry}
    (live : c.store.live? s.world.now key = some e) :
    ∃ winner, s.stored = [(winner, e.payload)] := by
  have shown := shows s.world.now (Nat.le_refl _)
  rw [live] at shown
  match stored : s.stored with
  | [] =>
      rw [stored] at shown
      cases shown
  | [(winner, payload)] =>
      rw [stored] at shown
      cases Option.some.inj shown
      exact ⟨winner, rfl⟩
  | _ :: _ :: _ => simp [stored] at single

theorem missing_iff_unstored (shows : s.Shows key c) :
    c.store.isLive s.world.now key = false ↔ s.stored = [] := by
  have shown := congrArg Option.isSome (shows s.world.now (Nat.le_refl _))
  rw [Option.isSome_map, Option.isSome_map] at shown
  rw [Store.isLive, shown]
  simp

theorem shows_of_entries {t : Stampede ι} {d : EmbeddedCache ι} (shows : s.Shows key c)
    (entries : d.store.entries = c.store.entries) (now : t.world.now = s.world.now)
    (stored : t.stored = s.stored) : t.Shows key d := by
  intro u order
  rw [now] at order
  rw [Store.live_of_entries, entries, stored]
  exact shows u order

theorem stores_of_untouched {operation : Operation}
    (untouched : operation.touches key = false) :
    s.stores key (.begin id (.operate operation)) = [] := by
  have nothing : operation.stores? key s.world.now = none := by
    rw [Option.eq_none_iff_forall_ne_some]
    intro payload stored
    rw [Operation.touches_of_stores stored] at untouched
    cases untouched
  simp only [stores, nothing]
  cases s.world.running.find? (·.2 == key) <;> rfl

variable [DecidableEq ι] {happening : Happening ι}

theorem stores_of_runner (orderly : s.world.Orderly) {caller : ι}
    (runs : (caller, key) ∈ s.world.running) {operation : Operation} {payload : Payload}
    (stored : operation.stores? key s.world.now = some payload) :
    s.stores key (.begin id (.operate operation)) = [(caller, payload)] := by
  have somebody : (s.world.running.find? (·.2 == key)).isSome := by
    rw [List.find?_isSome]
    exact ⟨_, runs, beq_self_eq_true key⟩
  obtain ⟨⟨other, k⟩, found⟩ := Option.isSome_iff_exists.mp somebody
  have same : k = key := by simpa using List.find?_some found
  subst same
  have there := List.mem_of_find?_eq_some found
  simp only [stores, found, stored]
  rw [World.runner_unique orderly there runs]

/-- An operation leaves the key alone, or is what the caller that computes has stored. -/
theorem operate_shows (orderly : s.world.Orderly) (ledger : s.Ledger key) (shows : s.Shows key c)
    {operation : Operation} (allowed : s.Allows key (.begin id (.operate operation))) :
    (s.next key (.begin id (.operate operation))).Shows key
      (c.start s.world.now id (.operate operation)).state := by
  intro t order
  replace order : s.world.now.toNanos ≤ t.toNanos := by
    rwa [next, World.next, World.after_now] at order
  cases touched : operation.touches key with
  | false =>
      simp only [next, stores_of_untouched touched, List.append_nil]
      exact (congrArg _ (c.store.live_after_untouched s.world.now touched order)).trans
        (shows t order)
  | true =>
      obtain ⟨caller, payload, runs, unwritten, stored⟩ := allowed.2 touched
      have empty := (ledger.wrote runs).resolve_right unwritten
      have missing := (missing_iff_unstored shows).mpr empty
      simp only [next, stores_of_runner orderly runs stored, empty, List.nil_append]
      exact c.store.live_after_stored s.world.now missing stored t

theorem next_shows (orderly : s.world.Orderly) (ledger : s.Ledger key)
    (here : s.world.cache = .embedded c) (shows : s.Shows key c)
    (allowed : s.Allows key happening) :
    ∃ d, (s.next key happening).world.cache = .embedded d ∧ (s.next key happening).Shows key d := by
  cases happening with
  | begin id request =>
      refine ⟨(c.start s.world.now id request).state, ?_, ?_⟩
      · rw [next, World.next, World.after_cache, here]
        rfl
      cases request with
      | fill k reading =>
          exact shows_of_entries shows (c.start_entries s.world.now id k reading)
            (World.after_now _ _ _) (List.append_nil _)
      | operate operation => exact operate_shows orderly ledger shows allowed
  | turn id =>
      refine ⟨(c.turn s.world.now id).state, ?_, ?_⟩
      · rw [next, World.next, World.after_cache, here]
        rfl
      · exact shows_of_entries shows (c.turn_entries s.world.now id) (World.after_now _ _ _)
          (List.append_nil _)
  | reply id reply =>
      refine ⟨c, ?_, ?_⟩
      · rw [next, World.next, World.after_cache, here]
        rfl
      · exact shows_of_entries shows rfl (World.after_now _ _ _) (List.append_nil _)
  | computed id failure =>
      refine ⟨(c.computed s.world.now id failure).state, ?_, ?_⟩
      · rw [next, World.next, World.after_cache, here]
        rfl
      · exact shows_of_entries shows (c.computed_entries s.world.now id failure)
          (World.after_now _ _ _) (List.append_nil _)
  | leave id =>
      refine ⟨c.leave id, ?_, ?_⟩
      · rw [next, World.next, here]
        rfl
      · exact shows_of_entries shows rfl rfl (List.append_nil _)
  | restock store =>
      refine ⟨{ c with store }, ?_, ?_⟩
      · rw [next, World.next, here]
        rfl
      · intro t order
        simp only [next, stores, List.append_nil]
        rw [allowed c here t order]
        exact shows t order
  | wait length =>
      refine ⟨c, here, ?_⟩
      intro t order
      simp only [next, stores, List.append_nil]
      exact shows t (Nat.le_trans (Instant.nanos_le_later s.world.now length) order)

/-! ### What happens keeps the ledger in balance -/

theorem fill_ledger (ledger : s.Ledger key) {reaction : Reaction (Cache ι)} {k : String}
    {reading : Reading}
    (moves : s.world.cache.books.Moves id (some (k, reading)) reaction.progress
      reaction.state.books)
    (called : (id, k, reading) ∈ s.calls) (untold : id ∉ s.world.told)
    (ungiven : id ∉ s.returned.map (·.1))
    (done : ∀ {outcome}, reaction.progress = .finished outcome →
      reaction.state.books.pursuit? id = none)
    (shows : s.Shows key c) (tells : c.store.Tells s.world.now k reading reaction.progress)
    {begun : List ι}
    (begins : begun = if reaction.progress.computes = true ∧ k = key then [id] else []) :
    ({ s with
      world := s.world.after id reaction
      begun := s.begun ++ begun
      returned := s.returned ++ reaction.progress.answers id } : Stampede ι).Ledger key := by
  have wished := ledger.called called
  cases computes : reaction.progress.computes with
  | true =>
      obtain ⟨_, k', reading', same, placed⟩ := moves.course.of_compute computes
      cases same
      have progress := Progress.compute_of_computes computes
      -- A caller is told to compute only where nothing is shown, and so nothing is stored.
      have missing : k = key → s.stored = [] := by
        rintro rfl
        rw [progress] at tells
        exact (missing_iff_unstored shows).mp tells
      have balanced := begins_ledger ledger moves.others placed called untold ungiven missing
      simp only [computes, true_and] at begins
      rw [World.after_of_compute computes wished, begins, progress]
      simpa only [Progress.answers, List.append_nil] using balanced
  | false =>
      have running : ∀ j, (j, key) ∈ s.world.running ↔ (j, key) ∈ s.world.running :=
        fun _ => Iff.rfl
      simp only [computes, Bool.false_eq_true, false_and, if_false] at begins
      rw [World.after_of_idle computes, begins, List.append_nil]
      refine idle_ledger ledger id running moves.others ?_ ?_ ?_
      · intro pursuit found
        rcases moves.course.of_idle computes with stays | ⟨_, _, goes⟩
        · exact ledger.pending (stays ▸ found)
        · rw [← Option.some.inj (goes pursuit found)]
          exact called
      · rintro (past | given)
        · obtain ⟨⟨_, failure⟩, there, rfl⟩ := List.mem_map.mp past
          exact absurd (ledger.begun (ledger.ended there).1).1 untold
        · exact absurd given ungiven
      · intro j outcome there
        obtain ⟨rfl, finished⟩ := Progress.mem_answers.mp there
        refine ⟨rfl, ?_, done finished, ?_⟩
        · intro unasked
          rw [World.wish?, unasked] at wished
          cases wished
        · intro other wanted
          have same := (ledger.called wanted).symm.trans wished
          cases same
          rw [finished] at tells
          obtain ⟨e, live, rfl⟩ := tells
          obtain ⟨winner, stored⟩ := stored_of_live shows ledger.single live
          exact .inr ⟨winner, e.payload, stored, ⟨reading, wanted, rfl⟩,
            fun begun => absurd (ledger.begun begun).1 untold⟩

theorem begins_of_wished {reaction : Reaction (Cache ι)}
    (reacts : s.world.reaction? happening = some (id, reaction)) {k : String} {reading : Reading}
    (wished : (s.world.next happening).wish? id = some (k, reading)) :
    s.begins key happening =
      if reaction.progress.computes = true ∧ k = key then [id] else [] := by
  simp only [begins, reacts]
  cases reaction.progress with
  | compute => simp [wished, Progress.computes]
  | waiting => simp [Progress.computes]
  | send command => simp [Progress.computes]
  | finished outcome => simp [Progress.computes]

theorem begins_of_idle {reaction : Reaction (Cache ι)}
    (reacts : s.world.reaction? happening = some (id, reaction))
    (idle : reaction.progress.computes = false) : s.begins key happening = [] := by
  simp only [begins, reacts]
  split
  · next computes _ =>
    rw [computes] at idle
    cases idle
  · rfl

theorem begin_fill_ledger (orderly : s.world.Orderly) (ledger : s.Ledger key)
    (here : s.world.cache = .embedded c) (shows : s.Shows key c) {k : String} {reading : Reading}
    (new : s.world.asked id = none) :
    (s.next key (.begin id (.fill k reading))).Ledger key := by
  have unknown := World.unknown_of_new orderly new
  have asking : ({ s with
      world := s.world.asking id (.fill k reading)
      calls := s.calls ++ [(id, k, reading)] } : Stampede ι).Ledger key := by
    refine asking_ledger ledger new _ ?_
    intro j wish there
    cases List.mem_singleton.mp there
    exact ⟨rfl, rfl⟩
  have wished : (s.world.next (.begin id (.fill k reading))).wish? id = some (k, reading) := by
    simp [World.next, World.wish?, World.after_asked, World.asking, Request.wish?]
  have begins : s.begins key (.begin id (.fill k reading)) = _ := begins_of_wished rfl wished
  simp only [next, stores, ends, List.append_nil]
  refine fill_ledger asking
    (Cache.start_moves orderly.books unknown s.world.now (.fill k reading))
    (List.mem_append_right _ (List.mem_singleton_self _)) ?_ ?_ ?_
    (shows_of_entries shows rfl rfl rfl) ?_ begins
  · exact fun told => (orderly.told told).1 new
  · intro given
    obtain ⟨⟨_, outcome⟩, there, rfl⟩ := List.mem_map.mp given
    exact (ledger.returned there).1 new
  · rw [here] at unknown
    rw [here]
    exact c.start_done s.world.now id unknown
  · rw [here]
    exact c.start_tells s.world.now id k reading

/-- Nothing changes when a caller that does not stand in line looks for its turn. -/
theorem idle_turn (here : s.world.cache = .embedded c)
    (stands : c.books.pursuit? id = none ∨ Pursuit.computes (c.books.pursuit? id) = true) :
    s.next key (.turn id) = s := by
  have quiet : s.world.cache.turn s.world.now id = .quiet .waiting s.world.cache := by
    rw [here, Cache.turn, c.turn_of_others s.world.now id stands]
    rfl
  have begins : s.begins key (.turn id) = [] := begins_of_idle rfl (by rw [quiet]; rfl)
  simp only [next, World.next, begins, stores, ends, returns, World.reaction?, Happening.calls,
    quiet, Reaction.quiet, Progress.answers, List.append_nil]
  rw [World.after_of_idle rfl]

theorem turn_ledger (orderly : s.world.Orderly) (ledger : s.Ledger key)
    (here : s.world.cache = .embedded c) (shows : s.Shows key c) :
    (s.next key (.turn id)).Ledger key := by
  rcases found : c.fill? id with _ | ⟨name, k, reading, stage⟩
  · have absent : c.books.pursuit? id = none := by
      simp only [EmbeddedCache.books, found, Option.map_none]
    rw [idle_turn here (.inl absent)]
    exact ledger
  cases stage with
  | computing =>
      have computes : Pursuit.computes (c.books.pursuit? id) = true := by
        simp only [EmbeddedCache.books, found]
        rfl
      rw [idle_turn here (.inr computes)]
      exact ledger
  | inLine =>
      have stands : s.world.cache.books.pursuit? id = some ⟨.inLine, k, reading⟩ := by
        rw [here]
        simp only [Cache.books, EmbeddedCache.books, found]
        rfl
      have moves := Cache.turn_moves orderly.books id s.world.now
      rw [stands] at moves
      have called := ledger.pending stands
      have wished : (s.world.next (.turn id)).wish? id = some (k, reading) := by
        rw [World.next, World.wish?, World.after_asked]
        exact ledger.called called
      have begins : s.begins key (.turn id) = _ := begins_of_wished rfl wished
      simp only [next, stores, ends, Happening.calls, List.append_nil]
      refine fill_ledger ledger moves called ?_ ?_ ?_ shows ?_ begins
      · intro told
        have left := (orderly.told told).2
        rw [stands] at left
        rcases left with gone | computes
        · cases gone
        · cases computes
      · intro given
        rw [absent_of_known ledger (.inr given)] at stands
        cases stands
      · rw [here]
        exact c.turn_done s.world.now id found
      · rw [here] at stands ⊢
        refine c.turn_tells s.world.now id ?_
        intro pursuit same
        rw [Option.some.inj (same.symm.trans stands)]
        rfl

theorem operate_ledger (orderly : s.world.Orderly) (ledger : s.Ledger key)
    (here : s.world.cache = .embedded c) {operation : Operation}
    (allowed : s.Allows key (.begin id (.operate operation))) :
    (s.next key (.begin id (.operate operation))).Ledger key := by
  obtain ⟨new, due⟩ := allowed
  have unknown := World.unknown_of_new orderly new
  have asking : ({ s with
      world := s.world.asking id (.operate operation)
      calls := s.calls ++ [] } : Stampede ι).Ledger key := asking_ledger ledger new _ nofun
  have storing : ({ s with
      world := s.world.asking id (.operate operation)
      calls := s.calls ++ []
      stored := s.stored ++ s.stores key (.begin id (.operate operation)) } :
        Stampede ι).Ledger key := by
    cases touched : operation.touches key with
    | false =>
        rw [stores_of_untouched touched, List.append_nil s.stored]
        exact asking
    | true =>
        obtain ⟨caller, payload, runs, unwritten, stored⟩ := due touched
        have empty := (ledger.wrote runs).resolve_right unwritten
        have orderly' := World.asking_orderly orderly new (.operate operation)
        rw [stores_of_runner orderly runs stored, empty, List.nil_append]
        exact storing_ledger asking orderly' runs empty payload
  have reacts : s.world.cache.start s.world.now id (.operate operation) =
      (c.start s.world.now id (.operate operation)).within .embedded := by rw [here]; rfl
  have idle :
      (s.world.cache.start s.world.now id (.operate operation)).progress.computes = false := by
    rw [reacts]
    rfl
  have begins : s.begins key (.begin id (.operate operation)) = [] := begins_of_idle rfl idle
  have same : (s.world.cache.start s.world.now id (.operate operation)).state.books =
      s.world.cache.books := by
    rw [reacts, here]
    rfl
  simp only [next, World.next, World.after_of_idle idle, begins, ends, Happening.calls,
    List.append_nil s.begun, List.append_nil s.ended]
  refine idle_ledger storing id (fun _ => Iff.rfl) (fun _ => by rw [same]; rfl) ?_ ?_ ?_
  · intro pursuit found
    rw [same, unknown] at found
    cases found
  · intro _
    rw [same, unknown]
  · intro j outcome there
    obtain ⟨rfl, _⟩ := Progress.mem_answers.mp there
    refine ⟨rfl, ?_, by rw [same, unknown], ?_⟩
    · simp [World.asking]
    · intro reading wanted
      have wished := asking.called wanted
      simp [World.wish?, World.asking, Request.wish?] at wished

/-- A caller that does not compute the key goes away, or is where it was. -/
theorem gone_ledger (ledger : s.Ledger key) {progress : Progress} {d : Cache ι}
    (ended : s.world.cache.books.Ends id progress d.books) (elsewhere : (id, key) ∉ s.world.running)
    {answers : List (ι × Outcome)}
    (given : ∀ {j outcome}, (j, outcome) ∈ answers → j = id ∧ s.world.asked id ≠ none ∧
      d.books.pursuit? id = none ∧ ∀ {reading}, (id, key, reading) ∉ s.calls) :
    ({ s with
      world := { s.world.ended id with cache := d }
      returned := s.returned ++ answers } : Stampede ι).Ledger key := by
  have runs : ∀ j, (j, key) ∈ (s.world.ended id).running ↔ (j, key) ∈ s.world.running := by
    intro j
    simp only [World.ended, List.mem_filter, bne_iff_ne, and_iff_left_iff_imp]
    rintro there rfl
    exact elsewhere there
  refine idle_ledger ledger id runs ended.others ?_ ?_ ?_
  · intro pursuit found
    rcases ended.settled with gone | ⟨stays, _⟩
    · rw [gone] at found
      cases found
    · exact ledger.pending (stays ▸ found)
  · intro known
    rcases ended.settled with gone | ⟨stays, _⟩
    · exact gone
    · exact stays.trans (absent_of_known ledger known)
  · intro j outcome there
    obtain ⟨rfl, asked, gone, uncalled⟩ := given there
    exact ⟨rfl, asked, gone, fun called => absurd called uncalled⟩

theorem deserved_of_computed (ledger : s.Ledger key) (here : s.world.cache = .embedded c)
    (shows : s.Shows key c) {reading : Reading} {failure : Option Cause}
    (stands : c.books.pursuit? id = some ⟨.computing, key, reading⟩)
    (agreed : failure = none ↔ id ∈ s.stored.map (·.1)) :
    ∃ outcome, (s.world.cache.computed s.world.now id failure).progress = .finished outcome ∧
      ({ s with ended := s.ended ++ [(id, failure)] } : Stampede ι).Deserved key id outcome := by
  rw [here, Cache.computed, c.computed_of_running s.world.now id stands]
  cases failure with
  | some cause =>
      exact ⟨_, rfl, .inl ⟨cause, List.mem_append_right _ (List.mem_singleton_self _), rfl⟩⟩
  | none =>
      obtain ⟨⟨winner, payload⟩, there, rfl⟩ := List.mem_map.mp (agreed.mp rfl)
      have live : c.store.isLive s.world.now key = true := by
        rw [← Bool.not_eq_false, missing_iff_unstored shows]
        exact List.ne_nil_of_mem there
      obtain ⟨e, found⟩ := Option.isSome_iff_exists.mp live
      obtain ⟨_, stored⟩ := stored_of_live shows ledger.single found
      rw [stored] at there
      cases List.mem_singleton.mp there
      have called := ledger.pending (by rw [here]; exact stands)
      exact ⟨_, rfl, .inr ⟨winner, e.payload, stored,
        ⟨reading, called, Store.fetch_of_live c.store s.world.now found reading⟩, fun _ => rfl⟩⟩

theorem computed_ledger (orderly : s.world.Orderly) (ledger : s.Ledger key)
    (here : s.world.cache = .embedded c) (shows : s.Shows key c) {failure : Option Cause}
    (allowed : s.Allows key (.computed id failure)) :
    (s.next key (.computed id failure)).Ledger key := by
  have ended := Cache.computed_ends orderly.books id s.world.now failure
  have begins : s.begins key (.computed id failure) = [] := begins_of_idle rfl ended.idle
  simp only [next, World.next, World.after_of_idle ended.idle, begins, stores, ends, returns,
    World.reaction?, Happening.calls, List.append_nil]
  split
  · next runs =>
    obtain ⟨reading, stands⟩ := (orderly.running id key).mp runs
    have gone : (s.world.cache.computed s.world.now id failure).state.books.pursuit? id = none := by
      refine ended.settled.resolve_right ?_
      rintro ⟨_, free⟩
      rw [stands] at free
      cases free
    rw [here] at stands
    obtain ⟨outcome, finished, deserved⟩ :=
      deserved_of_computed ledger here shows stands (allowed runs)
    rw [finished]
    exact ending_ledger ledger orderly ended.others gone runs (allowed runs) deserved
  · next elsewhere =>
    rw [List.append_nil]
    refine gone_ledger ledger ended elsewhere ?_
    intro j outcome there
    obtain ⟨rfl, finished⟩ := Progress.mem_answers.mp there
    -- Only a computation that runs, for another key then, has an end.
    have computes : Pursuit.computes (s.world.cache.books.pursuit? j) = true := by
      by_contra free
      rw [here] at finished free
      have quiet := c.computed_of_others s.world.now j (Bool.eq_false_iff.mpr free) failure
      rw [Cache.computed, quiet] at finished
      cases finished
    obtain ⟨k, reading, stands⟩ := (Pursuit.computes_iff _).mp computes
    have wished := orderly.wished stands
    refine ⟨rfl, (orderly.told (orderly.telling computes)).1, ?_, ?_⟩
    · refine ended.settled.resolve_right ?_
      rintro ⟨_, free⟩
      rw [computes] at free
      cases free
    · intro other wanted
      cases (ledger.called wanted).symm.trans wished
      exact elsewhere ((orderly.running j _).mpr ⟨_, stands⟩)

theorem leave_ledger (orderly : s.world.Orderly) (ledger : s.Ledger key)
    (allowed : s.Allows key (.leave id)) : (s.next key (.leave id)).Ledger key := by
  have ended := Cache.leave_ends orderly.books id
  have elsewhere : (id, key) ∉ s.world.running := by
    intro runs
    obtain ⟨reading, stands⟩ := (orderly.running id key).mp runs
    exact allowed reading (orderly.wished stands)
  have balanced : ({ s with
      world := { s.world.ended id with cache := s.world.cache.leave id }
      returned := s.returned ++ [] } : Stampede ι).Ledger key :=
    gone_ledger ledger ended elsewhere nofun
  simpa only [next, World.next, begins, stores, ends, returns, World.reaction?, Happening.calls,
    List.append_nil] using balanced

theorem ledger_of_same_books (ledger : s.Ledger key) {w : World ι}
    (books : w.cache.books = s.world.cache.books) (asked : w.asked = s.world.asked)
    (running : w.running = s.world.running) (told : w.told = s.world.told) :
    ({ s with world := w } : Stampede ι).Ledger key where
  single := ledger.single
  writer := by
    simp only [running]
    exact ledger.writer
  wrote := by
    simp only [running]
    exact ledger.wrote
  begun := by
    simp only [told]
    exact ledger.begun
  once := ledger.once
  ended := by
    simp only [books]
    exact ledger.ended
  endedOnce := ledger.endedOnce
  runs := by
    simp only [running]
    exact ledger.runs
  called := by
    simp only [World.wish?, asked]
    exact ledger.called
  pending := by
    simp only [books]
    exact ledger.pending
  returned := by
    simp only [asked, books]
    exact ledger.returned
  deserved := ledger.deserved

theorem next_ledger (orderly : s.world.Orderly) (ledger : s.Ledger key)
    (here : s.world.cache = .embedded c) (shows : s.Shows key c)
    (allowed : s.Allows key happening) : (s.next key happening).Ledger key := by
  cases happening with
  | begin id request =>
      cases request with
      | operate operation => exact operate_ledger orderly ledger here allowed
      | fill k reading => exact begin_fill_ledger orderly ledger here shows allowed
  | turn id => exact turn_ledger orderly ledger here shows
  | reply id reply =>
      have quiet : s.world.cache.reply id reply = .quiet .waiting s.world.cache := by
        rw [here]
        rfl
      have begins : s.begins key (.reply id reply) = [] := begins_of_idle rfl (by rw [quiet]; rfl)
      simp only [next, World.next, begins, stores, ends, returns, World.reaction?,
        Happening.calls, quiet, Reaction.quiet, Progress.answers, List.append_nil]
      rw [World.after_of_idle rfl]
      exact ledger
  | computed id failure => exact computed_ledger orderly ledger here shows allowed
  | leave id => exact leave_ledger orderly ledger allowed
  | restock store =>
      have same : ({ s with
          world := { s.world with cache := s.world.cache.withStore store } } :
            Stampede ι).Ledger key :=
        ledger_of_same_books ledger (Cache.with_store_books s.world.cache store) rfl rfl rfl
      simpa only [next, World.next, begins, stores, ends, returns, World.reaction?,
        Happening.calls, List.append_nil] using same
  | wait length =>
      have same : ({ s with
          world := { s.world with now := s.world.now.later length } } : Stampede ι).Ledger key :=
        ledger_of_same_books ledger rfl rfl rfl rfl
      simpa only [next, World.next, begins, stores, ends, returns, World.reaction?,
        Happening.calls, List.append_nil] using same

end ExpiringCache.Stampede
