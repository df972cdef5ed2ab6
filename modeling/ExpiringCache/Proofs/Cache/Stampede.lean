import ExpiringCache.Proofs.Cache.Balance
/-!
Stampedes. However many callers ask an embedded cache for one missing key, and in whatever order
they go on, either each of them computes and fails, or one of them computes and stores the key, and
all that have not failed before are given what that one has stored. Nobody computes once the key is
there, nobody computes twice, and no slot stays behind. That everybody is given something in the end
is supposed here: it is up to those who compute, and to those who see to it that callers ask again.
-/

namespace ExpiringCache.Stampede

variable {ι : Type} [DecidableEq ι] {key : String} {s : Stampede ι}

def run (key : String) (s : Stampede ι) (happenings : List (Happening ι)) : Stampede ι :=
  happenings.foldl (next key) s

def Lawful (key : String) : Stampede ι → List (Happening ι) → Prop
  | _, [] => True
  | s, happening :: rest => s.Allows key happening ∧ Lawful key (s.next key happening) rest

/-- Every caller of a key has been given something. -/
def Complete (key : String) (s : Stampede ι) : Prop :=
  ∀ {id reading}, (id, key, reading) ∈ s.calls → ∃ outcome, (id, outcome) ∈ s.returned

/-- Every caller of the key has computed it, failed, and been given its own failure. -/
def AllFailed (key : String) (s : Stampede ι) : Prop :=
  ∀ {id reading}, (id, key, reading) ∈ s.calls → id ∈ s.begun ∧
    ∃ cause, (id, some cause) ∈ s.ended ∧
      ∀ {outcome}, (id, outcome) ∈ s.returned → outcome = .error (.compute cause)

/-- One computation of the key has ended well. Callers whose computations have failed were given
their own failures, and all others what the winner has stored. -/
structure Won (key : String) (s : Stampede ι) (winner : ι) (payload : Payload) : Prop where
  stored : s.stored = [(winner, payload)]
  well : ∀ {id}, (id, none) ∈ s.ended ↔ id = winner
  failed : ∀ {id cause outcome}, (id, some cause) ∈ s.ended → (id, outcome) ∈ s.returned →
    outcome = .error (.compute cause)
  served : ∀ {id reading outcome}, (id, key, reading) ∈ s.calls →
    (∀ cause, (id, some cause) ∉ s.ended) → (id, outcome) ∈ s.returned →
    outcome = reading.of key payload ∧ (reading = .bytes → outcome = .ok (.bytes payload))

/-- How a stampede ends. -/
structure Settled (key : String) (s : Stampede ι) : Prop where
  begun : ∀ {id}, id ∈ s.begun → ∃ reading, (id, key, reading) ∈ s.calls
  once : s.begun.Nodup
  ended : ∀ {id}, id ∈ s.begun ↔ ∃ failure, (id, failure) ∈ s.ended
  endedOnce : (s.ended.map (·.1)).Nodup
  verdict : s.AllFailed key ∨ ∃ winner payload, s.Won key winner payload
  unslotted : s.world.cache.flights.slots.get? key = none

/-! ### Every run keeps the ledger in balance -/

structure Kept (key : String) (s : Stampede ι) : Prop where
  orderly : s.world.Orderly
  ledger : s.Ledger key
  home : ∃ c, s.world.cache = .embedded c ∧ s.Shows key c

theorem start_kept {w : World ι} (orderly : w.Orderly) {c : EmbeddedCache ι}
    (here : w.cache = .embedded c) (nobody : ∀ id, w.cache.books.pursuit? id = none)
    (missing : c.store.isLive w.now key = false) : (start w).Kept key where
  orderly := orderly
  ledger := by
    refine start_ledger ?_ nobody key
    rw [List.eq_nil_iff_forall_not_mem]
    rintro ⟨id, k⟩ runs
    obtain ⟨reading, stands⟩ := (orderly.running id k).mp runs
    rw [nobody id] at stands
    cases stands
  home := by
    refine ⟨c, here, fun t order => ?_⟩
    rw [c.store.not_live_later w.now missing order]
    rfl

theorem next_kept (kept : s.Kept key) {happening : Happening ι}
    (allowed : s.Allows key happening) : (s.next key happening).Kept key := by
  obtain ⟨orderly, ledger, c, here, shows⟩ := kept
  exact ⟨World.next_orderly orderly happening (world_allows allowed),
    next_ledger orderly ledger here shows allowed, next_shows orderly ledger here shows allowed⟩

theorem run_kept {happenings : List (Happening ι)} (kept : s.Kept key)
    (lawful : s.Lawful key happenings) : (s.run key happenings).Kept key := by
  induction happenings generalizing s with
  | nil => exact kept
  | cons happening rest ih => exact ih (next_kept kept lawful.1) lawful.2

theorem begins_of_stored (kept : s.Kept key) {happening : Happening ι}
    (allowed : s.Allows key happening) (stored : s.stored ≠ []) :
    s.begins key happening = [] := by
  obtain ⟨orderly, ledger, c, here, shows⟩ := kept
  have permitted := world_allows allowed
  cases reacts : s.world.reaction? happening with
  | none => simp only [begins, reacts]
  | some reaction =>
      obtain ⟨id, reaction⟩ := reaction
      cases computes : reaction.progress.computes with
      | false => exact begins_of_idle reacts computes
      | true =>
          have progress := Progress.compute_of_computes computes
          cases wished : (s.world.next happening).wish? id with
          | none => simp only [begins, reacts, progress, wished]
          | some wish =>
              obtain ⟨k, reading⟩ := wish
              rw [begins_of_wished reacts wished, if_neg]
              rintro ⟨_, rfl⟩
              have untold : id ∉ s.world.told := by
                intro told
                rcases World.awaited_of_told orderly here permitted reacts told with
                  waits | ⟨failure, rfl, _⟩
                · rw [waits] at progress
                  cases progress
                · have idle := (Cache.computed_ends orderly.books id s.world.now failure).idle
                  cases reacts
                  rw [computes] at idle
                  cases idle
              have tells := World.tells_of_untold orderly here reacts wished untold
              rw [progress] at tells
              exact stored ((missing_iff_unstored shows).mp tells)

theorem run_append (key : String) (s : Stampede ι) (before after : List (Happening ι)) :
    s.run key (before ++ after) = (s.run key before).run key after := List.foldl_append

theorem lawful_append {before after : List (Happening ι)}
    (lawful : s.Lawful key (before ++ after)) :
    s.Lawful key before ∧ (s.run key before).Lawful key after := by
  induction before generalizing s with
  | nil => exact ⟨trivial, lawful⟩
  | cons happening rest ih =>
      obtain ⟨first, last⟩ := ih lawful.2
      exact ⟨⟨lawful.1, first⟩, last⟩

theorem run_begun {happenings : List (Happening ι)} (kept : s.Kept key)
    (lawful : s.Lawful key happenings) (stored : s.stored ≠ []) :
    (s.run key happenings).begun = s.begun := by
  induction happenings generalizing s with
  | nil => rfl
  | cons happening rest ih =>
      have nobody := begins_of_stored kept lawful.1 stored
      have more : (s.next key happening).stored ≠ [] := List.append_ne_nil_of_left_ne_nil stored _
      rw [run, List.foldl_cons]
      exact (ih (next_kept kept lawful.1) lawful.2 more).trans
        (by rw [next, nobody, List.append_nil])

/-- No slot of a key is left over while no caller of the key goes away early. -/
theorem run_tidy {happenings : List (Happening ι)} (kept : s.Kept key)
    (lawful : s.Lawful key happenings) {k : String} (tidy : s.world.cache.books.Tidy k)
    (stays : k = key ∨ ∀ id, .leave id ∉ happenings) :
    (s.run key happenings).world.cache.books.Tidy k := by
  induction happenings generalizing s with
  | nil => exact tidy
  | cons happening rest ih =>
      obtain ⟨c, here, _⟩ := kept.home
      refine ih (next_kept kept lawful.1) lawful.2 ?_ ?_
      · refine World.next_tidy kept.orderly here tidy (world_allows lawful.1) ?_
        rintro id rfl
        rcases stays with rfl | nobody
        · exact lawful.1
        · exact absurd List.mem_cons_self (nobody id)
      · exact stays.imp_right fun nobody id there => nobody id (List.mem_cons_of_mem _ there)

/-! ### The end -/

theorem absent_of_complete (ledger : s.Ledger key) {k : String} (complete : s.Complete k) {id : ι}
    {pursuit : Pursuit} (found : s.world.cache.books.pursuit? id = some pursuit) :
    pursuit.key ≠ k := by
  rintro rfl
  obtain ⟨outcome, given⟩ := complete (ledger.pending found)
  rw [(ledger.returned given).2] at found
  cases found

/-- A caller whose computation has failed was given its own failure. -/
theorem failure_of_failed (ledger : s.Ledger key) {id : ι} {cause : Cause} {outcome : Outcome}
    (failed : (id, some cause) ∈ s.ended) (given : (id, outcome) ∈ s.returned) :
    outcome = .error (.compute cause) := by
  obtain ⟨_, reading, called⟩ := ledger.begun (ledger.ended failed).1
  rcases ledger.deserved called given with
    ⟨other, there, rfl⟩ | ⟨winner, payload, stored, _, won⟩
  · cases List.inj_on_of_nodup_map ledger.endedOnce failed there rfl
    rfl
  · obtain ⟨begun, _, agreed⟩ := ledger.ended failed
    cases agreed.mpr (by simp [stored, won begun])

theorem won_of_stored (orderly : s.world.Orderly) (ledger : s.Ledger key)
    (complete : s.Complete key) {winner : ι} {payload : Payload}
    (stored : s.stored = [(winner, payload)]) :
    s.Won key winner payload where
  stored := stored
  well := by
    intro id
    constructor
    · intro well
      simpa [stored] using (ledger.ended well).2.2.mp rfl
    · rintro rfl
      have there : (id, payload) ∈ s.stored := by simp [stored]
      refine (ledger.writer there).resolve_left fun runs => ?_
      obtain ⟨reading, stands⟩ := (orderly.running id key).mp runs
      exact absent_of_complete ledger complete stands rfl
  failed := failure_of_failed ledger
  served := by
    intro id reading outcome called unfailed given
    rcases ledger.deserved called given with
      ⟨cause, there, _⟩ | ⟨_, _, one, ⟨other, wanted, rfl⟩, _⟩
    · exact absurd there (unfailed cause)
    · rw [stored] at one
      cases one
      cases (ledger.called wanted).symm.trans (ledger.called called)
      refine ⟨rfl, ?_⟩
      rintro rfl
      rfl

theorem failed_of_unstored (ledger : s.Ledger key) (complete : s.Complete key)
    (unstored : s.stored = []) : s.AllFailed key := by
  intro id reading called
  obtain ⟨outcome, given⟩ := complete called
  rcases ledger.deserved called given with ⟨cause, there, _⟩ | ⟨_, _, one, _⟩
  · exact ⟨(ledger.ended there).1, cause, there, failure_of_failed ledger there⟩
  · rw [unstored] at one
    cases one

theorem settled_of_complete (kept : s.Kept key) (tidy : s.world.cache.books.Tidy key)
    (complete : s.Complete key) : s.Settled key := by
  obtain ⟨orderly, ledger, _⟩ := kept
  have verdict : s.AllFailed key ∨ ∃ winner payload, s.Won key winner payload := by
    match stored : s.stored with
    | [] => exact .inl (failed_of_unstored ledger complete stored)
    | [(winner, payload)] =>
        exact .inr ⟨winner, payload, won_of_stored orderly ledger complete stored⟩
    | _ :: _ :: _ =>
        have single := ledger.single
        simp [stored] at single
  refine ⟨fun there => (ledger.begun there).2, ledger.once, ?_, ledger.endedOnce, verdict, ?_⟩
  · intro id
    refine ⟨fun begun => ?_, fun ⟨failure, there⟩ => (ledger.ended there).1⟩
    obtain ⟨_, reading, called⟩ := ledger.begun begun
    obtain ⟨outcome, given⟩ := complete called
    rcases ledger.deserved called given with ⟨cause, there, _⟩ | ⟨winner, payload, stored, _, won⟩
    · exact ⟨_, there⟩
    · exact ⟨_, (won_of_stored orderly ledger complete stored).well.mpr (won begun)⟩
  · have unslotted := Books.no_slot orderly.books tidy (absent_of_complete ledger complete)
    rwa [Cache.books_flights] at unslotted

/-- Callers rush to a key that an embedded cache does not have. When all of them have been given
something, it was what the one good computation has stored, or their own failure. -/
theorem stampede_has_one_winner {w : World ι} (reached : w.Reachable) {c : EmbeddedCache ι}
    (here : w.cache = .embedded c) (missing : c.store.isLive w.now key = false)
    (grounded : c.flights.inFlight = 0) {happenings : List (Happening ι)}
    (lawful : (start w).Lawful key happenings)
    (complete : ((start w).run key happenings).Complete key) :
    ((start w).run key happenings).Settled key ∧
      (∀ before after, happenings = before ++ after →
        ((start w).run key before).stored ≠ [] →
        ((start w).run key happenings).begun = ((start w).run key before).begun) ∧
      ((∀ id, .leave id ∉ happenings) → (∀ k, ((start w).run key happenings).Complete k) →
        ((start w).run key happenings).world.cache.flights.inFlight = 0) := by
  have orderly := World.reachable_orderly reached
  have nobody : ∀ id, w.cache.books.pursuit? id = none := by
    have books := orderly.books
    rw [here] at books ⊢
    exact EmbeddedCache.nobody_of_grounded books grounded
  have empty : w.cache.books.flights.inFlight = 0 := by
    rw [here]
    exact grounded
  have kept : (start w).Kept key := start_kept orderly here nobody missing
  have tidy := Books.tidy_of_grounded empty nobody
  have last := run_kept kept lawful
  refine ⟨settled_of_complete last (run_tidy kept lawful (tidy key) (.inl rfl)) complete, ?_, ?_⟩
  · rintro before after rfl stored
    obtain ⟨first, rest⟩ := lawful_append lawful
    rw [run_append]
    exact run_begun (run_kept kept first) rest stored
  · intro stays everybody
    have clear := fun k => run_tidy kept lawful (tidy k) (.inr stays)
    have landed := Books.grounded last.orderly.books clear fun id => ?_
    · rwa [Cache.books_flights] at landed
    · rw [Option.eq_none_iff_forall_ne_some]
      intro pursuit found
      exact absent_of_complete last.ledger (everybody pursuit.key) found rfl

/-- Four callers want a key. The first fails, the second has the key stored, the last comes when the
key is there, and the third has waited all the time. -/
def rush : List (Happening Nat) :=
  [.begin 0 (.fill "k" .bytes), .begin 1 (.fill "k" .bytes), .begin 2 (.fill "k" .bytes),
    .computed 0 (some (.reported "down")), .turn 1, .begin 3 (.operate (.set "k" [7] .zero)),
    .begin 4 (.fill "k" .bytes), .computed 1 none, .turn 2]

theorem rush_has_one_winner :
    ((start (World.embedded .start)).run "k" rush).stored = [(1, [7])] ∧
      ((start (World.embedded .start)).run "k" rush).Settled "k" := by
  have lawful : (start (World.embedded .start)).Lawful "k" rush := by
    refine ⟨rfl, rfl, rfl, fun _ => ?_, trivial, ⟨rfl, fun _ => ⟨1, [7], ?_, ?_, rfl⟩⟩, rfl,
      fun _ => ?_, trivial, trivial⟩
    · change some (Cause.reported "down") = none ↔ 0 ∈ ([] : List Nat)
      simp
    · change (1, "k") ∈ [(1, "k")]
      exact List.mem_singleton_self _
    · change 1 ∉ ([] : List Nat)
      exact List.not_mem_nil
    · change none = none ↔ 1 ∈ [1]
      simp
  have complete : ((start (World.embedded .start)).run "k" rush).Complete "k" := by
    have calls : ((start (World.embedded .start)).run "k" rush).calls =
        [(0, "k", .bytes), (1, "k", .bytes), (2, "k", .bytes), (4, "k", .bytes)] := rfl
    have returned : ((start (World.embedded .start)).run "k" rush).returned =
        [(0, .error (.compute (.reported "down"))), (3, .ok .done), (4, .ok (.bytes [7])),
          (1, .ok (.bytes [7])), (2, .ok (.bytes [7]))] := rfl
    intro id reading called
    rw [calls] at called
    rw [returned]
    simp only [List.mem_cons, Prod.mk.injEq, List.not_mem_nil, or_false] at called
    rcases called with ⟨rfl, _⟩ | ⟨rfl, _⟩ | ⟨rfl, _⟩ | ⟨rfl, _⟩ <;> simp
  exact ⟨rfl, (stampede_has_one_winner (.embedded .start) rfl rfl rfl lawful complete).1⟩

end ExpiringCache.Stampede
