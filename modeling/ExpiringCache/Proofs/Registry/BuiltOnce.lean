import ExpiringCache.Proofs.Registry.Moves
/-!
A registry builds its caches once. Whatever its callers do, and however their attempts to reach a
server end, one construction of the default cache is under way at most; one that has failed or was
given up leaves nothing behind and makes way for the next caller; and once there is a default cache,
everyone is given that one and nothing is built any more. The auxiliary cache is another one, so
that neither is touched by what is done with the other.
-/

namespace ExpiringCache.Simulation.Clientele

def default? (n : Nat) (w : Clientele) : Option Nat := w.state.registries[n]?.bind (·.primary)

def auxiliary? (n : Nat) (w : Clientele) : Option Nat := w.state.registries[n]?.bind (·.auxiliary)

structure Vacant (n : Nat) (w : Clientele) : Prop where
  unmade : w.default? n = none
  idle : ∀ id ∈ w.pending, ¬w.Constructs n id

/-- What a call leaves behind that has ended: a default cache if it was a success, and nothing if it
was not. -/
def Left (n : Nat) (w : Clientele) : Except CacheError Finding → Prop
  | .ok _ => ∃ c, w.default? n = some c
  | .error _ => w.Vacant n

variable {n : Nat} {settings : Settings} {w : Clientele} {r : Registry Caller} {id : Caller}

theorem default_of_found (found : w.state.registries[n]? = some r) : w.default? n = r.primary := by
  rw [default?, found, Option.bind_some]

theorem auxiliary_of_found (found : w.state.registries[n]? = some r) :
    w.auxiliary? n = r.auxiliary := by
  rw [auxiliary?, found, Option.bind_some]

/-! ### One construction at a time -/

theorem builds_of_constructs (inOrder : w.InOrder n settings r none) (member : id ∈ w.pending)
    (constructs : w.Constructs n id) : r.building = some id := by
  rcases inOrder.places id member nofun with waits | ⟨_, builds, _⟩
  · obtain ⟨c, connects, _⟩ := constructs
    cases connects.symm.trans waits
  · exact builds

theorem waits_of_idle (inOrder : w.InOrder n settings r none) (member : id ∈ w.pending)
    (idle : ¬w.Constructs n id) : w.Waits n id := by
  rcases inOrder.places id member nofun with waits | ⟨constructs, _⟩
  · exact waits
  · exact absurd constructs idle

/-- If no caller makes the cache, the registry does not say that one does. -/
theorem idle_of_no_construction (inOrder : w.InOrder n settings r none)
    (nobody : ∀ id ∈ w.pending, ¬w.Constructs n id) : r.building = none := by
  cases builds : r.building with
  | none => rfl
  | some id =>
      obtain ⟨first, _, constructs⟩ := inOrder.building builds
      have member : id ∈ w.pending := by
        rw [← inOrder.callers]
        exact List.mem_of_head? first
      exact absurd (constructs nofun) (nobody id member)

/-! ### Ends of calls -/

def Free (n : Nat) (s : State) : Prop :=
  ∃ r, s.registries[n]? = some r ∧ r.primary = none ∧ r.building = none

def Leaves (n : Nat) (s : State) : Except CacheError Finding → Prop
  | .ok _ => ∃ r c, s.registries[n]? = some r ∧ r.primary = some c
  | .error _ => Free n s

theorem vacant_of_free (sound : Sound n settings r w) (free : Free n w.state) : w.Vacant n := by
  obtain ⟨r', found, unmade, idle⟩ := free
  obtain ⟨_, found', _, inOrder⟩ := sound
  cases found.symm.trans found'
  refine ⟨(default_of_found found).trans unmade, ?_⟩
  intro id member constructs
  cases idle.symm.trans (builds_of_constructs inOrder member constructs)

variable {outcome : Except CacheError Finding} {computed : Option (List Answer)}

theorem left_of_leaves (sound : Sound n settings r w) (leaves : Leaves n w.state outcome) :
    w.Left n outcome := by
  cases outcome with
  | ok finding =>
      obtain ⟨r', c, found, made⟩ := leaves
      exact ⟨c, (default_of_found found).trans made⟩
  | error e => exact vacant_of_free sound leaves

theorem state_after_answer (w : Clientele) (id : Caller) (outcome : Except CacheError Finding)
    (computed : Option (List Answer)) (s : State) :
    (w.told id (.answered outcome computed, s)).state = s := by
  cases outcome <;> rfl

theorem not_building_of_leave (builds : r.building = some id) : (r.leave id).building = none :=
  if_pos builds

theorem construction_leaves {s s' : State} {keeping : Keeping}
    (found : s.registries[n]? = some r) (unmade : r.primary = none)
    (builds : r.building = some id)
    (construction : s.Construction n id keeping r (.answered outcome computed, s')) :
    Leaves n s' outcome := by
  obtain ⟨inside, _⟩ := List.getElem?_eq_some_iff.mp found
  cases construction with
  | underWay networked on mine same => rcases on with on | on <;> cases on
  | failed e registries caches next =>
      refine ⟨r.leave id, ?_, unmade, not_building_of_leave builds⟩
      rw [registries]
      exact List.getElem?_set_self inside
  | succeeded registries caches kind next kept =>
      refine ⟨r.built id s.caches.length, s.caches.length, ?_, rfl⟩
      rw [registries]
      exact List.getElem?_set_self inside

/-- A caller in line comes to its end as soon as it is told whose turn it is. -/
theorem register_leaves {s s' : State} {keeping : Keeping}
    (there : (s.registries[n]?).isSome = true)
    (ends : s.register n id keeping (r.turn id) = (.answered outcome computed, s')) :
    Leaves n s' outcome := by
  cases made : r.primary with
  | some c =>
      rw [Registry.turn_of_ready made] at ends
      cases ends
      exact ⟨r.leave id, c, registry_when_ready there _ c keeping, made⟩
  | none =>
      by_cases first : r.builders.first? = some id
      · rw [Registry.turn_of_first made first, State.register_builds] at ends
        let r' : Registry Caller := { r with building := some id }
        have found := registry_after_put there r'
        have construction : (s.putRegistry n r').Construction n id keeping r'
            ((s.putRegistry n r').construct n id keeping r') := State.construct_construction found
        rw [ends] at construction
        exact construction_leaves found made rfl construction
      · rw [Registry.turn_of_other made first] at ends
        cases ends

theorem ask_leaves (found : w.state.registries[n]? = some r) {task : Nat} {keeping : Keeping}
    {s' : State} (ends : w.state.openDefault task n keeping = (.answered outcome computed, s')) :
    Leaves n s' outcome := by
  have there : (w.state.fresh.2.registries[n]?).isSome = true := Option.isSome_of_eq_some found
  rw [ask_eq found] at ends
  cases made : r.primary with
  | some c =>
      rw [Registry.ask_of_ready made] at ends
      cases ends
      exact ⟨r, c, registry_when_ready there r c keeping, made⟩
  | none =>
      rw [Registry.ask_of_unmade made] at ends
      exact register_leaves there ends

theorem go_on_leaves (found : w.state.registries[n]? = some r)
    (inOrder : w.InOrder n settings r none) (member : id ∈ w.pending) {s' : State}
    (ends : w.state.continueActivity (w.activity id) = (.answered outcome computed, s')) :
    Leaves n s' outcome := by
  rcases inOrder.places id member nofun with waits | ⟨⟨c, connects, client⟩, builds, networked⟩
  · rw [go_on_of_waits found waits] at ends
    exact register_leaves (Option.isSome_of_eq_some found) ends
  · have connecting : w.state.continueActivity (w.activity id) = w.state.continueConnect c := by
      rw [connects]
      rfl
    have redis : r.settings.backend = .redis := by
      rw [inOrder.configured]
      exact networked
    have construction : w.state.Construction n id (w.keeping id) r (w.state.continueConnect c) :=
      State.continue_connect_construction found redis client
    rw [← connecting, ends] at construction
    exact construction_leaves found (inOrder.building builds).2.1 builds construction

theorem free_of_drop (found : w.state.registries[n]? = some r)
    (inOrder : w.InOrder n settings r none) (member : id ∈ w.pending)
    (constructs : w.Constructs n id) : Free n (w.state.abandon (w.activity id)) := by
  have there := Option.isSome_of_eq_some found
  have builds := builds_of_constructs inOrder member constructs
  rw [abandon_of_pending found inOrder member]
  exact ⟨r.leave id, registry_after_put there _, (inOrder.building builds).2.1,
    not_building_of_leave builds⟩

/-! ### After the first success -/

/-- Nothing is built, no server is reached and no store is swept anew. -/
structure Quiet (s s' : State) : Prop where
  caches : s'.caches = s.caches
  attempts : s'.attempts = s.attempts
  links : s'.links = s.links
  sweepers : s'.sweepers = s.sweepers

theorem put_quiet (s : State) (n : Nat) (r : Registry Caller) : Quiet s (s.putRegistry n r) := by
  obtain ⟨queue, put⟩ := s.put_registry_eq n r
  rw [put]
  exact ⟨rfl, rfl, rfl, rfl⟩

structure Served (c : Nat) (keeping : Keeping) (s : State) (result : Move × State) : Prop where
  done : result.1 = .done
  named : ∀ name, keeping = .cache name → result.2.handle? name = some ⟨c, false⟩
  quiet : Quiet s result.2

theorem ready_quiet (s : State) (n : Nat) (r : Registry Caller) (c : Nat) (keeping : Keeping) :
    Quiet s ((s.putRegistry n r).keep n c keeping) := by
  obtain ⟨queue, put⟩ := s.put_registry_eq n r
  rw [put]
  cases keeping with
  | cache name => exact ⟨rfl, rfl, rfl, rfl⟩
  | registry name => exact ⟨rfl, rfl, rfl, rfl⟩

theorem ready_served (s : State) (n : Nat) (r : Registry Caller) (c : Nat) (keeping : Keeping) :
    Served c keeping s (.done, (s.putRegistry n r).keep n c keeping) :=
  ⟨rfl, (s.putRegistry n r).keep_names n c, ready_quiet s n r c keeping⟩

/-! ### What callers can rely on -/

/-- What holds once there is a default cache: it stays, and every caller is given it, at once or
when it is woken. The auxiliary cache may still be made, and is swept by itself. -/
structure Settled (n : Nat) (settings : Settings) (w : Clientele) (c : Nat) : Prop where
  kind : w.state.kindAt? c = some settings.backend
  idle : ∀ id ∈ w.pending, ¬w.Constructs n id
  stays : ∀ {w'}, Onward n w w' → w'.default? n = some c
  asked : ∀ task keeping, Served c keeping w.state (w.state.openDefault task n keeping)
  awaited : ∀ id ∈ w.pending, (∃ r, w.state.registries[n]? = some r ∧
      ∀ s : State, .task id.task ∈ (s.putRegistry n r).queue) ∧
    Served c (w.keeping id) w.state (w.state.continueActivity (w.activity id))
  dropped : ∀ id ∈ w.pending, Quiet w.state (w.state.abandon (w.activity id))
  auxiliary : ∀ name withTasks,
    let s := (w.state.openAuxiliary name n withTasks).2
    s.attempts = w.state.attempts ∧ s.links = w.state.links ∧
      s.sweepers.filter (·.1 == c) = w.state.sweepers.filter (·.1 == c)

/-- What holds at any time. One caller makes the default cache, and only before there is one.
Nothing is kept of a construction that has failed or was given up: the first of those that wait is
woken and begins anew, or else whoever asks next. All callers are given the same caches, and neither
of the two caches shows what is done with the other. -/
structure BuiltOnce (n : Nat) (settings : Settings) (w : Clientele) : Prop where
  alone : ∀ {id j}, id ∈ w.pending → j ∈ w.pending → w.Constructs n id → w.Constructs n j → id = j
  unmade : ∀ {id}, id ∈ w.pending → w.Constructs n id → w.default? n = none
  endedAtOnce : ∀ {task keeping outcome computed s'},
    w.state.openDefault task n keeping = (.answered outcome computed, s') →
      (w.next n (.ask task keeping)).Left n outcome
  endedLater : ∀ {id outcome computed s'}, id ∈ w.pending →
    w.state.continueActivity (w.activity id) = (.answered outcome computed, s') →
      (w.next n (.goOn id)).Left n outcome
  givenUp : ∀ {id}, id ∈ w.pending → w.Constructs n id → (w.next n (.drop id)).Vacant n
  retriedByNext : ∀ {id rest}, w.Vacant n → w.pending = id :: rest →
    (∃ r, w.state.registries[n]? = some r ∧
      ∀ s : State, .task id.task ∈ (s.putRegistry n r).queue) ∧
    ∃ r : Registry Caller, r.settings = settings ∧
      w.state.continueActivity (w.activity id) =
        (w.state.putRegistry n r).construct n id (w.keeping id) r
  retriedByLater : w.Vacant n → w.pending = [] → ∀ task keeping,
    ∃ r : Registry Caller, r.settings = settings ∧
      w.state.openDefault task n keeping =
        (w.state.fresh.2.putRegistry n r).construct n ⟨task, w.state.next⟩ keeping r
  settled : ∀ {c}, w.default? n = some c → w.Settled n settings c
  given : ∀ c ∈ w.given, w.default? n = some c
  lent : ∀ a ∈ w.lent, w.auxiliary? n = some a
  lends : ∀ name withTasks, (w.state.openAuxiliary name n withTasks).1 = .done
  auxiliary : ∀ {a}, w.auxiliary? n = some a →
    w.state.kindAt? a = some .memory ∧ w.default? n ≠ some a ∧
      ∀ {w'}, Onward n w w' → w'.auxiliary? n = some a
  apart : ∀ {c a s'}, w.default? n = some c → w.auxiliary? n = some a →
    (Relation.ReflTransGen (State.Operates c) w.state s' →
      s'.caches[a]? = w.state.caches[a]? ∧ s'.now = w.state.now) ∧
    (Relation.ReflTransGen (State.Operates a) w.state s' →
      s'.caches[c]? = w.state.caches[c]? ∧ s'.now = w.state.now ∧ s'.links = w.state.links)
  beside : ∀ {s}, Relation.ReflTransGen Beside w.state s → Onward n w { w with state := s }

theorem due_when_ready (inOrder : w.InOrder n settings r none) {c : Nat}
    (made : r.primary = some c) (member : id ∈ w.pending) : id ∈ r.due := by
  rw [← inOrder.callers] at member
  simp only [Registry.due, made, Option.isSome_some, if_true]
  exact member

theorem retried_by_next (found : w.state.registries[n]? = some r)
    (inOrder : w.InOrder n settings r none) (unmade : r.primary = none)
    (nobody : ∀ j ∈ w.pending, ¬w.Constructs n j) {rest : List Caller}
    (line : w.pending = id :: rest) :
    (∀ s : State, .task id.task ∈ (s.putRegistry n r).queue) ∧
      ∃ r : Registry Caller, r.settings = settings ∧
        w.state.continueActivity (w.activity id) =
          (w.state.putRegistry n r).construct n id (w.keeping id) r := by
  have member : id ∈ w.pending := by
    rw [line]
    exact List.mem_cons_self
  have idle := idle_of_no_construction inOrder nobody
  have first : r.builders.first? = some id := by
    rw [Line.first?, inOrder.callers, line]
    rfl
  have due : id ∈ r.due := by
    simp only [Registry.due, unmade, idle, first, Option.isSome_none, Bool.false_eq_true, if_false,
      Option.toList_some, List.mem_singleton]
  refine ⟨fun s => s.put_registry_wakes_due n due, { r with building := some id }, ?_, ?_⟩
  · exact inOrder.configured
  · rw [go_on_of_waits found (waits_of_idle inOrder member (nobody id member)),
      Registry.turn_of_first unmade first, State.register_builds]

theorem retried_by_later (found : w.state.registries[n]? = some r)
    (inOrder : w.InOrder n settings r none) (unmade : r.primary = none) (line : w.pending = [])
    (task : Nat) (keeping : Keeping) :
    ∃ r : Registry Caller, r.settings = settings ∧
      w.state.openDefault task n keeping =
        (w.state.fresh.2.putRegistry n r).construct n ⟨task, w.state.next⟩ keeping r := by
  let id : Caller := ⟨task, w.state.next⟩
  let joined : Registry Caller := { r with builders := r.builders.join id }
  have first : joined.builders.first? = some id := by
    change (r.builders.callers ++ [id]).head? = some id
    rw [inOrder.callers, line]
    rfl
  refine ⟨{ joined with building := some id }, inOrder.configured, ?_⟩
  have asked : r.ask id = joined.turn id := Registry.ask_of_unmade unmade id
  have turn : joined.turn id = (.build, { joined with building := some id }) :=
    Registry.turn_of_first unmade first
  rw [ask_eq found, asked, turn, State.register_builds]

theorem go_on_when_ready (found : w.state.registries[n]? = some r)
    (inOrder : w.InOrder n settings r none) {c : Nat} (made : r.primary = some c)
    (member : id ∈ w.pending) :
    w.state.continueActivity (w.activity id) =
      (.done, (w.state.putRegistry n (r.leave id)).keep n c (w.keeping id)) := by
  have idle : ¬w.Constructs n id := by
    intro constructs
    have unmade := (inOrder.building (builds_of_constructs inOrder member constructs)).2.1
    cases made.symm.trans unmade
  rw [go_on_of_waits found (waits_of_idle inOrder member idle), Registry.turn_of_ready made]
  rfl

theorem ask_when_ready (found : w.state.registries[n]? = some r) {c : Nat}
    (made : r.primary = some c) (task : Nat) (keeping : Keeping) :
    w.state.openDefault task n keeping =
      (.done, (w.state.fresh.2.putRegistry n r).keep n c keeping) := by
  rw [ask_eq found, Registry.ask_of_ready made]
  rfl

theorem settled_of_made (found : w.state.registries[n]? = some r)
    (inOrder : w.InOrder n settings r none) {c : Nat} (made : r.primary = some c) :
    w.Settled n settings c where
  kind := inOrder.primary made
  idle := by
    intro id member constructs
    have unmade := (inOrder.building (builds_of_constructs inOrder member constructs)).2.1
    cases made.symm.trans unmade
  stays := by
    intro w' onward
    obtain ⟨r', found', kept, _⟩ := onward_sound found inOrder onward
    exact (default_of_found found').trans (kept.primary made)
  asked := by
    intro task keeping
    have served := ready_served w.state.fresh.2 n r c keeping
    rw [ask_when_ready found made task keeping]
    exact ⟨served.done, served.named, ⟨served.quiet.caches, served.quiet.attempts,
      served.quiet.links, served.quiet.sweepers⟩⟩
  awaited := by
    intro id member
    have due := due_when_ready inOrder made member
    refine ⟨⟨r, found, fun s => s.put_registry_wakes_due n due⟩, ?_⟩
    rw [go_on_when_ready found inOrder made member]
    exact ready_served w.state n (r.leave id) c (w.keeping id)
  dropped := by
    intro id member
    rw [abandon_of_pending found inOrder member]
    exact put_quiet w.state n (r.leave id)
  auxiliary := by
    intro name withTasks
    cases lent : r.auxiliary with
    | some a =>
        rw [lends_found found lent]
        exact ⟨rfl, rfl, rfl⟩
    | none =>
        obtain ⟨sweepers, queue, events, new, lends⟩ := lends_new found lent name withTasks
        have quiet := ready_quiet (w.state.grown sweepers queue events) n
          (r.keepAuxiliary w.state.caches.length) w.state.caches.length (.cache name)
        have others : sweepers.filter (·.1 == c) = [] := by
          apply List.filter_eq_nil_iff.mpr
          intro sweeper member mine
          have inside := inside_of_kind (inOrder.primary made)
          rw [← beq_iff_eq.mp mine, new sweeper member] at inside
          exact absurd inside (Nat.lt_irrefl _)
        rw [lends]
        refine ⟨quiet.attempts, quiet.links, ?_⟩
        rw [quiet.sweepers]
        change (w.state.sweepers ++ sweepers).filter (·.1 == c) = _
        rw [List.filter_append, others, List.append_nil]

/-- However a registry is used, its caches are built once. -/
theorem built_once (reached : Reachable n settings w) : w.BuiltOnce n settings := by
  obtain ⟨r, found, inOrder⟩ := reachable_in_order reached
  have default : w.default? n = r.primary := default_of_found found
  have auxiliary : w.auxiliary? n = r.auxiliary := auxiliary_of_found found
  constructor
  case alone =>
    intro id j member member' constructs constructs'
    have builds := builds_of_constructs inOrder member constructs
    have builds' := builds_of_constructs inOrder member' constructs'
    exact Option.some.inj (builds.symm.trans builds')
  case unmade =>
    intro id member constructs
    have builds := builds_of_constructs inOrder member constructs
    exact default.trans (inOrder.building builds).2.1
  case endedAtOnce =>
    intro task keeping outcome computed s' ends
    apply left_of_leaves (ask_sound found inOrder task keeping)
    simp only [next, ends, state_after_answer]
    exact ask_leaves found ends
  case endedLater =>
    intro id outcome computed s' member ends
    apply left_of_leaves (go_on_sound found inOrder id)
    simp only [next, member, if_true, ends, state_after_answer]
    exact go_on_leaves found inOrder member ends
  case givenUp =>
    intro id member constructs
    apply vacant_of_free (drop_sound found inOrder id)
    simp only [next, member, if_true]
    exact free_of_drop found inOrder member constructs
  case retriedByNext =>
    intro id rest vacant line
    obtain ⟨woken, retries⟩ :=
      retried_by_next found inOrder (default.symm.trans vacant.unmade) vacant.idle line
    exact ⟨⟨r, found, woken⟩, retries⟩
  case retriedByLater =>
    intro vacant line task keeping
    exact retried_by_later found inOrder (default.symm.trans vacant.unmade) line task keeping
  case settled =>
    intro c made
    exact settled_of_made found inOrder (default.symm.trans made)
  case given =>
    intro c member
    exact default.trans (inOrder.given c member)
  case lent =>
    intro a member
    exact auxiliary.trans (inOrder.lent a member)
  case lends =>
    intro name withTasks
    cases lent : r.auxiliary with
    | some a => rw [lends_found found lent]
    | none =>
        obtain ⟨sweepers, queue, events, _, lends⟩ := lends_new found lent name withTasks
        rw [lends]
  case auxiliary =>
    intro a made
    have made' := auxiliary.symm.trans made
    obtain ⟨kind, other⟩ := inOrder.auxiliary made'
    refine ⟨kind, fun same => other (default.symm.trans same), ?_⟩
    intro w' onward
    obtain ⟨r', found', kept, _⟩ := onward_sound found inOrder onward
    exact (auxiliary_of_found found').trans (kept.auxiliary made')
  case apart =>
    intro c a s' primary lent
    obtain ⟨kind, differs⟩ := inOrder.auxiliary (auxiliary.symm.trans lent)
    have other : a ≠ c := by
      rintro rfl
      exact differs (default.symm.trans primary)
    refine ⟨fun run => ?_, fun run => ?_⟩
    · have moved := State.operates_run_moved run
      exact ⟨moved.others a other, moved.now⟩
    · have moved := State.operates_run_moved run
      exact ⟨moved.others c other.symm, moved.now, moved.links kind⟩
  case beside =>
    intro s run
    exact .next .here (.elsewhere s) (elsewhere_of_run n run)

def beginning (scripts : List ServerScript) (settings : Settings) : State :=
  ((State.initial "" scripts).addRegistry (.ofSettings settings)).2

def networked : Settings := { Settings.defaults with backend := .redis }

def silent : ServerScript := { ServerScript.refusing with welcome := .silence }

def deserted : Clientele :=
  (((opened (beginning [silent] networked)).next 0 (.ask 1 (.cache "first"))).next 0
    (.ask 2 (.cache "second"))).next 0 (.drop ⟨1, 0⟩)

/-- Two callers have asked for an embedded default cache, and between them a third for the auxiliary
one. -/
def shared : Clientele :=
  (((opened (beginning [] .defaults)).next 0 (.ask 1 (.cache "first"))).next 0
    (.auxiliary "aside" true)).next 0 (.ask 2 (.cache "second"))

theorem deserted_and_shared_are_built_once :
    (deserted.BuiltOnce 0 networked ∧ deserted.pending = [⟨2, 1⟩] ∧
      (deserted.next 0 (.goOn ⟨2, 1⟩)).state.attempts.length = 2) ∧
    shared.BuiltOnce 0 .defaults ∧ shared.given = [1, 1] ∧ shared.lent = [2] := by
  have left : Reachable 0 networked deserted :=
    ⟨beginning [silent] networked, rfl, .next (.next (.next .here (.ask 1 (.cache "first")) trivial)
      (.ask 2 (.cache "second")) trivial) (.drop ⟨1, 0⟩) trivial⟩
  have used : Reachable 0 .defaults shared :=
    ⟨beginning [] .defaults, rfl, .next (.next (.next .here (.ask 1 (.cache "first")) trivial)
      (.auxiliary "aside" true) trivial) (.ask 2 (.cache "second")) trivial⟩
  exact ⟨⟨built_once left, by decide, by decide +kernel⟩,
    built_once used, by decide, by decide⟩

end ExpiringCache.Simulation.Clientele
