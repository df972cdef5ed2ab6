import ExpiringCache.Proofs.Registry.Clientele
/-!
The moves of a registry's callers. Whatever a caller is told, the registry's books and its calls
agree afterwards; so they agree after anything that can come of a new registry.
-/

namespace ExpiringCache.Simulation.Clientele

variable {n : Nat} {settings : Settings} {w : Clientele} {r : Registry Caller} {id : Caller}

theorem told_of_state (w : Clientele) (s : State) (id : Caller) (result : Move × State) :
    ({ w with state := s } : Clientele).told id result = w.told id result := by
  obtain ⟨move, s'⟩ := result
  cases move with
  | going activity => rfl
  | resting activity => rfl
  | computing activity steps => rfl
  | answered outcome computed => cases outcome <;> rfl

theorem registry_after_put {s : State} (there : (s.registries[n]?).isSome = true)
    (r : Registry Caller) : (s.putRegistry n r).registries[n]? = some r := by
  obtain ⟨old, found⟩ := Option.isSome_iff_exists.mp there
  obtain ⟨inside, _⟩ := List.getElem?_eq_some_iff.mp found
  obtain ⟨queue, put⟩ := s.put_registry_eq n r
  rw [put]
  exact List.getElem?_set_self inside

theorem registry_when_ready {s : State} (there : (s.registries[n]?).isSome = true)
    (r : Registry Caller) (c : Nat) (keeping : Keeping) :
    ((s.putRegistry n r).keep n c keeping).registries[n]? = some r := by
  have kept := (s.putRegistry n r).keep_undisturbed n c keeping
  exact (congrArg (·[n]?) kept.registries).trans (registry_after_put there r)

theorem later_of_put (s : State) (n : Nat) (r : Registry Caller) :
    Later s (s.putRegistry n r) := by
  obtain ⟨queue, put⟩ := s.put_registry_eq n r
  rw [put]
  exact later_of_caches rfl (Nat.le_refl _)

theorem later_of_undisturbed {s s' : State} (same : s.Undisturbed s') : Later s s' :=
  later_of_caches same.caches same.next

/-- A success shows its caller no other cache than the one that it was given. -/
theorem eq_of_shown {s : State} {keeping : Keeping} {c c' : Nat}
    (named : ∀ name, keeping = .cache name → s.handle? name = some ⟨c, false⟩)
    (member : c' ∈ shown s keeping) : c' = c := by
  cases keeping with
  | registry name => cases member
  | cache name =>
      rw [shown, named name rfl] at member
      exact List.mem_singleton.mp member

/-- A caller is told how far the cache has come that it is making. -/
theorem construction_sound (there : w.state.registries[n]? = some r)
    (inOrder : w.InOrder n settings r (some id)) (builds : r.building = some id)
    {result : Move × State}
    (construction : w.state.Construction n id (w.keeping id) r result) :
    Sound n settings r (w.told id result) := by
  obtain ⟨inside, _⟩ := List.getElem?_eq_some_iff.mp there
  cases construction with
  | @underWay s' c move networked on mine same =>
      have place : (r.building ≠ some id ∧
          Activity.connecting c = .registering n id (w.keeping id)) ∨
          r.building = some id ∧ settings.backend = .redis ∧
            ∃ c', Activity.connecting c = .connecting c' ∧
              c'.client = .registry n id (w.keeping id) := by
        rw [inOrder.configured] at networked
        exact .inr ⟨builds, networked, c, rfl, mine⟩
      have stays := stay_in_order inOrder (later_of_undisturbed same) place
      have found : s'.registries[n]? = some r := by
        rw [same.registries]
        exact there
      rcases on with rfl | rfl
      · exact ⟨r, found, keeps_of_same rfl rfl, stays⟩
      · exact ⟨r, found, keeps_of_same rfl rfl, stays⟩
  | @failed s' e registries caches next =>
      have ends : (w.finish id s' []).InOrder n settings (r.leave id) none :=
        finish_in_order inOrder (later_of_caches caches next) nofun
      refine ⟨r.leave id, ?_, keeps_of_same rfl rfl, ends⟩
      change s'.registries[n]? = _
      rw [registries]
      exact List.getElem?_set_self inside
  | @succeeded s' cache registries caches kind next kept =>
      rw [inOrder.configured] at kind
      have ends := built_in_order inOrder builds caches kind next fun _ => eq_of_shown kept
      have unmade : r.primary = none := (inOrder.building builds).2.1
      have keeps : Keeps r (r.built id w.state.caches.length) := by
        refine ⟨?_, fun made => made⟩
        intro c made
        cases unmade.symm.trans made
      refine ⟨r.built id w.state.caches.length, ?_, keeps, ends⟩
      change s'.registries[n]? = _
      rw [registries]
      exact List.getElem?_set_self inside

theorem ready_sound (there : (w.state.registries[n]?).isSome = true)
    (inOrder : w.InOrder n settings r (some id)) {c : Nat} (ready : r.primary = some c) :
    Sound n settings r
      (w.told id (w.state.register n id (w.keeping id) (.ready c, r.leave id))) := by
  let put := w.state.putRegistry n (r.leave id)
  have kept := put.keep_undisturbed n c (w.keeping id)
  have later : Later w.state (put.keep n c (w.keeping id)) :=
    later_trans (later_of_put w.state n (r.leave id)) (later_of_undisturbed kept)
  have shows : ∀ c' ∈ shown (put.keep n c (w.keeping id)) (w.keeping id),
      r.primary = some c' := by
    intro c' member
    rw [eq_of_shown (put.keep_names n c) member]
    exact ready
  refine ⟨r.leave id, ?_, keeps_of_same rfl rfl, finish_in_order inOrder later shows⟩
  exact registry_when_ready there (r.leave id) c (w.keeping id)

theorem register_sound (there : (w.state.registries[n]?).isSome = true)
    (inOrder : w.InOrder n settings r (some id)) :
    Sound n settings r (w.told id (w.state.register n id (w.keeping id) (r.turn id))) := by
  cases made : r.primary with
  | some c =>
      rw [Registry.turn_of_ready made]
      exact ready_sound there inOrder made
  | none =>
      by_cases first : r.builders.first? = some id
      · let r' : Registry Caller := { r with building := some id }
        let w' : Clientele := { w with state := w.state.putRegistry n r' }
        have found : w'.state.registries[n]? = some r' := registry_after_put there r'
        have building : w'.InOrder n settings r' (some id) :=
          in_order_later (building_in_order inOrder made first) (later_of_put w.state n r')
        have sound := construction_sound found building rfl (State.construct_construction found)
        rw [told_of_state] at sound
        rw [Registry.turn_of_first made first, State.register_builds]
        have kept : Keeps r r' := keeps_of_same rfl rfl
        exact sound_of_kept kept sound
      · rw [Registry.turn_of_other made first]
        have idle : r.building ≠ some id := fun builds => first (inOrder.building builds).1
        refine ⟨r, registry_after_put there r, keeps_of_same rfl rfl, ?_⟩
        exact stay_in_order inOrder (later_of_put w.state n r) (.inl ⟨idle, rfl⟩)

theorem go_on_of_waits (found : w.state.registries[n]? = some r) (waits : w.Waits n id) :
    w.state.continueActivity (w.activity id) =
      w.state.register n id (w.keeping id) (r.turn id) := by
  rw [waits]
  simp only [State.continueActivity, found]

theorem ask_eq (found : w.state.registries[n]? = some r) (task : Nat) (keeping : Keeping) :
    w.state.openDefault task n keeping =
      w.state.fresh.2.register n ⟨task, w.state.next⟩ keeping (r.ask ⟨task, w.state.next⟩) := by
  simp only [State.openDefault, found]
  rfl

theorem ask_sound (found : w.state.registries[n]? = some r)
    (inOrder : w.InOrder n settings r none) (task : Nat) (keeping : Keeping) :
    Sound n settings r (w.next n (.ask task keeping)) := by
  let id : Caller := ⟨task, w.state.next⟩
  let w' : Clientele := { w.arrive id keeping with state := w.state.fresh.2 }
  have there : (w'.state.registries[n]?).isSome = true := Option.isSome_of_eq_some found
  have arrived := arrive_in_order inOrder task keeping
  have mine : w'.keeping id = keeping := if_pos rfl
  have asked : w.state.openDefault task n keeping =
      w'.state.register n id (w'.keeping id) (r.ask id) := by
    rw [mine]
    exact ask_eq found task keeping
  change Sound n settings r ((w.arrive id keeping).told id (w.state.openDefault task n keeping))
  rw [asked, ← told_of_state (w.arrive id keeping) w.state.fresh.2]
  have joined : Keeps r { r with builders := r.builders.join id } := keeps_of_same rfl rfl
  cases made : r.primary with
  | none =>
      rw [Registry.ask_of_unmade made]
      exact sound_of_kept joined (register_sound there arrived)
  | some c =>
      have outside : id ∉ r.builders.callers := by
        rw [inOrder.callers]
        intro member
        exact absurd (inOrder.fresh _ member) (Nat.lt_irrefl _)
      have idle : r.building ≠ some id := by
        intro builds
        cases made.symm.trans (inOrder.building builds).2.1
      have ready := ready_sound there arrived made
      rw [Registry.leave_of_join outside idle] at ready
      rw [Registry.ask_of_ready made]
      exact sound_of_kept joined ready

theorem go_on_sound (found : w.state.registries[n]? = some r)
    (inOrder : w.InOrder n settings r none) (id : Caller) :
    Sound n settings r (w.next n (.goOn id)) := by
  have there := Option.isSome_of_eq_some found
  simp only [next]
  split
  · next member =>
    rcases inOrder.places id member nofun with waits | ⟨⟨c, connects, client⟩, builds, networked⟩
    · rw [go_on_of_waits found waits]
      exact register_sound there (in_order_busy inOrder id)
    · have connecting : w.state.continueActivity (w.activity id) = w.state.continueConnect c := by
        rw [connects]
        rfl
      have redis : r.settings.backend = .redis := by
        rw [inOrder.configured]
        exact networked
      rw [connecting]
      exact construction_sound found (in_order_busy inOrder id) builds
        (State.continue_connect_construction found redis client)
  · exact ⟨r, found, keeps_of_same rfl rfl, inOrder⟩

theorem abandon_of_pending (found : w.state.registries[n]? = some r)
    (inOrder : w.InOrder n settings r none) (member : id ∈ w.pending) :
    w.state.abandon (w.activity id) = w.state.putRegistry n (r.leave id) := by
  rcases inOrder.places id member nofun with waits | ⟨⟨c, connects, client⟩, _⟩
  · rw [waits]
    simp only [State.abandon, found]
  · obtain ⟨opening, client', greetedBy, link, wait⟩ := c
    cases client
    rw [connects]
    simp only [State.abandon, found]

theorem drop_sound (found : w.state.registries[n]? = some r)
    (inOrder : w.InOrder n settings r none) (id : Caller) :
    Sound n settings r (w.next n (.drop id)) := by
  have there := Option.isSome_of_eq_some found
  simp only [next]
  split
  · next member =>
    rw [abandon_of_pending found inOrder member]
    refine ⟨r.leave id, registry_after_put there _, keeps_of_same rfl rfl, ?_⟩
    exact finish_in_order (in_order_busy inOrder id) (later_of_put w.state n _) nofun
  · exact ⟨r, found, keeps_of_same rfl rfl, inOrder⟩

/-- The caller of the auxiliary cache is given the one that there is, or the one just made. -/
theorem lent_in_order (inOrder : w.InOrder n settings r none) {s : State}
    (later : Later w.state s) {a : Nat} (name : String) (made : r.auxiliary = some a)
    (named : s.handle? name = some ⟨a, false⟩) :
    ({ w with state := s, lent := w.lent ++ shown s (.cache name) } : Clientele).InOrder n settings
      r none := by
  refine { in_order_later inOrder later with lent := ?_ }
  intro c member
  rcases List.mem_append.mp member with before | new
  · exact inOrder.lent c before
  · rw [eq_of_shown (fun _ same => Keeping.cache.inj same ▸ named) new]
    exact made

theorem auxiliary_in_order (inOrder : w.InOrder n settings r none) (unmade : r.auxiliary = none)
    {s : State} {cache : Cache Caller} (caches : s.caches = w.state.caches ++ [cache])
    (kind : cache.kind = .memory) (next : w.state.next ≤ s.next) :
    ({ w with state := s } : Clientele).InOrder n settings
      (r.keepAuxiliary w.state.caches.length) none := by
  have later : Later w.state s := later_of_append caches next
  have kept := in_order_later inOrder later
  refine ⟨kept.configured, kept.callers, kept.distinct, kept.fresh, kept.places, kept.building,
    kept.primary, ?_, kept.given, ?_⟩
  · intro a made
    rw [Registry.keepAuxiliary, unmade] at made
    cases Option.some.inj made
    refine ⟨(kind_of_new caches).trans (congrArg some kind), ?_⟩
    intro same
    exact absurd (inside_of_kind (inOrder.primary same)) (Nat.lt_irrefl _)
  · intro a member
    cases unmade.symm.trans (inOrder.lent a member)

theorem lends_found (found : w.state.registries[n]? = some r) {a : Nat}
    (made : r.auxiliary = some a) (name : String) (withTasks : Bool) :
    w.state.openAuxiliary name n withTasks = (.done, w.state.keep n a (.cache name)) := by
  simp only [State.openAuxiliary, found, made]
  rfl

theorem lends_new (found : w.state.registries[n]? = some r) (unmade : r.auxiliary = none)
    (name : String) (withTasks : Bool) :
    ∃ sweepers queue events, (∀ sweeper ∈ sweepers, sweeper.1 = w.state.caches.length) ∧
      w.state.openAuxiliary name n withTasks =
        (.done, ((w.state.grown sweepers queue events).putRegistry n
          (r.keepAuxiliary w.state.caches.length)).keep n w.state.caches.length (.cache name)) := by
  obtain ⟨sweepers, queue, events, new, makes⟩ :=
    w.state.make_embedded_eq "auxiliary" r.settings withTasks
  refine ⟨sweepers, queue, events, new, ?_⟩
  simp only [State.openAuxiliary, found, unmade, makes]
  rfl

theorem auxiliary_sound (found : w.state.registries[n]? = some r)
    (inOrder : w.InOrder n settings r none) (name : String) (withTasks : Bool) :
    Sound n settings r (w.next n (.auxiliary name withTasks)) := by
  cases made : r.auxiliary with
  | some a =>
      have kept := w.state.keep_undisturbed n a (.cache name)
      simp only [next, lends_found found made]
      refine ⟨r, ?_, keeps_of_same rfl rfl, ?_⟩
      · exact (congrArg (·[n]?) kept.registries).trans found
      · exact lent_in_order inOrder (later_of_undisturbed kept) name made
          (w.state.keep_names n a name rfl)
  | none =>
      let a := w.state.caches.length
      obtain ⟨sweepers, queue, events, _, lends⟩ := lends_new found made name withTasks
      let new := w.state.grown sweepers queue events
      let put := new.putRegistry n (r.keepAuxiliary a)
      have there : (new.registries[n]?).isSome = true := Option.isSome_of_eq_some found
      have caches : new.caches = w.state.caches ++ [.embedded .empty] := rfl
      have grows := auxiliary_in_order inOrder made caches rfl (Nat.le_refl _)
      have kept := put.keep_undisturbed n a (.cache name)
      have later : Later new (put.keep n a (.cache name)) :=
        later_trans (later_of_put new n _) (later_of_undisturbed kept)
      have new : (r.keepAuxiliary a).auxiliary = some a := by
        rw [Registry.keepAuxiliary, made]
        rfl
      have keeps : Keeps r (r.keepAuxiliary a) := by
        refine ⟨fun made => made, ?_⟩
        intro other before
        cases made.symm.trans before
      simp only [next, lends]
      refine ⟨r.keepAuxiliary a, ?_, keeps, ?_⟩
      · exact registry_when_ready there _ a (.cache name)
      · exact lent_in_order grows later name new (put.keep_names n a name rfl)

theorem next_sound (found : w.state.registries[n]? = some r)
    (inOrder : w.InOrder n settings r none) {visit : Visit} (allowed : w.Allows n visit) :
    Sound n settings r (w.next n visit) := by
  cases visit with
  | ask task keeping => exact ask_sound found inOrder task keeping
  | goOn id => exact go_on_sound found inOrder id
  | drop id => exact drop_sound found inOrder id
  | auxiliary name withTasks => exact auxiliary_sound found inOrder name withTasks
  | elsewhere s =>
      exact ⟨r, allowed.registry.trans found, keeps_of_same rfl rfl,
        in_order_later inOrder allowed.toLater⟩

theorem onward_sound (found : w.state.registries[n]? = some r)
    (inOrder : w.InOrder n settings r none) {w' : Clientele} (onward : Onward n w w') :
    Sound n settings r w' := by
  induction onward with
  | here => exact ⟨r, found, keeps_of_same rfl rfl, inOrder⟩
  | next _ visit allowed ih =>
      obtain ⟨r', found', kept, inOrder'⟩ := ih
      exact sound_of_kept kept (next_sound found' inOrder' allowed)

theorem opened_in_order (s : State) :
    (opened s).InOrder n settings (.ofSettings settings) none :=
  ⟨rfl, rfl, List.nodup_nil, nofun, nofun, nofun, nofun, nofun, nofun, nofun⟩

theorem reachable_in_order (reached : Reachable n settings w) :
    ∃ r, w.state.registries[n]? = some r ∧ w.InOrder n settings r none := by
  obtain ⟨s, new, onward⟩ := reached
  obtain ⟨r, found, _, inOrder⟩ := onward_sound new (opened_in_order s) onward
  exact ⟨r, found, inOrder⟩

end ExpiringCache.Simulation.Clientele
