import Mathlib.Logic.Relation
import ExpiringCache.Simulation.Task
/-!
What the moves of a simulation leave as it was. Waking, reporting and sending touch no cache and no
registry; whatever is done with one cache, every other cache stays as it is.
-/

namespace ExpiringCache.Simulation

/-! ### The queue -/

namespace State

theorem mem_wake {s : State} {item other : Item} (there : item ∈ s.queue) :
    item ∈ (s.wake other).queue := by
  unfold wake
  split
  · exact there
  · exact List.mem_append_left _ there

theorem wake_wakes (s : State) (item : Item) : item ∈ (s.wake item).queue := by
  unfold wake
  split
  · next there => exact List.contains_iff_mem.mp there
  · exact List.mem_append_right _ List.mem_cons_self

theorem mem_wake_all {s : State} {item : Item} (items : List Item) (there : item ∈ s.queue) :
    item ∈ (s.wakeAll items).queue := by
  induction items generalizing s with
  | nil => exact there
  | cons other items ih => exact ih (mem_wake there)

theorem wake_all_wakes (s : State) {item : Item} {items : List Item} (member : item ∈ items) :
    item ∈ (s.wakeAll items).queue := by
  induction items generalizing s with
  | nil => cases member
  | cons other items ih =>
      rcases List.mem_cons.mp member with rfl | later
      · exact mem_wake_all items (wake_wakes s item)
      · exact ih (s.wake other) later

/-- Callers whose turn has come are woken whenever their cache is put back. -/
theorem put_cache_wakes_due (s : State) (n : Nat) {c : Cache Caller} {caller : Caller}
    (due : caller ∈ c.due) : .task caller.task ∈ (s.putCache n c).queue :=
  wake_all_wakes _ (List.mem_map_of_mem due)

/-- The same for those that a registry has something new to tell. -/
theorem put_registry_wakes_due (s : State) (n : Nat) {r : Registry Caller} {caller : Caller}
    (due : caller ∈ r.due) : .task caller.task ∈ (s.putRegistry n r).queue :=
  wake_all_wakes _ (List.mem_map_of_mem due)

theorem wake_eq (s : State) (item : Item) : ∃ queue, s.wake item = { s with queue } := by
  unfold wake
  split
  · exact ⟨s.queue, rfl⟩
  · exact ⟨_, rfl⟩

theorem wake_all_eq (s : State) (items : List Item) :
    ∃ queue, s.wakeAll items = { s with queue } := by
  induction items generalizing s with
  | nil => exact ⟨s.queue, rfl⟩
  | cons item items ih =>
      obtain ⟨_, woken⟩ := s.wake_eq item
      obtain ⟨queue, all⟩ := ih (s.wake item)
      rw [woken] at all
      exact ⟨queue, by rw [wakeAll, List.foldl_cons, woken]; exact all⟩

theorem put_cache_eq (s : State) (n : Nat) (c : Cache Caller) :
    ∃ queue, s.putCache n c = { s with caches := s.caches.set n c, queue } :=
  wake_all_eq _ _

theorem put_registry_eq (s : State) (n : Nat) (r : Registry Caller) :
    ∃ queue, s.putRegistry n r = { s with registries := s.registries.set n r, queue } :=
  wake_all_eq _ _

/-! ### Registries and caches that stay -/

/-- No registry and no cache differs, and numbers that were new are new or used up. -/
structure Undisturbed (s s' : State) : Prop where
  registries : s'.registries = s.registries
  caches : s'.caches = s.caches
  next : s.next ≤ s'.next

theorem Undisturbed.trans {s s' s'' : State} (first : Undisturbed s s')
    (second : Undisturbed s' s'') : Undisturbed s s'' where
  registries := second.registries.trans first.registries
  caches := second.caches.trans first.caches
  next := Nat.le_trans first.next second.next

theorem report_undisturbed (s : State) (events : List Event) : Undisturbed s (s.report events) :=
  ⟨rfl, rfl, Nat.le_refl _⟩

theorem post_eq (s : State) (n : Nat) (commands : List Command) (patience : Duration) :
    ∃ links queue next, s.next ≤ next ∧
      (s.post n commands patience).2 = { s with links, queue, next } := by
  unfold post
  split
  · next link found =>
    obtain ⟨queue, woken⟩ := wake_eq { s with
      links := s.links.set n (((((List.range commands.length).map (s.next + ·)).zip commands)).foldl
        (fun link c => link.post c.1 c.2) link)
      next := s.next + commands.length } (.link n)
    exact ⟨_, queue, _, Nat.le_add_right _ _, woken⟩
  · exact ⟨s.links, s.queue, s.next, Nat.le_refl _, rfl⟩

theorem post_undisturbed (s : State) (n : Nat) (commands : List Command) (patience : Duration) :
    Undisturbed s (s.post n commands patience).2 := by
  obtain ⟨links, queue, next, order, sent⟩ := s.post_eq n commands patience
  rw [sent]
  exact ⟨rfl, rfl, order⟩

theorem forget_eq (s : State) (w : Wait) : ∃ links, s.forget w = { s with links } := by
  unfold forget
  split
  · exact ⟨_, rfl⟩
  · exact ⟨s.links, rfl⟩

theorem forget_undisturbed (s : State) (w : Wait) : Undisturbed s (s.forget w) := by
  obtain ⟨links, forgot⟩ := s.forget_eq w
  rw [forgot]
  exact ⟨rfl, rfl, Nat.le_refl _⟩

/-! ### Moves of one cache -/

def kindAt? (s : State) (n : Nat) : Option BackendKind := s.caches[n]?.map Cache.kind

/-- What may differ after a move of a caller of the cache numbered `i`. An embedded cache has its
callers send nothing. -/
structure Moved (i : Nat) (s s' : State) : Prop where
  others : ∀ j : Nat, j ≠ i → s'.caches[j]? = s.caches[j]?
  kinds : ∀ j, s'.kindAt? j = s.kindAt? j
  registries : s'.registries = s.registries
  now : s'.now = s.now
  next : s.next ≤ s'.next
  links : s.kindAt? i = some .memory → s'.links = s.links

theorem moved_none (i : Nat) (s : State) : Moved i s s :=
  ⟨fun _ _ => rfl, fun _ => rfl, rfl, rfl, Nat.le_refl _, fun _ => rfl⟩

theorem Moved.trans {i : Nat} {s s' s'' : State} (first : Moved i s s') (second : Moved i s' s'') :
    Moved i s s'' where
  others j other := (second.others j other).trans (first.others j other)
  kinds j := (second.kinds j).trans (first.kinds j)
  registries := second.registries.trans first.registries
  now := second.now.trans first.now
  next := Nat.le_trans first.next second.next
  links embedded :=
    (second.links ((first.kinds i).trans embedded)).trans (first.links embedded)

theorem moved_of_set {i : Nat} {s s' : State} {c d : Cache Caller} (there : s.caches[i]? = some c)
    (same : d.kind = c.kind) (caches : s'.caches = s.caches.set i d)
    (registries : s'.registries = s.registries) (now : s'.now = s.now) (next : s'.next = s.next)
    (links : s'.links = s.links) : Moved i s s' where
  others := by
    intro j other
    rw [caches, List.getElem?_set_ne (Ne.symm other)]
  kinds := by
    intro j
    obtain ⟨inside, _⟩ := List.getElem?_eq_some_iff.mp there
    by_cases mine : j = i
    · subst mine
      rw [kindAt?, kindAt?, caches, List.getElem?_set_self inside, there, Option.map_some,
        Option.map_some, same]
    · rw [kindAt?, kindAt?, caches, List.getElem?_set_ne (Ne.symm mine)]
  registries := registries
  now := now
  next := Nat.le_of_eq next.symm
  links _ := links

theorem put_cache_moved {i : Nat} {s : State} {c d : Cache Caller} (there : s.caches[i]? = some c)
    (same : d.kind = c.kind) : Moved i s (s.putCache i d) := by
  obtain ⟨queue, put⟩ := s.put_cache_eq i d
  rw [put]
  exact moved_of_set there same rfl rfl rfl rfl rfl

/-- The cache of a request is put back and what has happened is reported. Only a networked cache
posts a command after that. -/
theorem react_leaves (s : State) (q : Requesting) (r : Reaction (Cache Caller)) :
    (s.react q r).2 = (s.putCache q.cache r.state).report r.events ∨
      r.state.kind = .redis ∧ ∃ link command patience, (s.react q r).2 =
        (((s.putCache q.cache r.state).report r.events).post link [command] patience).2 := by
  unfold react
  cases r.progress with
  | finished outcome => exact .inl rfl
  | waiting => exact .inl rfl
  | compute => exact .inl rfl
  | send command =>
      cases state : r.state with
      | embedded d => exact .inl rfl
      | networked link patience d => exact .inr ⟨rfl, link, command, patience, rfl⟩

theorem react_moved {s : State} {q : Requesting} {c : Cache Caller} {r : Reaction (Cache Caller)}
    (there : s.caches[q.cache]? = some c) (same : r.state.kind = c.kind) :
    Moved q.cache s (s.react q r).2 := by
  have put : Moved q.cache s ((s.putCache q.cache r.state).report r.events) :=
    (put_cache_moved there same).trans
      ⟨fun _ _ => rfl, fun _ => rfl, rfl, rfl, Nat.le_refl _, fun _ => rfl⟩
  rcases s.react_leaves q r with leaves | ⟨networked, link, command, patience, leaves⟩
  · rw [leaves]
    exact put
  · obtain ⟨links, queue, next, order, sent⟩ :=
      ((s.putCache q.cache r.state).report r.events).post_eq link [command] patience
    rw [leaves, sent]
    refine put.trans ⟨fun _ _ => rfl, fun _ => rfl, rfl, rfl, order, ?_⟩
    intro embedded
    have kind : s.kindAt? q.cache = some .memory := (put.kinds q.cache).symm.trans embedded
    rw [kindAt?, there, Option.map_some, ← same, networked] at kind
    cases kind

/-- What callers do with the cache numbered `i`, and what is done with its store past them. Only
callers of a networked cache wait for replies. -/
inductive Operates (i : Nat) : State → State → Prop where
  | begin {s cache} (task : Nat) (name : String) (request : Request) (computation : Computation)
      (there : s.cacheAt? name = some (i, cache)) :
      Operates i s (s.request task name request computation).2
  | goOn {s} (q : Requesting) (here : q.cache = i)
      (waits : q.wait.isSome = true → s.kindAt? i = some .redis) :
      Operates i s (s.continueRequest q).2
  | endComputation {s} (q : Requesting) (level : Level) (here : q.cache = i) :
      Operates i s (s.endComputation q level).2
  | giveUp {s} (q : Requesting) (here : q.cache = i) : Operates i s (s.abandon (.requesting q))
  | restock {s} (store : Store) : Operates i s (s.putStore i store)

theorem cache_of_name {s : State} {name : String} {i : Nat} {c : Cache Caller}
    (there : s.cacheAt? name = some (i, c)) : s.caches[i]? = some c := by
  obtain ⟨handle, _, rest⟩ := Option.bind_eq_some_iff.mp there
  obtain ⟨cache, found, same⟩ := Option.bind_eq_some_iff.mp rest
  cases same
  exact found

theorem request_moved {s : State} {i : Nat} {c : Cache Caller} {name : String}
    (there : s.cacheAt? name = some (i, c)) (task : Nat) (request : Request)
    (computation : Computation) : Moved i s (s.request task name request computation).2 := by
  have found : s.caches[i]? = some c := cache_of_name there
  have same : ∀ caller, (c.start s.now caller request).state.kind = c.kind := by
    intro caller
    cases c <;> rfl
  have numbered : Moved i s s.fresh.2 :=
    ⟨fun _ _ => rfl, fun _ => rfl, rfl, rfl, Nat.le_succ _, fun _ => rfl⟩
  simp only [State.request, there]
  exact numbered.trans (react_moved (q := ⟨i, ⟨task, s.next⟩, none, computation, none⟩) found
    (same ⟨task, s.next⟩))

theorem continue_request_moved {s : State} (q : Requesting)
    (waits : q.wait.isSome = true → s.kindAt? q.cache = some .redis) :
    Moved q.cache s (s.continueRequest q).2 := by
  unfold continueRequest
  split
  · exact moved_none _ s
  · next c found =>
    split
    · have same : (c.turn s.now q.caller).state.kind = c.kind := by cases c <;> rfl
      exact react_moved found same
    · next wait waiting =>
      have networked := waits (by rw [waiting]; rfl)
      split
      · exact moved_none _ s
      · next outcome _ =>
        obtain ⟨links, forgot⟩ := s.forget_eq wait
        have forgotten : Moved q.cache s (s.forget wait) := by
          rw [forgot]
          refine ⟨fun _ _ => rfl, fun _ => rfl, rfl, rfl, Nat.le_refl _, ?_⟩
          intro embedded
          cases networked.symm.trans embedded
        have same : ∀ reply, (c.reply q.caller reply).state.kind = c.kind := by
          intro reply
          cases c <;> rfl
        apply forgotten.trans
        have kept : (s.forget wait).caches[q.cache]? = some c := by
          rw [forgot]
          exact found
        exact react_moved kept (same _)

theorem end_computation_moved (s : State) (q : Requesting) (level : Level) :
    Moved q.cache s (s.endComputation q level).2 := by
  unfold endComputation
  split
  · exact moved_none _ s
  · next c found =>
    have same : ∀ failure, (c.computed s.now q.caller failure).state.kind = c.kind := by
      intro failure
      cases c <;> rfl
    exact react_moved (q := { q with computed := some level.answers }) found (same _)

/-- No cache but the one that is used differs afterwards, and what is used stays of its kind. -/
theorem operates_moved {i : Nat} {s s' : State} (operates : Operates i s s') : Moved i s s' := by
  cases operates with
  | begin task name request computation there => exact request_moved there task request computation
  | goOn q here waits =>
      subst here
      exact continue_request_moved q waits
  | endComputation q level here =>
      subst here
      exact end_computation_moved s q level
  | giveUp q here =>
      subst here
      simp only [abandon]
      split
      · next c found => exact put_cache_moved found (by cases c <;> rfl)
      · exact moved_none _ s
  | restock store =>
      unfold putStore
      split
      · next c found => exact moved_of_set found (by cases c <;> rfl) rfl rfl rfl rfl rfl
      · exact moved_none _ s

theorem operates_run_moved {i : Nat} {s s' : State}
    (run : Relation.ReflTransGen (Operates i) s s') : Moved i s s' := by
  induction run with
  | refl => exact moved_none i s
  | tail _ operates ih => exact ih.trans (operates_moved operates)

end State

end ExpiringCache.Simulation
