import ExpiringCache.Proofs.Registry.Clientele
import ExpiringCache.Proofs.Simulation.Holders
import ExpiringCache.Proofs.Time
/-!
What may come after a state. The clock does not run backwards, caches keep their kinds, sweepers
keep their caches and what they are at, and whatever names, registries and tasks hold was held
before or is new. So a cache that nobody holds is out of reach for good.
-/

namespace ExpiringCache.Simulation.State

/-! ### States that follow a state -/

structure Fits (b : State) (task : Task) : Prop where
  emptied : task.ended.isSome = true → task.levels = []
  draws : ∀ level ∈ task.levels, b.Draws level.activity

def Lends (b : State) (n : Nat) (r : Registry Caller) : Prop :=
  ∀ c, r.Keeps c →
    (∃ old, b.registries[n]? = some old ∧ old.Keeps c) ∨ b.caches.length ≤ c

/-- The state `s` is one to which tasks, servers and the clock may lead from `b`, while no sweeper
runs. -/
structure Follows (b s : State) : Prop where
  clock : b.now.toNanos ≤ s.now.toNanos
  kinds : ∀ {i kind}, b.kindAt? i = some kind → s.kindAt? i = some kind
  registryCount : b.registries.length ≤ s.registries.length
  registries : ∀ {n r}, s.registries[n]? = some r → b.Lends n r
  handles : ∀ row ∈ s.handles.rows, b.Known row.2.cache
  registryNames : ∀ row ∈ s.registryNames.rows, b.KnownRegistry row.2
  tasks : ∀ task ∈ s.tasks, b.Fits task
  sweepers : ∀ {n c : Nat} {w : Sweeper}, b.sweepers[n]? = some (c, w) →
    ∃ stopped, s.sweepers[n]? = some (c, { w with stopped })
  newSweepers : ∀ {n c w}, b.sweepers.length ≤ n → s.sweepers[n]? = some (c, w) →
    w.stage = .fresh ∧ w.reference = .weak ∧ s.kindAt? c = some .memory
  roused : ∀ {n}, n < b.sweepers.length → .sweeper n ∈ b.queue → .sweeper n ∈ s.queue

def Settled (s : State) : Prop := ∀ task ∈ s.tasks, task.ended.isSome = true → task.levels = []

variable {b s s' : State}

theorem draws_of_level {task : Task} {level : Level} (settled : s.Settled) (member : task ∈ s.tasks)
    (inside : level ∈ task.levels) : s.Draws level.activity := by
  have runs : task.ended.isNone = true := by
    cases ends : task.ended with
    | none => rfl
    | some ended =>
        rw [settled task member (by rw [ends]; rfl)] at inside
        cases inside
  exact draws_of_activity (List.mem_flatMap.mpr
    ⟨task, List.mem_filter.mpr ⟨member, runs⟩, List.mem_map_of_mem inside⟩)

theorem follows_self (settled : s.Settled) : s.Follows s where
  clock := Nat.le_refl _
  kinds here := here
  registryCount := Nat.le_refl _
  registries there _ keeps := .inl ⟨_, there, keeps⟩
  handles _ member := known_of_handle member
  registryNames _ member := known_of_registry_name member
  tasks task member := ⟨settled task member, fun _ inside => draws_of_level settled member inside⟩
  sweepers there := ⟨_, there⟩
  newSweepers outside there := by
    rw [List.getElem?_eq_none outside] at there
    cases there
  roused _ there := there

namespace Follows

variable (follows : b.Follows s)
include follows

theorem settled : s.Settled := fun task member => (follows.tasks task member).emptied

theorem caches_length : b.caches.length ≤ s.caches.length := by
  cases count : b.caches.length with
  | zero => exact Nat.zero_le _
  | succ n =>
      have here : b.kindAt? n = some (b.caches.get ⟨n, by omega⟩).kind := by
        rw [kindAt?, List.getElem?_eq_getElem (by omega), Option.map_some, List.get_eq_getElem]
      exact inside_of_kind (follows.kinds here)

theorem known_of_new : b.Known s.caches.length := .inr follows.caches_length

theorem known_of_registry_activity {n : Nat} {activity : Activity} (member : activity ∈ s.activities)
    (mine : Activity.registry? activity = some n) : b.KnownRegistry n := by
  obtain ⟨task, inside, at'⟩ := List.mem_flatMap.mp member
  obtain ⟨level, there, rfl⟩ := List.mem_map.mp at'
  exact ((follows.tasks task (List.mem_filter.mp inside).1).draws level there).registry mine

theorem known_of_cache_activity {c : Nat} {activity : Activity} (member : activity ∈ s.activities)
    (mine : Activity.cache? activity = some c) : b.Known c := by
  obtain ⟨task, inside, at'⟩ := List.mem_flatMap.mp member
  obtain ⟨level, there, rfl⟩ := List.mem_map.mp at'
  exact ((follows.tasks task (List.mem_filter.mp inside).1).draws level there).cache mine

theorem known_of_lends {n c : Nat} {r : Registry Caller} (known : b.KnownRegistry n)
    (there : s.registries[n]? = some r) (keeps : r.Keeps c) : b.Known c := by
  rcases follows.registries there c keeps with ⟨old, before, kept⟩ | new
  · exact known_of_registry known before kept
  · exact .inr new

theorem sweeper_cases {n c : Nat} {w : Sweeper} (there : s.sweepers[n]? = some (c, w)) :
    (∃ v, b.sweepers[n]? = some (c, v) ∧ w.stage = v.stage ∧ w.interval = v.interval ∧
        w.reference = v.reference) ∨
      b.sweepers.length ≤ n ∧ w.stage = .fresh ∧ w.reference = .weak ∧
        s.kindAt? c = some .memory := by
  by_cases old : n < b.sweepers.length
  · have before := List.getElem?_eq_getElem old
    obtain ⟨stopped, kept⟩ := follows.sweepers before
    cases kept.symm.trans there
    exact .inl ⟨_, before, rfl, rfl, rfl⟩
  · have outside := Nat.le_of_not_lt old
    exact .inr ⟨outside, follows.newSweepers outside there⟩

theorem known_of_held {c : Nat} (held : s.holdsCache c = true) : b.Known c := by
  cases (s.holds_cache_iff c).mp held with
  | @handle row member same => exact same ▸ follows.handles row member
  | @registry n r there keeps named =>
      refine follows.known_of_lends ?_ there keeps
      rcases (s.holds_registry_iff n).mp named with ⟨row, member, rfl⟩ | ⟨activity, member, mine⟩
      · exact follows.registryNames row member
      · exact follows.known_of_registry_activity member mine
  | activity member mine => exact follows.known_of_cache_activity member mine
  | sweeper member strong =>
      obtain ⟨n, there⟩ := List.mem_iff_getElem?.mp member
      rcases follows.sweeper_cases there with ⟨v, before, _, _, same⟩ | ⟨_, _, weak, _⟩
      · have member := List.mem_of_getElem? before
        exact .inl ((b.holds_cache_iff c).mpr (.sweeper member (same ▸ strong)))
      · cases weak.symm.trans strong

/-- A cache that nobody holds any more is held by nobody afterwards. -/
theorem stays_unheld {c : Nat} (inside : c < b.caches.length) (unheld : b.holdsCache c = false) :
    s.holdsCache c = false := by
  rw [Bool.eq_false_iff]
  intro held
  rcases follows.known_of_held held with before | new
  · rw [unheld] at before
    cases before
  · omega

theorem known_of_name {name : String} {handle : Handle} (there : s.handle? name = some handle) :
    b.Known handle.cache :=
  follows.handles _ ((s.handles.mem_rows_iff_get name handle).mpr there)

theorem known_of_cache_name {name : String} {c : Nat} {cache : Cache Caller}
    (there : s.cacheAt? name = some (c, cache)) : b.Known c := by
  obtain ⟨handle, named, rest⟩ := Option.bind_eq_some_iff.mp there
  obtain ⟨cache', _, same⟩ := Option.bind_eq_some_iff.mp rest
  cases same
  exact follows.known_of_name named

theorem known_registry_of_name {name : String} {n : Nat}
    (there : s.registryNames.get? name = some n) : b.KnownRegistry n :=
  follows.registryNames _ ((s.registryNames.mem_rows_iff_get name n).mpr there)

end Follows

/-! ### Changes that leave all holders alone -/

/-- Only caches differ, each within its kind, and what says nothing of who holds them. -/
structure Aside (s s' : State) : Prop where
  now : s'.now = s.now
  kinds : ∀ i, s'.kindAt? i = s.kindAt? i
  registries : s'.registries = s.registries
  handles : s'.handles = s.handles
  registryNames : s'.registryNames = s.registryNames
  tasks : s'.tasks = s.tasks
  sweepers : s'.sweepers = s.sweepers
  roused : ∀ {n}, .sweeper n ∈ s.queue → .sweeper n ∈ s'.queue

theorem aside_self (s : State) : s.Aside s :=
  ⟨rfl, fun _ => rfl, rfl, rfl, rfl, rfl, rfl, id⟩

theorem Aside.trans {s'' : State} (first : s.Aside s') (second : s'.Aside s'') : s.Aside s'' where
  now := second.now.trans first.now
  kinds i := (second.kinds i).trans (first.kinds i)
  registries := second.registries.trans first.registries
  handles := second.handles.trans first.handles
  registryNames := second.registryNames.trans first.registryNames
  tasks := second.tasks.trans first.tasks
  sweepers := second.sweepers.trans first.sweepers
  roused there := second.roused (first.roused there)

theorem follows_aside (follows : b.Follows s) (aside : s.Aside s') : b.Follows s' where
  clock := by
    rw [aside.now]
    exact follows.clock
  kinds here := (aside.kinds _).trans (follows.kinds here)
  registryCount := by
    rw [aside.registries]
    exact follows.registryCount
  registries := by
    rw [aside.registries]
    exact follows.registries
  handles := by
    rw [aside.handles]
    exact follows.handles
  registryNames := by
    rw [aside.registryNames]
    exact follows.registryNames
  tasks := by
    rw [aside.tasks]
    exact follows.tasks
  sweepers := by
    rw [aside.sweepers]
    exact follows.sweepers
  newSweepers outside there := by
    rw [aside.sweepers] at there
    rw [aside.kinds]
    exact follows.newSweepers outside there
  roused inside there := aside.roused (follows.roused inside there)

theorem wake_all_aside (s : State) (items : List Item) : s.Aside (s.wakeAll items) := by
  have roused : ∀ {n}, .sweeper n ∈ s.queue → .sweeper n ∈ (s.wakeAll items).queue :=
    mem_wake_all items
  obtain ⟨queue, woken⟩ := s.wake_all_eq items
  rw [woken] at roused ⊢
  exact ⟨rfl, fun _ => rfl, rfl, rfl, rfl, rfl, rfl, roused⟩

theorem wake_aside (s : State) (item : Item) : s.Aside (s.wake item) := wake_all_aside s [item]

theorem report_aside (s : State) (events : List Event) : s.Aside (s.report events) :=
  ⟨rfl, fun _ => rfl, rfl, rfl, rfl, rfl, rfl, id⟩

theorem fresh_aside (s : State) : s.Aside s.fresh.2 :=
  ⟨rfl, fun _ => rfl, rfl, rfl, rfl, rfl, rfl, id⟩

theorem post_aside (s : State) (n : Nat) (commands : List Command) (patience : Duration) :
    s.Aside (s.post n commands patience).2 := by
  unfold post
  split
  · refine Aside.trans ?_ (wake_aside _ _)
    exact ⟨rfl, fun _ => rfl, rfl, rfl, rfl, rfl, rfl, id⟩
  · exact aside_self s

theorem forget_aside (s : State) (w : Wait) : s.Aside (s.forget w) := by
  obtain ⟨links, forgot⟩ := s.forget_eq w
  rw [forgot]
  exact ⟨rfl, fun _ => rfl, rfl, rfl, rfl, rfl, rfl, id⟩

theorem set_cache_aside {i : Nat} {c d : Cache Caller} (there : s.caches[i]? = some c)
    (same : d.kind = c.kind) : s.Aside { s with caches := s.caches.set i d } where
  now := rfl
  kinds := by
    have moved : Moved i s { s with caches := s.caches.set i d } :=
      moved_of_set there same rfl rfl rfl rfl rfl
    exact moved.kinds
  registries := rfl
  handles := rfl
  registryNames := rfl
  tasks := rfl
  sweepers := rfl
  roused there := there

theorem put_cache_aside {i : Nat} {c d : Cache Caller} (there : s.caches[i]? = some c)
    (same : d.kind = c.kind) : s.Aside (s.putCache i d) :=
  (set_cache_aside there same).trans (wake_all_aside _ _)

theorem put_store_aside (s : State) (i : Nat) (store : Store) : s.Aside (s.putStore i store) := by
  unfold putStore
  split
  · next c found => exact set_cache_aside found (by cases c <;> rfl)
  · exact aside_self s

theorem react_aside {q : Requesting} {c : Cache Caller} {r : Reaction (Cache Caller)}
    (there : s.caches[q.cache]? = some c) (same : r.state.kind = c.kind) :
    s.Aside (s.react q r).2 := by
  have put : s.Aside ((s.putCache q.cache r.state).report r.events) :=
    (put_cache_aside there same).trans (report_aside _ _)
  rcases s.react_leaves q r with leaves | ⟨_, link, command, patience, leaves⟩
  · rw [leaves]
    exact put
  · rw [leaves]
    exact put.trans (post_aside _ _ _ _)

theorem work_link_aside (s : State) (n : Nat) : s.Aside (s.workLink n) := by
  unfold workLink
  split
  · split
    · refine Aside.trans ?_ (wake_all_aside _ _)
      exact ⟨rfl, fun _ => rfl, rfl, rfl, rfl, rfl, rfl, id⟩
    · exact aside_self s
  · exact aside_self s

/-! ### Changes of what is held -/

theorem follows_name (follows : b.Follows s) {c : Nat} (known : b.Known c) (name : String)
    (counted : Bool) : b.Follows (s.name name c counted) :=
  { follows with
    handles := by
      intro row member
      rcases Table.mem_rows_put member with same | before
      · rw [same]
        exact known
      · exact follows.handles row before }

theorem follows_registry_name (follows : b.Follows s) {n : Nat} (known : b.KnownRegistry n)
    (name : String) :
    b.Follows { s with registryNames := s.registryNames.put name n } :=
  { follows with
    registryNames := by
      intro row member
      rcases Table.mem_rows_put member with same | before
      · rw [same]
        exact known
      · exact follows.registryNames row before }

theorem follows_keep (follows : b.Follows s) {n c : Nat} (registry : b.KnownRegistry n)
    (cache : b.Known c) (keeping : Keeping) : b.Follows (s.keep n c keeping) := by
  cases keeping with
  | cache name => exact follows_name follows cache name false
  | registry name => exact follows_registry_name follows registry name

theorem follows_discard (follows : b.Follows s) (name : String) :
    b.Follows { s with handles := s.handles.erase name } :=
  { follows with handles := fun row member => follows.handles row (Table.mem_rows_erase member) }

theorem follows_put_registry (follows : b.Follows s) {n : Nat} {r : Registry Caller}
    (lends : b.Lends n r) : b.Follows (s.putRegistry n r) := by
  refine follows_aside (s := { s with registries := s.registries.set n r }) ?_ (wake_all_aside _ _)
  exact { follows with
    registryCount := by
      rw [List.length_set]
      exact follows.registryCount
    registries := by
      intro m r' there
      rw [List.getElem?_set] at there
      split at there
      · next same =>
        subst same
        split at there
        · cases there
          exact lends
        · cases there
      · exact follows.registries there }

theorem follows_new_registry (follows : b.Follows s) (settings : Settings) :
    b.Follows (s.addRegistry (.ofSettings settings)).2 :=
  { follows with
    registryCount := by
      rw [addRegistry, List.length_append]
      exact Nat.le_add_right_of_le follows.registryCount
    registries := by
      intro n r there
      rw [addRegistry, List.getElem?_append] at there
      split at there
      · exact follows.registries there
      · rw [List.mem_singleton.mp (List.mem_of_getElem? there)]
        rintro c (keeps | keeps) <;> cases keeps }

theorem known_new_registry (follows : b.Follows s) : b.KnownRegistry s.registries.length :=
  .inr follows.registryCount

theorem follows_new_cache (follows : b.Follows s) (cache : Cache Caller) :
    b.Follows (s.addCache cache).2 := by
  have later : Later s (s.addCache cache).2 := later_of_append rfl (Nat.le_refl _)
  exact { follows with
    kinds := fun here => later.kinds (follows.kinds here)
    newSweepers := fun outside there =>
      (follows.newSweepers outside there).imp_right (And.imp_right later.kinds) }

theorem follows_new_sweeper (follows : b.Follows s) {c : Nat} (embedded : s.kindAt? c = some .memory)
    (interval : Duration) : b.Follows (s.addSweeper c interval).2 := by
  refine follows_aside (s := { s with
    sweepers := s.sweepers ++ [(c, Sweeper.every interval)] }) ?_ (wake_aside _ _)
  exact { follows with
    sweepers := by
      intro n c' w there
      obtain ⟨stopped, kept⟩ := follows.sweepers there
      obtain ⟨inside, _⟩ := List.getElem?_eq_some_iff.mp kept
      exact ⟨stopped, (List.getElem?_append_left inside).trans kept⟩
    newSweepers := by
      intro n c' w outside there
      rw [List.getElem?_append] at there
      split at there
      · exact follows.newSweepers outside there
      · cases List.mem_singleton.mp (List.mem_of_getElem? there)
        exact ⟨rfl, rfl, embedded⟩ }

theorem follows_make_embedded (follows : b.Follows s) (label : String) (settings : Settings)
    (withTasks : Bool) : b.Follows (s.makeEmbedded label settings withTasks).2 := by
  have added := follows_new_cache follows (.embedded .empty)
  have embedded : (s.addCache (.embedded .empty)).2.kindAt? s.caches.length =
      some (Cache.embedded (EmbeddedCache.empty : EmbeddedCache Caller)).kind := kind_of_new rfl
  refine follows_aside ?_ (report_aside _ [.embeddedReady label])
  cases settings.sweepInterval with
  | none => exact added
  | some interval =>
      cases withTasks with
      | true => exact follows_new_sweeper added embedded interval
      | false => exact follows_aside added (report_aside _ _)

theorem follows_stop_sweeper (follows : b.Follows s) {n c : Nat} {w : Sweeper}
    (there : s.sweepers[n]? = some (c, w)) :
    b.Follows { s with sweepers := s.sweepers.set n (c, { w with stopped := true }) } := by
  obtain ⟨inside, _⟩ := List.getElem?_eq_some_iff.mp there
  exact { follows with
    sweepers := by
      intro m c' w' before
      obtain ⟨stopped, kept⟩ := follows.sweepers before
      by_cases same : n = m
      · subst same
        cases there.symm.trans kept
        exact ⟨true, List.getElem?_set_self inside⟩
      · exact ⟨stopped, (List.getElem?_set_ne same).trans kept⟩
    newSweepers := by
      intro m c' w' outside after
      by_cases same : n = m
      · subst same
        cases (List.getElem?_set_self inside).symm.trans after
        have fresh := follows.newSweepers outside there
        exact fresh
      · exact follows.newSweepers outside ((List.getElem?_set_ne same).symm.trans after) }

theorem follows_now (follows : b.Follows s) {now : Instant}
    (order : s.now.toNanos ≤ now.toNanos) : b.Follows { s with now } :=
  { follows with clock := Nat.le_trans follows.clock order }

theorem follows_tasks (follows : b.Follows s) {tasks : List Task}
    (fit : ∀ task ∈ tasks, b.Fits task) : b.Follows { s with tasks } :=
  { follows with tasks := fit }

theorem follows_put_task (follows : b.Follows s) {task : Task} (fits : b.Fits task) :
    b.Follows (s.putTask task) := by
  refine follows_tasks follows ?_
  intro other member
  obtain ⟨old, before, rfl⟩ := List.mem_map.mp member
  split
  · exact fits
  · exact follows.tasks old before

end ExpiringCache.Simulation.State
