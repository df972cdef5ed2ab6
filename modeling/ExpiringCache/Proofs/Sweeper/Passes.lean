import ExpiringCache.Proofs.Simulation.Courses
import ExpiringCache.Proofs.Store.Reclaiming
/-!
One run of a sweeper. Its first run lets it sleep and looks at no store. A run after that does
nothing before the sweeper's time; at its time it sweeps the store and lets the sweeper sleep anew,
or finds the store gone, and then the sweeper is done, as it is when it was told to stop.
-/

namespace ExpiringCache

namespace Sweeper

def pause (w : Sweeper) : Duration := if w.interval.isZero then .ofMillis 1 else w.interval

variable {w : Sweeper} {now wake : Instant}

theorem run_of_stopped (stopped : w.stopped = true) (found : Option Store) :
    w.run now found = ({ w with stage := .done }, found, []) := by
  rw [run.eq_def, if_pos stopped]

theorem run_of_fresh (going : ¬ w.stopped = true) (fresh : w.stage = .fresh)
    (found : Option Store) : w.run now found = (w.sleep now, found, [.sweeping w.interval]) := by
  rw [run.eq_def, if_neg going, fresh]

theorem run_of_done (going : ¬ w.stopped = true) (done : w.stage = .done) (found : Option Store) :
    w.run now found = (w, found, []) := by
  rw [run.eq_def, if_neg going, done]

theorem run_of_early (going : ¬ w.stopped = true) (asleep : w.stage = .sleeping wake)
    (early : ¬ wake.reached now = true) (found : Option Store) :
    w.run now found = (w, found, []) := by
  rw [run.eq_def, if_neg going, asleep]
  exact if_neg early

theorem run_of_due (going : ¬ w.stopped = true) (asleep : w.stage = .sleeping wake)
    (due : wake.reached now = true) (store : Store) :
    w.run now (some store) =
      (w.sleep now, some (store.sweep now).2, [.swept (store.sweep now).1]) := by
  rw [run.eq_def, if_neg going, asleep]
  exact if_pos due

theorem run_of_gone (going : ¬ w.stopped = true) (asleep : w.stage = .sleeping wake)
    (due : wake.reached now = true) :
    w.run now none = ({ w with stage := .done }, none, [.storeGone]) := by
  rw [run.eq_def, if_neg going, asleep]
  exact if_pos due

end Sweeper

/-- The point `t` comes an interval after `s`, or later; the last point of the clock stands for all
that come after it. -/
def Instant.Apart (interval : Duration) (s t : Instant) : Prop :=
  s.toNanos + interval.toNanos ≤ t.toNanos ∨ t = .last

namespace Instant

variable {interval : Duration} {s t u : Instant}

theorem Apart.later (apart : Apart interval s t) (order : t.toNanos ≤ u.toNanos) :
    Apart interval s u := by
  rcases apart with exact' | atEnd
  · exact .inl (Nat.le_trans exact' order)
  · subst atEnd
    exact .inr (to_nanos_injective (Nat.le_antisymm u.to_nanos_le_last order))

theorem Apart.earlier (order : s.toNanos ≤ t.toNanos) (apart : Apart interval t u) :
    Apart interval s u :=
  apart.imp_left fun exact' => Nat.le_trans (Nat.add_le_add_right order _) exact'

theorem apart_sleep (w : Sweeper) (now : Instant) :
    Apart w.interval now (now.timer w.pause) := by
  have pause : w.interval.toNanos ≤ w.pause.toNanos := by
    unfold Sweeper.pause
    split
    · next zero =>
      rw [(Duration.is_zero_iff_nanos _).mp zero]
      exact Nat.zero_le _
    · exact Nat.le_refl _
  have value := timer_rounds_up now w.pause
  have later := later_nanos now w.pause
  rcases Nat.le_total (now.toNanos + w.interval.toNanos) lastNanos with fits | beyond
  · left
    simp only [nanosPerMilli] at value
    omega
  · right
    apply to_nanos_injective
    change (now.timer w.pause).toNanos = lastNanos
    simp only [nanosPerMilli] at value
    omega

end Instant

namespace Simulation

def Pass.Swept (p : Pass) (removed : Nat) : Prop :=
  p.after.events = .swept removed :: p.before.events

def Pass.Sweeps (p : Pass) : Prop := ∃ removed, p.Swept removed

/-- A run that has found the cache `c` held leaves of its store what a sweep at that time leaves,
and all other caches as they were. -/
def Pass.Reclaims (p : Pass) (c removed : Nat) : Prop :=
  p.before.holdsCache c = true ∧ ∃ cache store after,
    p.before.caches[c]? = some cache ∧ cache.store? = some store ∧
      store.Reclaimed p.before.now removed after ∧
      p.after.caches = p.before.caches.set c (cache.withStore after)

namespace State

inductive Passed (s : State) (n c : Nat) (w : Sweeper) : State → Prop where
  | settles (going : w.stopped = false) (fresh : w.stage = .fresh) :
      Passed s n c w { s with
        sweepers := s.sweepers.set n (c, w.sleep s.now)
        events := .sweeping w.interval :: s.events }
  | sweeps {wake cache store} (going : w.stopped = false) (asleep : w.stage = .sleeping wake)
      (due : wake.toNanos ≤ s.now.toNanos) (held : s.holdsCache c = true)
      (there : s.caches[c]? = some cache) (stored : cache.store? = some store) :
      Passed s n c w { s with
        caches := s.caches.set c (cache.withStore (store.sweep s.now).2)
        sweepers := s.sweepers.set n (c, w.sleep s.now)
        events := .swept (store.sweep s.now).1 :: s.events }
  | ends {report} (quiet : report = [] ∨ report = [.storeGone])
      (why : w.stopped = true ∨ s.holdsCache c = false ∧
        ∃ wake, w.stage = .sleeping wake ∧ wake.toNanos ≤ s.now.toNanos) :
      Passed s n c w { s with
        sweepers := s.sweepers.set n (c, { w with stage := .done })
        events := report ++ s.events }
  | rests (still : w.stage = .done ∨
        ∃ wake, w.stage = .sleeping wake ∧ s.now.toNanos < wake.toNanos) :
      Passed s n c w s

variable {s s' : State} {n c : Nat} {w : Sweeper}

theorem set_same {α : Type} {l : List α} {i : Nat} {a : α} (there : l[i]? = some a) :
    l.set i a = l := by
  obtain ⟨inside, rfl⟩ := List.getElem?_eq_some_iff.mp there
  exact List.set_getElem_self inside

/-- The store that a sweeper finds is the cache's, if anyone holds the cache. -/
theorem work_sweeper_eq (there : s.sweepers[n]? = some (c, w)) {cache : Cache Caller}
    {store : Store} (here : s.caches[c]? = some cache) (stored : cache.store? = some store) :
    s.workSweeper n =
      let ran := w.run s.now (if s.holdsCache c then some store else none)
      let after : State :=
        { s with sweepers := s.sweepers.set n (c, ran.1), events := ran.2.2.reverse ++ s.events }
      ran.2.1.elim after fun store =>
        { after with caches := s.caches.set c (cache.withStore store) } := by
  have found : (s.caches[c]?).bind Cache.store? = some store := by
    rw [here]
    exact stored
  simp only [workSweeper, there, found, State.report]
  cases (w.run s.now (if s.holdsCache c then some store else none)).2.1 with
  | none => rfl
  | some store' => simp only [putStore, here, Option.elim_some]

/-- A run that does nothing to the store that it finds changes no cache. -/
theorem work_sweeper_of_quiet (there : s.sweepers[n]? = some (c, w))
    (embedded : s.kindAt? c = some .memory) {w' : Sweeper} {report : List Event}
    (quiet : ∀ found, w.run s.now found = (w', found, report)) :
    s.workSweeper n =
      { s with sweepers := s.sweepers.set n (c, w'), events := report.reverse ++ s.events } := by
  obtain ⟨cache, here, kind⟩ := Option.map_eq_some_iff.mp embedded
  cases cache with
  | networked link patience d => cases kind
  | embedded d =>
      rw [work_sweeper_eq there here rfl, quiet]
      cases s.holdsCache c with
      | false => rfl
      | true =>
          have same : s.caches.set c (.embedded d) = s.caches := set_same here
          change { s with
            caches := s.caches.set c (.embedded d), sweepers := _, events := _ } = _
          rw [same]

theorem work_sweeper_passed (there : s.sweepers[n]? = some (c, w))
    (embedded : s.kindAt? c = some .memory) : s.Passed n c w (s.workSweeper n) := by
  by_cases stopped : w.stopped = true
  · rw [work_sweeper_of_quiet there embedded (Sweeper.run_of_stopped stopped)]
    exact .ends (.inl rfl) (.inl stopped)
  · have going := Bool.eq_false_iff.mpr stopped
    cases stage : w.stage with
    | fresh =>
        rw [work_sweeper_of_quiet there embedded (Sweeper.run_of_fresh stopped stage)]
        exact .settles going stage
    | done =>
        rw [work_sweeper_of_quiet there embedded (Sweeper.run_of_done stopped stage),
          set_same there]
        exact .rests (.inl stage)
    | sleeping wake =>
        have reached := Instant.reached_iff_nanos wake s.now
        by_cases due : wake.reached s.now = true
        · obtain ⟨cache, here, kind⟩ := Option.map_eq_some_iff.mp embedded
          cases cache with
          | networked link patience d => cases kind
          | embedded d =>
              rw [work_sweeper_eq there here rfl]
              cases held : s.holdsCache c with
              | true =>
                  rw [if_pos rfl, Sweeper.run_of_due stopped stage due]
                  exact .sweeps going stage (reached.mp due) held here rfl
              | false =>
                  rw [if_neg Bool.false_ne_true, Sweeper.run_of_gone stopped stage due]
                  exact .ends (.inr rfl) (.inr ⟨held, wake, stage, reached.mp due⟩)
        · rw [work_sweeper_of_quiet there embedded (Sweeper.run_of_early stopped stage due),
            set_same there]
          exact .rests (.inr ⟨wake, stage, Nat.lt_of_not_le (mt reached.mpr due)⟩)

/-! ### What a run leaves alone -/

/-- But for the sweeper and the events, a run leaves everything as it was, and caches of their
kinds. -/
structure Spares (s : State) (n c : Nat) (w' : Sweeper) (s' : State) : Prop where
  now : s'.now = s.now
  kinds : ∀ i, s'.kindAt? i = s.kindAt? i
  tasks : s'.tasks = s.tasks
  queue : s'.queue = s.queue
  handles : s'.handles = s.handles
  registries : s'.registries = s.registries
  registryNames : s'.registryNames = s.registryNames
  sweepers : s'.sweepers = s.sweepers.set n (c, w')

/-- A run that finds the sweeper with a weak reference leaves it with one. -/
theorem passed_spares (passed : s.Passed n c w s') (there : s.sweepers[n]? = some (c, w))
    (weak : w.reference = .weak) :
    ∃ w', w'.interval = w.interval ∧ w'.stopped = w.stopped ∧ w'.reference = .weak ∧
      s.Spares n c w' s' := by
  cases passed with
  | settles going fresh =>
      exact ⟨w.sleep s.now, rfl, rfl, rfl, rfl, fun _ => rfl, rfl, rfl, rfl, rfl, rfl, rfl⟩
  | @sweeps _ cache store going asleep due held here stored =>
      have same : (cache.withStore (store.sweep s.now).2).kind = cache.kind := by cases cache <;> rfl
      have aside := set_cache_aside here same
      exact ⟨w.sleep s.now, rfl, rfl, rfl, rfl, aside.kinds, rfl, rfl, rfl, rfl, rfl, rfl⟩
  | ends quiet why =>
      exact ⟨{ w with stage := .done }, rfl, rfl, weak, rfl, fun _ => rfl, rfl, rfl, rfl, rfl, rfl,
        rfl⟩
  | rests still =>
      exact ⟨w, rfl, rfl, weak, rfl, fun _ => rfl, rfl, rfl, rfl, rfl, rfl, (set_same there).symm⟩

/-! ### References -/

def AllWeak (s : State) : Prop := ∀ entry ∈ s.sweepers, entry.2.reference = .weak

theorem Holds.of_weak (weak : s.AllWeak) (handles : s'.handles = s.handles)
    (registries : s'.registries = s.registries) (names : s'.registryNames = s.registryNames)
    (tasks : s'.tasks = s.tasks) {i : Nat} (holds : s.Holds i) : s'.Holds i := by
  have activities : s'.activities = s.activities := by simp only [activities, tasks]
  have registry : ∀ j, s'.holdsRegistry j = s.holdsRegistry j := by
    intro j
    simp only [holdsRegistry, activities, names]
  cases holds with
  | handle member same => exact .handle (handles ▸ member) same
  | registry there keeps named =>
      exact .registry (registries ▸ there) keeps ((registry _).trans named)
  | activity member mine => exact .activity (activities ▸ member) mine
  | sweeper member strong => cases (weak _ member).symm.trans strong

/-- Sweepers that have weak references only are not among those who hold a cache. -/
theorem holders_of_weak (weak : s.AllWeak) (weak' : s'.AllWeak) (handles : s'.handles = s.handles)
    (registries : s'.registries = s.registries) (names : s'.registryNames = s.registryNames)
    (tasks : s'.tasks = s.tasks) (i : Nat) : s'.holdsCache i = s.holdsCache i := by
  rw [Bool.eq_iff_iff, holds_cache_iff, holds_cache_iff]
  exact ⟨.of_weak weak' handles.symm registries.symm names.symm tasks.symm,
    .of_weak weak handles registries names tasks⟩

theorem weak_of_set (weak : s.AllWeak) (sweepers : s'.sweepers = s.sweepers.set n (c, w))
    (mine : w.reference = .weak) : s'.AllWeak := by
  intro entry member
  rw [sweepers] at member
  rcases List.mem_or_eq_of_mem_set member with before | rfl
  · exact weak entry before
  · exact mine

theorem Spares.holders {w' : Sweeper} (spares : s.Spares n c w' s') (weak : s.AllWeak)
    (mine : w'.reference = .weak) (i : Nat) : s'.holdsCache i = s.holdsCache i :=
  holders_of_weak weak (weak_of_set weak spares.sweepers mine) spares.handles spares.registries
    spares.registryNames spares.tasks i

end State

end Simulation

end ExpiringCache
