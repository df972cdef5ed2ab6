import ExpiringCache.Proofs.Sweeper.Passes
/-!
When a sweeper sweeps. It sleeps from its first run, and from every sweep, for its interval at
least; so its sweeps come an interval after its first run and after each other, however late it is
woken.
-/

namespace ExpiringCache.Simulation.State

variable {s s' : State} {n c : Nat} {w : Sweeper}

/-! ### What a run does to the caches -/

theorem quiet_of_report {report events : List Event} {removed : Nat}
    (quiet : report = [] ∨ report = [.storeGone]) :
    report ++ events ≠ .swept removed :: events := by
  rcases quiet with rfl | rfl
  · exact fun same => absurd (congrArg List.length same) (by simp)
  · intro same
    cases (List.cons.inj same).1

theorem asleep_of_swept (passed : s.Passed n c w s') {removed : Nat}
    (swept : s'.events = .swept removed :: s.events) :
    ∃ wake, w.stage = .sleeping wake ∧ wake.toNanos ≤ s.now.toNanos ∧
      s'.sweepers = s.sweepers.set n (c, w.sleep s.now) ∧ Pass.Reclaims ⟨n, s, s'⟩ c removed := by
  cases passed with
  | settles going fresh => cases (List.cons.inj swept).1
  | @sweeps wake cache store going asleep due held here stored =>
      cases (List.cons.inj swept).1
      exact ⟨wake, asleep, due, rfl, held, cache, store, _, here, stored,
        store.sweep_reclaimed s.now, rfl⟩
  | ends quiet why => exact absurd swept (quiet_of_report quiet)
  | rests still => exact absurd swept.symm (List.cons_ne_self _ _)

theorem caches_of_unswept (passed : s.Passed n c w s')
    (unswept : ¬ Pass.Sweeps ⟨n, s, s'⟩) : s'.caches = s.caches := by
  cases passed with
  | settles going fresh => rfl
  | sweeps going asleep due held here stored => exact absurd ⟨_, rfl⟩ unswept
  | ends quiet why => rfl
  | rests still => rfl

/-! ### The sweeper's record -/

structure Timely (h : List Pass) (n c : Nat) (w : Sweeper) : Prop where
  fresh : w.stage = .fresh ↔ ∀ p ∈ h, p.sweeper ≠ n
  passes : ∀ p ∈ h, p.sweeper = n → ∃ v, p.before.Passed n c v p.after
  armed : ∀ {wake}, w.stage = .sleeping wake → ∃ p ∈ h, p.sweeper = n ∧
    (h.find? (·.sweeper == n) = some p ∨ p.Sweeps) ∧ wake = p.before.now.timer w.pause
  rests : ∀ {wake}, w.stage = .sleeping wake → ∀ p ∈ h, p.sweeper = n →
    h.find? (·.sweeper == n) = some p ∨ p.Sweeps → Instant.Apart w.interval p.before.now wake
  first : ∀ {p}, h.find? (·.sweeper == n) = some p → ¬ p.Sweeps ∧
    ∀ q ∈ h, q.sweeper = n → q.Sweeps → Instant.Apart w.interval p.before.now q.before.now
  spaced : h.Pairwise fun p q => p.sweeper = n → q.sweeper = n → p.Sweeps → q.Sweeps →
    Instant.Apart w.interval p.before.now q.before.now

variable {h : List Pass}

theorem timely_of_same {w' : Sweeper} (timely : Timely h n c w) (stage : w'.stage = w.stage)
    (interval : w'.interval = w.interval) : Timely h n c w' where
  fresh := by
    rw [stage]
    exact timely.fresh
  passes := timely.passes
  armed := by
    rw [stage, Sweeper.pause, interval]
    exact timely.armed
  rests := by
    rw [stage, interval]
    exact timely.rests
  first := by
    rw [interval]
    exact timely.first
  spaced := by
    rw [interval]
    exact timely.spaced

theorem timely_of_none (fresh : w.stage = .fresh) (none : ∀ p ∈ h, p.sweeper ≠ n) :
    Timely h n c w where
  fresh := ⟨fun _ => none, fun _ => fresh⟩
  passes p member mine := absurd mine (none p member)
  armed asleep := by
    rw [fresh] at asleep
    cases asleep
  rests _ p member mine := absurd mine (none p member)
  first found := by
    have mine := List.find?_some found
    exact absurd (beq_iff_eq.mp mine) (none _ (List.mem_of_find?_eq_some found))
  spaced := by
    refine List.Pairwise.imp_of_mem ?_ (List.pairwise_of_forall fun _ _ => trivial)
    exact fun member _ _ mine => absurd mine (none _ member)

theorem timely_of_other (timely : Timely h n c w) {q : Pass} (other : q.sweeper ≠ n) :
    Timely (h ++ [q]) n c w := by
  have differs : (q.sweeper == n) = false := beq_eq_false_iff_ne.mpr other
  have found : (h ++ [q]).find? (·.sweeper == n) = h.find? (·.sweeper == n) := by
    rw [List.find?_append, List.find?_singleton, differs]
    exact Option.or_none
  have each : ∀ {P : Pass → Prop}, (∀ p ∈ h, p.sweeper = n → P p) →
      ∀ p ∈ h ++ [q], p.sweeper = n → P p := fun old =>
    List.forall_mem_append.mpr
      ⟨old, List.forall_mem_singleton.mpr fun mine => absurd mine other⟩
  constructor
  case fresh =>
    rw [timely.fresh]
    refine ⟨fun none p member mine => ?_, fun none p member => none p (List.mem_append_left _ member)⟩
    exact each (P := fun _ => False) none p member mine
  case passes => exact each timely.passes
  case armed =>
    intro wake asleep
    obtain ⟨p, member, mine, armed⟩ := timely.armed asleep
    rw [found]
    exact ⟨p, List.mem_append_left _ member, mine, armed⟩
  case rests =>
    intro wake asleep
    rw [found]
    exact each (timely.rests asleep)
  case first =>
    intro p there
    rw [found] at there
    obtain ⟨unswept, apart⟩ := timely.first there
    exact ⟨unswept, each apart⟩
  case spaced =>
    refine List.pairwise_append.mpr ⟨timely.spaced, List.pairwise_singleton _ _, ?_⟩
    intro p _ p' new _ mine
    rw [List.mem_singleton.mp new] at mine
    exact absurd mine other

/-- After a run a sweeper sleeps on, or anew, from its first run or from a sweep. -/
theorem stage_of_passed (passed : s.Passed n c w s') (there : s.sweepers[n]? = some (c, w))
    {w' : Sweeper} (after : s'.sweepers[n]? = some (c, w')) :
    w'.stage ≠ .fresh ∧ ∀ {wake}, w'.stage = .sleeping wake →
      (w.stage = .sleeping wake ∧ ¬ Pass.Sweeps ⟨n, s, s'⟩) ∨
        wake = s.now.timer w.pause ∧ (w.stage = .fresh ∨ Pass.Sweeps ⟨n, s, s'⟩) := by
  obtain ⟨inside, _⟩ := List.getElem?_eq_some_iff.mp there
  cases passed with
  | settles going fresh =>
      cases (List.getElem?_set_self inside).symm.trans after
      refine ⟨nofun, ?_⟩
      rintro _ ⟨rfl⟩
      exact .inr ⟨rfl, .inl fresh⟩
  | sweeps going asleep due held here stored =>
      cases (List.getElem?_set_self inside).symm.trans after
      refine ⟨nofun, ?_⟩
      rintro _ ⟨rfl⟩
      exact .inr ⟨rfl, .inr ⟨_, rfl⟩⟩
  | ends quiet why =>
      cases (List.getElem?_set_self inside).symm.trans after
      exact ⟨nofun, nofun⟩
  | rests still =>
      cases there.symm.trans after
      refine ⟨?_, ?_⟩
      · rcases still with done | ⟨wake, asleep, _⟩
        · rw [done]
          nofun
        · rw [asleep]
          nofun
      · exact fun asleep => .inl ⟨asleep, fun ⟨_, swept⟩ => absurd swept.symm (List.cons_ne_self _ _)⟩

structure RunsOn (h : List Pass) (n c : Nat) (w w' : Sweeper) (q : Pass) : Prop where
  timely : Timely h n c w
  mine : q.sweeper = n
  passed : q.before.Passed n c w q.after
  there : q.before.sweepers[n]? = some (c, w)
  after : q.after.sweepers[n]? = some (c, w')
  interval : w'.interval = w.interval
  past : ∀ p ∈ h, p.before.now.toNanos ≤ q.before.now.toNanos

namespace RunsOn

variable {w' : Sweeper} {q : Pass} (again : RunsOn h n c w w' q)
include again

theorem first_eq :
    (h ++ [q]).find? (·.sweeper == n) = (h.find? (·.sweeper == n)).or (some q) := by
  have own : (q.sweeper == n) = true := beq_iff_eq.mpr again.mine
  rw [List.find?_append, List.find?_singleton, own]
  rfl

theorem first_of_fresh (fresh : w.stage = .fresh) :
    (h ++ [q]).find? (·.sweeper == n) = some q := by
  have none : h.find? (·.sweeper == n) = none :=
    List.find?_eq_none.mpr fun p member => mt beq_iff_eq.mp (again.timely.fresh.mp fresh p member)
  rw [again.first_eq, none, Option.none_or]

theorem first_stays (begun : w.stage ≠ .fresh) :
    (h ++ [q]).find? (·.sweeper == n) = h.find? (·.sweeper == n) := by
  rw [again.first_eq]
  cases first : h.find? (·.sweeper == n) with
  | some p => rfl
  | none =>
      refine absurd (again.timely.fresh.mpr fun p member his => ?_) begun
      exact List.find?_eq_none.mp first p member (beq_iff_eq.mpr his)

theorem due (swept : q.Sweeps) :
    ∃ wake, w.stage = .sleeping wake ∧ wake.toNanos ≤ q.before.now.toNanos := by
  obtain ⟨removed, told⟩ := swept
  obtain ⟨wake, asleep, passed, _⟩ := asleep_of_swept again.passed told
  exact ⟨wake, asleep, passed⟩

theorem begun (swept : q.Sweeps) : w.stage ≠ .fresh := by
  obtain ⟨wake, asleep, _⟩ := again.due swept
  rw [asleep]
  nofun

theorem pause : w'.pause = w.pause := by rw [Sweeper.pause, Sweeper.pause, again.interval]

/-- A sweep comes an interval after the first run and after every sweep before it. -/
theorem apart (swept : q.Sweeps) {p : Pass} (member : p ∈ h) (his : p.sweeper = n)
    (why : h.find? (·.sweeper == n) = some p ∨ p.Sweeps) :
    Instant.Apart w.interval p.before.now q.before.now := by
  obtain ⟨wake, asleep, passed⟩ := again.due swept
  exact (again.timely.rests asleep p member his why).later passed

theorem armed {wake : Instant} (asleep : w'.stage = .sleeping wake) :
    ∃ p ∈ h ++ [q], p.sweeper = n ∧
      ((h ++ [q]).find? (·.sweeper == n) = some p ∨ p.Sweeps) ∧
        wake = p.before.now.timer w'.pause := by
  rw [again.pause]
  rcases (stage_of_passed again.passed again.there again.after).2 asleep with ⟨old, _⟩ | ⟨here, why⟩
  · obtain ⟨p, member, his, why, armed⟩ := again.timely.armed old
    rw [again.first_stays (by rw [old]; nofun)]
    exact ⟨p, List.mem_append_left _ member, his, why, armed⟩
  · exact ⟨q, List.mem_append_right _ List.mem_cons_self, again.mine,
      why.imp_left again.first_of_fresh, here⟩

theorem rests {wake : Instant} (asleep : w'.stage = .sleeping wake) :
    ∀ p ∈ h ++ [q], p.sweeper = n → (h ++ [q]).find? (·.sweeper == n) = some p ∨ p.Sweeps →
      Instant.Apart w'.interval p.before.now wake := by
  rw [again.interval]
  rcases (stage_of_passed again.passed again.there again.after).2 asleep with ⟨old, unswept⟩ | ⟨rfl, _⟩
  · rw [again.first_stays (by rw [old]; nofun)]
    refine List.forall_mem_append.mpr ⟨again.timely.rests old, List.forall_mem_singleton.mpr ?_⟩
    rintro his (first | swept)
    · exact again.timely.rests old q (List.mem_of_find?_eq_some first) his (.inl first)
    · exact absurd swept unswept
  · have now := Instant.apart_sleep w q.before.now
    refine List.forall_mem_append.mpr ⟨?_, List.forall_mem_singleton.mpr fun _ _ => now⟩
    exact fun p before _ _ => now.earlier (again.past p before)

theorem first {p : Pass} (there : (h ++ [q]).find? (·.sweeper == n) = some p) :
    ¬ p.Sweeps ∧ ∀ q' ∈ h ++ [q], q'.sweeper = n → q'.Sweeps →
      Instant.Apart w'.interval p.before.now q'.before.now := by
  rw [again.interval]
  by_cases fresh : w.stage = .fresh
  · rw [again.first_of_fresh fresh, Option.some.injEq] at there
    subst there
    refine ⟨fun swept => again.begun swept fresh, ?_⟩
    refine List.forall_mem_append.mpr ⟨?_, List.forall_mem_singleton.mpr ?_⟩
    · exact fun p before his => absurd his (again.timely.fresh.mp fresh p before)
    · exact fun _ swept => absurd fresh (again.begun swept)
  · rw [again.first_stays fresh] at there
    obtain ⟨unswept, apart⟩ := again.timely.first there
    have his := List.find?_some there
    refine ⟨unswept, List.forall_mem_append.mpr ⟨apart, List.forall_mem_singleton.mpr ?_⟩⟩
    exact fun _ swept => again.apart swept (List.mem_of_find?_eq_some there) (beq_iff_eq.mp his)
      (.inl there)

theorem spaced : (h ++ [q]).Pairwise fun p p' => p.sweeper = n → p'.sweeper = n → p.Sweeps →
    p'.Sweeps → Instant.Apart w'.interval p.before.now p'.before.now := by
  rw [again.interval]
  refine List.pairwise_append.mpr ⟨again.timely.spaced, List.pairwise_singleton _ _, ?_⟩
  intro p before
  refine List.forall_mem_singleton.mpr ?_
  exact fun his _ swept swept' => again.apart swept' before his (.inr swept)

end RunsOn

theorem timely_of_own {w' : Sweeper} {q : Pass} (again : RunsOn h n c w w' q) :
    Timely (h ++ [q]) n c w' where
  fresh := by
    refine ⟨fun fresh => ?_, fun none => absurd again.mine (none q ?_)⟩
    · exact absurd fresh (stage_of_passed again.passed again.there again.after).1
    · exact List.mem_append_right _ List.mem_cons_self
  passes := List.forall_mem_append.mpr
    ⟨again.timely.passes, List.forall_mem_singleton.mpr fun _ => ⟨w, again.passed⟩⟩
  armed := again.armed
  rests := again.rests
  first := again.first
  spaced := again.spaced

end ExpiringCache.Simulation.State
