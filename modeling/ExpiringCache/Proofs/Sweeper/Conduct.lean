import ExpiringCache.Proofs.Sweeper.Spacing
/-!
How sweepers behave in a course of a program. A sweep removes what is over by then and nothing else,
sweeps keep the sweeper's interval from its first run and from each other, and a sweeper whose cache
nobody holds any more sweeps no more and is done when it next wakes up.
-/

namespace ExpiringCache.Simulation.State

/-! ### Sweepers in a course -/

variable {h : List Pass} {s s' : State} {n c : Nat} {w : Sweeper}

/-- What holds in every course: sweepers sweep embedded caches, none keeps a cache alive when it has
run, and each keeps to its times. -/
structure Orderly (h : List Pass) (s : State) : Prop where
  settled : s.Settled
  weak : s.AllWeak
  released : ∀ p ∈ h, ∀ i, p.after.holdsCache i = p.before.holdsCache i
  embedded : ∀ {n c : Nat} {w : Sweeper}, s.sweepers[n]? = some (c, w) → s.kindAt? c = some .memory
  known : ∀ p ∈ h, p.sweeper < s.sweepers.length
  past : ∀ p ∈ h, p.before.now.toNanos ≤ s.now.toNanos
  timely : ∀ {n c : Nat} {w : Sweeper}, s.sweepers[n]? = some (c, w) → Timely h n c w

theorem orderly_initial (name : String) (scripts : List ServerScript) :
    Orderly [] (State.initial name scripts) where
  settled := List.forall_mem_nil _
  weak := List.forall_mem_nil _
  released := List.forall_mem_nil _
  embedded there := by cases there
  known := List.forall_mem_nil _
  past := List.forall_mem_nil _
  timely there := by cases there

theorem orderly_turn (orderly : Orderly h s) (follows : s.Follows s') : Orderly h s' := by
  have known : ∀ p ∈ h, p.sweeper < s'.sweepers.length := by
    intro p member
    obtain ⟨_, kept⟩ :=
      follows.sweepers (List.getElem?_eq_getElem (orderly.known p member))
    exact (List.getElem?_eq_some_iff.mp kept).1
  refine ⟨follows.settled, ?_, orderly.released, ?_, known,
    fun p member => Nat.le_trans (orderly.past p member) follows.clock, ?_⟩
  · rintro ⟨c, w⟩ member
    obtain ⟨n, there⟩ := List.mem_iff_getElem?.mp member
    rcases follows.sweeper_cases there with ⟨v, before, _, _, same⟩ | ⟨_, _, weak, _⟩
    · exact same.trans (orderly.weak _ (List.mem_of_getElem? before))
    · exact weak
  · intro n c w there
    rcases follows.sweeper_cases there with ⟨v, before, _⟩ | ⟨_, _, _, embedded⟩
    · exact follows.kinds (orderly.embedded before)
    · exact embedded
  · intro n c w there
    rcases follows.sweeper_cases there with ⟨v, before, stage, interval, _⟩ | ⟨outside, fresh, _⟩
    · exact timely_of_same (orderly.timely before) stage interval
    · refine timely_of_none fresh ?_
      rintro p member rfl
      exact Nat.not_le_of_lt (orderly.known p member) outside

theorem pass_of_orderly (orderly : Orderly h s) (there : s.sweepers[n]? = some (c, w)) :
    (s.called n).Passed n c w (s.pass n).after ∧
      ∃ w', w'.interval = w.interval ∧ w'.reference = .weak ∧
        (s.called n).Spares n c w' (s.pass n).after := by
  have passed : (s.called n).Passed n c w (s.pass n).after :=
    work_sweeper_passed there (orderly.embedded there)
  have weak := orderly.weak _ (List.mem_of_getElem? there)
  obtain ⟨w', interval, _, weak', spares⟩ := passed_spares passed there weak
  exact ⟨passed, w', interval, weak', spares⟩

theorem holders_of_pass (orderly : Orderly h s) (inside : n < s.sweepers.length) (i : Nat) :
    (s.pass n).after.holdsCache i = s.holdsCache i := by
  obtain ⟨_, _, _, weak, spares⟩ := pass_of_orderly orderly (List.getElem?_eq_getElem inside)
  exact spares.holders orderly.weak weak i

theorem orderly_pass (orderly : Orderly h s) (inside : n < s.sweepers.length) :
    Orderly (h ++ [s.pass n]) (s.pass n).after := by
  have there := List.getElem?_eq_getElem inside
  obtain ⟨passed, w', interval, weak, spares⟩ := pass_of_orderly orderly there
  have sweepers : (s.pass n).after.sweepers = s.sweepers.set n (s.sweepers[n].1, w') :=
    spares.sweepers
  have now : (s.pass n).after.now = s.now := spares.now
  have mine : (s.pass n).after.sweepers[n]? = some (s.sweepers[n].1, w') := by
    rw [sweepers, List.getElem?_set_self inside]
  have others : ∀ {m c v}, m ≠ n → (s.pass n).after.sweepers[m]? = some (c, v) →
      s.sweepers[m]? = some (c, v) := by
    intro m c v other after
    rw [sweepers, List.getElem?_set_ne (Ne.symm other)] at after
    exact after
  constructor
  case settled =>
    rw [Settled, spares.tasks]
    exact orderly.settled
  case weak => exact weak_of_set (s := s.called n) orderly.weak spares.sweepers weak
  case released =>
    exact List.forall_mem_append.mpr ⟨orderly.released,
      List.forall_mem_singleton.mpr (holders_of_pass orderly inside)⟩
  case embedded =>
    intro m c v after
    have kind : ∀ {c}, s.kindAt? c = some .memory →
        (s.pass n).after.kindAt? c = some .memory := (spares.kinds _).trans
    by_cases same : m = n
    · subst same
      cases mine.symm.trans after
      exact kind (orderly.embedded there)
    · exact kind (orderly.embedded (others same after))
  case known =>
    rw [sweepers, List.length_set]
    exact List.forall_mem_append.mpr ⟨orderly.known, List.forall_mem_singleton.mpr inside⟩
  case past =>
    rw [now]
    exact List.forall_mem_append.mpr
      ⟨orderly.past, List.forall_mem_singleton.mpr (Nat.le_refl _)⟩
  case timely =>
    intro m c v after
    by_cases same : m = n
    · subst same
      cases mine.symm.trans after
      exact timely_of_own ⟨orderly.timely there, rfl, passed, there, mine, interval, orderly.past⟩
    · exact timely_of_other (orderly.timely (others same after)) (Ne.symm same)

/-- What holds at a state and lasts, whatever happens and whichever sweeper runs, holds after every
course from there. -/
theorem course_induction {P : List Pass → State → Prop} (orderly : Orderly h s) (begins : P [] s)
    (turns : ∀ {h k s s'}, Orderly h s → s.Follows s' → P k s → P k s')
    (passes : ∀ {h k s n}, Orderly h s → n < s.sweepers.length → P k s →
      P (k ++ [s.pass n]) (s.pass n).after)
    {k : List Pass} (course : Course s k s') : Orderly (h ++ k) s' ∧ P k s' := by
  induction course with
  | here =>
      rw [List.append_nil]
      exact ⟨orderly, begins⟩
  | turn _ turn ih =>
      have follows := follows_turn ih.1.settled turn
      exact ⟨orderly_turn ih.1 follows, turns ih.1 follows ih.2⟩
  | sweeper _ _ there ih =>
      rw [← List.append_assoc]
      exact ⟨orderly_pass ih.1 there, passes ih.1 there ih.2⟩

theorem orderly_of_course {name : String} {scripts : List ServerScript}
    (course : Course (State.initial name scripts) h s) : Orderly h s :=
  (course_induction (P := fun _ _ => True) (orderly_initial name scripts) trivial
    (fun _ _ _ => trivial) (fun _ _ _ => trivial) course).1

/-! ### Caches that nobody holds -/

/-- Nobody holds the cache that the sweeper is to sweep, and the sweeper is at `stage`. -/
def Bereft (n c : Nat) (stage : SweeperStage) (s : State) : Prop :=
  s.holdsCache c = false ∧ ∃ w, s.sweepers[n]? = some (c, w) ∧ w.stage = stage

theorem bereft_turn {stage : SweeperStage} (orderly : Orderly h s) (follows : s.Follows s')
    (bereft : Bereft n c stage s) : Bereft n c stage s' := by
  obtain ⟨unheld, w, there, at'⟩ := bereft
  obtain ⟨stopped, kept⟩ := follows.sweepers there
  exact ⟨follows.stays_unheld (inside_of_kind (orderly.embedded there)) unheld,
    { w with stopped }, kept, at'⟩

theorem bereft_pass_other {stage : SweeperStage} {m : Nat} (orderly : Orderly h s)
    (inside : m < s.sweepers.length) (other : m ≠ n) (bereft : Bereft n c stage s) :
    Bereft n c stage (s.pass m).after := by
  obtain ⟨unheld, w, there, at'⟩ := bereft
  obtain ⟨_, _, _, _, spares⟩ := pass_of_orderly orderly (List.getElem?_eq_getElem inside)
  refine ⟨(holders_of_pass orderly inside c).trans unheld, w, ?_, at'⟩
  rw [spares.sweepers, List.getElem?_set_ne other]
  exact there

/-- A run does not sweep the store of a cache that nobody holds, and changes no cache. A sweeper
that is asleep sleeps on or is done, and is done if its time has come. -/
theorem bereft_pass {stage : SweeperStage} (orderly : Orderly h s) (bereft : Bereft n c stage s) :
    (¬ (s.pass n).Sweeps ∧ (s.pass n).after.caches = (s.pass n).before.caches) ∧
      (stage = .fresh ∨ Bereft n c .done (s.pass n).after ∨
        Bereft n c stage (s.pass n).after ∧
          ∀ wake, stage = .sleeping wake → s.now.toNanos < wake.toNanos) := by
  obtain ⟨unheld, w, there, rfl⟩ := bereft
  obtain ⟨inside, _⟩ := List.getElem?_eq_some_iff.mp there
  obtain ⟨passed, _⟩ := pass_of_orderly orderly there
  have stays : (s.pass n).after.holdsCache c = false :=
    (holders_of_pass orderly inside c).trans unheld
  have unswept : ¬ (s.pass n).Sweeps := by
    rintro ⟨removed, swept⟩
    obtain ⟨_, _, _, _, held, _⟩ := asleep_of_swept passed swept
    cases unheld.symm.trans held
  refine ⟨⟨unswept, caches_of_unswept passed unswept⟩, ?_⟩
  generalize after : (s.pass n).after = s' at passed stays
  cases passed with
  | settles going fresh => exact .inl fresh
  | sweeps going asleep due held here stored => cases unheld.symm.trans held
  | ends quiet why =>
      exact .inr (.inl ⟨stays, { w with stage := .done }, List.getElem?_set_self inside, rfl⟩)
  | rests still =>
      refine .inr (.inr ⟨⟨stays, w, there, rfl⟩, ?_⟩)
      intro wake asleep
      rcases still with done | ⟨wake', asleep', early⟩
      · cases asleep.symm.trans done
      · cases asleep.symm.trans asleep'
        exact early

/-- Once nobody holds the cache, nobody ever will, and the sweeper never sweeps. -/
theorem unheld_for_good (orderly : Orderly h s) (there : s.sweepers[n]? = some (c, w))
    (unheld : s.holdsCache c = false) {k : List Pass} (course : Course s k s') :
    s'.holdsCache c = false ∧
      ∀ p ∈ k, p.sweeper = n → ¬ p.Sweeps ∧ p.after.caches = p.before.caches := by
  have gone := course_induction
    (P := fun k s => (∃ stage, Bereft n c stage s) ∧
      ∀ p ∈ k, p.sweeper = n → ¬ p.Sweeps ∧ p.after.caches = p.before.caches)
    orderly ⟨⟨w.stage, unheld, w, there, rfl⟩, List.forall_mem_nil _⟩ ?_ ?_ course
  · obtain ⟨⟨_, stays, _⟩, none⟩ := gone.2
    exact ⟨stays, none⟩
  · rintro h k s s' orderly follows ⟨⟨stage, bereft⟩, none⟩
    exact ⟨⟨stage, bereft_turn orderly follows bereft⟩, none⟩
  · rintro h k s m orderly inside ⟨⟨stage, bereft⟩, none⟩
    by_cases mine : m = n
    · subst mine
      obtain ⟨quiet, _⟩ := bereft_pass orderly bereft
      obtain ⟨unheld, v, there, _⟩ := bereft
      obtain ⟨_, w', _, _, spares⟩ := pass_of_orderly orderly there
      refine ⟨⟨w'.stage, (holders_of_pass orderly inside c).trans unheld, w', ?_, rfl⟩, ?_⟩
      · rw [spares.sweepers]
        exact List.getElem?_set_self inside
      · exact List.forall_mem_append.mpr ⟨none, List.forall_mem_singleton.mpr fun _ => quiet⟩
    · exact ⟨⟨stage, bereft_pass_other orderly inside mine bereft⟩, List.forall_mem_append.mpr
        ⟨none, List.forall_mem_singleton.mpr fun his => absurd his mine⟩⟩

theorem done_pass (orderly : Orderly h s) (bereft : Bereft n c .done s) :
    Bereft n c .done (s.pass n).after := by
  rcases (bereft_pass orderly bereft).2 with fresh | done | ⟨stays, _⟩
  · cases fresh
  · exact done
  · exact stays

/-- A sweeper of a cache that nobody holds, asleep until `wake` or done. -/
theorem asleep_until (orderly : Orderly h s) (there : s.sweepers[n]? = some (c, w))
    (unheld : s.holdsCache c = false) {wake : Instant} (asleep : w.stage = .sleeping wake)
    {k : List Pass} (course : Course s k s') :
    Orderly (h ++ k) s' ∧ (Bereft n c (.sleeping wake) s' ∨ Bereft n c .done s') := by
  refine course_induction (P := fun _ s => Bereft n c (.sleeping wake) s ∨ Bereft n c .done s)
    orderly (.inl ⟨unheld, w, there, asleep⟩) ?_ ?_ course
  · exact fun orderly follows => Or.imp (bereft_turn orderly follows) (bereft_turn orderly follows)
  · rintro h k s m orderly inside bereft
    by_cases mine : m = n
    · subst mine
      rcases bereft with sleeping | done
      · rcases (bereft_pass orderly sleeping).2 with fresh | done | ⟨stays, _⟩
        · cases fresh
        · exact .inr done
        · exact .inl stays
      · exact .inr (done_pass orderly done)
    · exact bereft.imp (bereft_pass_other orderly inside mine)
        (bereft_pass_other orderly inside mine)

/-- The sweeper of a cache that nobody holds is done, or its time has come and it stands in the
queue. -/
def Departs (n c : Nat) (wake : Instant) (s : State) : Prop :=
  Bereft n c .done s ∨
    Bereft n c (.sleeping wake) s ∧ wake.toNanos ≤ s.now.toNanos ∧ .sweeper n ∈ s.queue

theorem departs_turn {wake : Instant} (orderly : Orderly h s) (follows : s.Follows s')
    (departs : Departs n c wake s) : Departs n c wake s' := by
  rcases departs with done | ⟨sleeping, due, woken⟩
  · exact .inl (bereft_turn orderly follows done)
  · obtain ⟨w, there, _⟩ := sleeping.2
    obtain ⟨inside, _⟩ := List.getElem?_eq_some_iff.mp there
    exact .inr ⟨bereft_turn orderly follows sleeping, Nat.le_trans due follows.clock,
      follows.roused inside woken⟩

theorem departs_pass {wake : Instant} {m : Nat} (orderly : Orderly h s)
    (inside : m < s.sweepers.length) (departs : Departs n c wake s) :
    Departs n c wake (s.pass m).after := by
  by_cases mine : m = n
  · subst mine
    left
    rcases departs with done | ⟨sleeping, due, _⟩
    · exact done_pass orderly done
    · rcases (bereft_pass orderly sleeping).2 with fresh | done | ⟨_, early⟩
      · cases fresh
      · exact done
      · exact absurd due (Nat.not_le_of_lt (early wake rfl))
  · rcases departs with done | ⟨sleeping, due, woken⟩
    · exact .inl (bereft_pass_other orderly inside mine done)
    · obtain ⟨_, _, _, _, spares⟩ := pass_of_orderly orderly (List.getElem?_eq_getElem inside)
      refine .inr ⟨bereft_pass_other orderly inside mine sleeping, ?_, ?_⟩
      · rw [spares.now]
        exact due
      · rw [spares.queue]
        exact (List.mem_erase_of_ne fun same => mine (Item.sweeper.inj same).symm).mpr woken

theorem timer_of_asleep (there : s.sweepers[n]? = some (c, w)) {wake : Instant}
    (asleep : w.stage = .sleeping wake) : (wake, .sweeper n) ∈ s.timers := by
  have wakes : w.wake? = some wake := by rw [Sweeper.wake?, asleep]
  refine List.mem_append_right _ (List.mem_filterMap.mpr ⟨((c, w), n), ?_, ?_⟩)
  · exact List.mk_mem_zipIdx_iff_getElem?.mpr there
  · simp only [wakes, Option.map_some]

/-- When the clock strikes the time of a sweeper whose cache nobody holds, it is woken, and is done
when it has run. -/
theorem done_after_wake (orderly : Orderly h s) (there : s.sweepers[n]? = some (c, w))
    (unheld : s.holdsCache c = false) {wake t : Instant} (asleep : w.stage = .sleeping wake)
    {k : List Pass} (course : Course s k s') (quiet : s'.queue = [])
    (timer : s'.nextTimer = some t) (struck : wake.toNanos ≤ (s'.strike t).now.toNanos)
    {k' : List Pass} {s'' : State} (onward : Course (s'.strike t) k' s'')
    (ran : .sweeper n ∉ s''.queue) : ∃ w', s''.sweepers[n]? = some (c, w') ∧ w'.stage = .done := by
  obtain ⟨orderly', bereft⟩ := asleep_until orderly there unheld asleep course
  have follows := follows_turn orderly'.settled (.strikes quiet timer)
  have departs : Departs n c wake (s'.strike t) := by
    rcases bereft with sleeping | done
    · obtain ⟨v, there', asleep'⟩ := sleeping.2
      refine .inr ⟨bereft_turn orderly' follows sleeping, struck, ?_⟩
      obtain ⟨queue, strikes, fired, _⟩ := s'.strike_eq t
      rw [strikes] at struck ⊢
      exact fired _ (timer_of_asleep there' asleep')
        ((Instant.reached_iff_nanos wake _).mpr struck)
    · exact .inl (bereft_turn orderly' follows done)
  have last := course_induction (P := fun _ s => Departs n c wake s)
    (orderly_turn orderly' follows) departs departs_turn departs_pass onward
  rcases last.2 with ⟨_, done⟩ | ⟨_, _, woken⟩
  · exact done
  · exact absurd woken ran

/-! ### Conduct -/

/-- How the sweeper `n` of the cache `c` has behaved in a course with the runs `h`, and how it will
behave from the state `s` on. A run that sweeps takes out of a held store what is over and nothing
else; sweeps come an interval after the first run and after each other, however late. The sweeper
holds its store no longer than a run lasts: once nobody else does, nothing is swept any more, and
the sweeper is done when its time has come. -/
structure Conduct (h : List Pass) (s : State) (n c : Nat) (w : Sweeper) : Prop where
  reclaims : ∀ p ∈ h, p.sweeper = n → ∀ removed, p.Swept removed → p.Reclaims c removed
  leaves : ∀ p ∈ h, p.sweeper = n → ¬ p.Sweeps → p.after.caches = p.before.caches
  first : ∀ {p}, h.find? (·.sweeper == n) = some p → ¬ p.Sweeps ∧
    ∀ q ∈ h, q.sweeper = n → q.Sweeps → Instant.Apart w.interval p.before.now q.before.now
  spaced : h.Pairwise fun p q => p.sweeper = n → q.sweeper = n → p.Sweeps → q.Sweeps →
    Instant.Apart w.interval p.before.now q.before.now
  armed : ∀ {wake}, w.stage = .sleeping wake → (wake, .sweeper n) ∈ s.timers ∧
    ∃ p ∈ h, p.sweeper = n ∧ (h.find? (·.sweeper == n) = some p ∨ p.Sweeps) ∧
      wake = p.before.now.timer w.pause
  overdue : ∀ {wake}, w.stage = .sleeping wake → wake.toNanos ≤ s.now.toNanos →
    w.stopped = false → s.holdsCache c = true → (s.pass n).Sweeps
  gone : s.holdsCache c = false → ∀ {k s'}, Course s k s' → s'.holdsCache c = false ∧
    ∀ p ∈ k, p.sweeper = n → ¬ p.Sweeps ∧ p.after.caches = p.before.caches
  finishes : s.holdsCache c = false → ∀ {wake}, w.stage = .sleeping wake →
    ∀ {k s' t}, Course s k s' → s'.queue = [] → s'.nextTimer = some t →
      wake.toNanos ≤ (s'.strike t).now.toNanos →
      ∀ {k' s''}, Course (s'.strike t) k' s'' → .sweeper n ∉ s''.queue →
        ∃ w', s''.sweepers[n]? = some (c, w') ∧ w'.stage = .done
  weak : w.reference = .weak ∧
    ∀ sweepers queue, (∀ entry ∈ sweepers, entry.2.reference = .weak) →
      ∀ i, ({ s with sweepers, queue } : State).holdsCache i = s.holdsCache i
  releases : ∀ p ∈ h, p.sweeper = n → ∀ i, p.after.holdsCache i = p.before.holdsCache i

theorem sweeps_when_due (orderly : Orderly h s) (there : s.sweepers[n]? = some (c, w))
    {wake : Instant} (asleep : w.stage = .sleeping wake) (due : wake.toNanos ≤ s.now.toNanos)
    (going : w.stopped = false) (held : s.holdsCache c = true) : (s.pass n).Sweeps := by
  obtain ⟨passed, _⟩ := pass_of_orderly orderly there
  change ∃ removed, (s.pass n).after.events = .swept removed :: s.events
  generalize (s.pass n).after = s' at passed
  cases passed with
  | settles going fresh => cases asleep.symm.trans fresh
  | sweeps going asleep due held here stored => exact ⟨_, rfl⟩
  | ends quiet why =>
      rcases why with stopped | ⟨unheld, _⟩
      · cases going.symm.trans stopped
      · cases held.symm.trans unheld
  | rests still =>
      rcases still with done | ⟨wake', asleep', early⟩
      · cases asleep.symm.trans done
      · cases asleep.symm.trans asleep'
        exact absurd due (Nat.not_le_of_lt early)

/-- Whatever a program does, each of its sweepers only reclaims, keeps its interval, and stops with
its store. -/
theorem sweepers_reclaim_and_stop {name : String} {scripts : List ServerScript} {h : List Pass}
    {s : State} (course : Course (State.initial name scripts) h s) {n c : Nat} {w : Sweeper}
    (there : s.sweepers[n]? = some (c, w)) : Conduct h s n c w := by
  have orderly := orderly_of_course course
  have timely := orderly.timely there
  refine ⟨?_, ?_, timely.first, timely.spaced, ?_, ?_, ?_, ?_, ⟨?_, ?_⟩, ?_⟩
  · intro p member mine removed swept
    obtain ⟨v, passed⟩ := timely.passes p member mine
    obtain ⟨_, _, _, _, reclaims⟩ := asleep_of_swept passed swept
    exact reclaims
  · intro p member mine unswept
    obtain ⟨v, passed⟩ := timely.passes p member mine
    exact caches_of_unswept passed unswept
  · exact fun asleep => ⟨timer_of_asleep there asleep, timely.armed asleep⟩
  · exact fun asleep due going held => sweeps_when_due orderly there asleep due going held
  · exact fun unheld _ _ onward => unheld_for_good orderly there unheld onward
  · exact fun unheld _ asleep _ _ _ onward quiet timer struck _ _ further ran =>
      done_after_wake orderly there unheld asleep onward quiet timer struck further ran
  · exact orderly.weak _ (List.mem_of_getElem? there)
  · intro sweepers queue weak i
    have others : ({ s with sweepers, queue } : State).AllWeak := weak
    exact holders_of_weak orderly.weak others rfl rfl rfl rfl i
  · exact fun p member _ => orderly.released p member

def stepped (s : State) (step : Step) : State :=
  (((s.solo step).moveTask s.next).2.moveTask s.next).2

theorem course_stepped {start s : State} {h : List Pass} (course : Course start h s) (step : Step) :
    Course start h (s.stepped step) :=
  ((course.turn (.begins step)).turn (.moves _)).turn (.moves _)

def sweeperStarted : State :=
  (State.initial "near" []).stepped
    (.mk "near" false (.startSweeper "sweeper" (.ofMillis 100)))

/-- It has run once, and is woken when a key has been over for two hundred milliseconds. -/
def sweeperLate : State :=
  ((sweeperStarted.pass 0).after.stepped
    (.mk "near" false (.operate (.set "key" [] (.ofMillis 50))))).stepped
      (.mk "near" false (.advance (.ofMillis 250)))

def sweeperStruck : State := sweeperLate.strike (Instant.start.later (.ofMillis 100))

def cacheDiscarded : State := (sweeperStruck.pass 0).after.stepped (.mk "near" false .discard)

def sweeperAwake : State := cacheDiscarded.strike (Instant.start.later (.ofMillis 350))

theorem course_to_struck :
    Course (State.initial "near" []) [sweeperStarted.pass 0] sweeperStruck := by
  have begun : Course (State.initial "near" []) [sweeperStarted.pass 0]
      (sweeperStarted.pass 0).after :=
    (course_stepped .here _).sweeper (by decide +kernel) (by decide +kernel)
  have quiet : sweeperLate.queue = [] := by decide +kernel
  have timer : sweeperLate.nextTimer = some (Instant.start.later (.ofMillis 100)) := by
    decide +kernel
  exact (course_stepped (course_stepped begun _) _).turn (.strikes quiet timer)

theorem late_sweeper_sweeps : (sweeperStruck.pass 0).Sweeps := by
  have known : (sweeperStruck.sweepers[0]?.map fun r => (r.1, r.2.stage, r.2.stopped)) =
      some (0, .sleeping (Instant.start.later (.ofMillis 100)), false) := by decide +kernel
  obtain ⟨⟨_, w⟩, there, same⟩ := Option.map_eq_some_iff.mp known
  obtain ⟨rfl, asleep, going⟩ : _ ∧ _ ∧ _ := by simpa using same
  exact sweeps_when_due (orderly_of_course course_to_struck) there asleep (by decide +kernel) going
    (by decide +kernel)

/-- The late sweeper sweeps once; when its cache has been discarded it sleeps for the last time, and
is done when it has woken up. -/
theorem discarded_cache_is_swept_no_more :
    ∃ h w, Course (State.initial "near" []) h cacheDiscarded ∧
      h.map (·.before.now.elapsed.wholeMillis) = [0, 250] ∧ (∃ p ∈ h, p.sweeper = 0 ∧ p.Sweeps) ∧
      cacheDiscarded.sweepers[0]? = some (0, w) ∧ cacheDiscarded.holdsCache 0 = false ∧
      w.stage = .sleeping (Instant.start.later (.ofMillis 350)) ∧
      Conduct h cacheDiscarded 0 0 w ∧
      ∃ k s w', Course cacheDiscarded k s ∧ s.sweepers[0]? = some (0, w') ∧ w'.stage = .done := by
  have course : Course (State.initial "near" []) [sweeperStarted.pass 0, sweeperStruck.pass 0]
      cacheDiscarded :=
    course_stepped (course_to_struck.sweeper (by decide +kernel) (by decide +kernel)) _
  -- Sweepers cannot be compared as wholes, so this one is told by what matters of it.
  have known : (cacheDiscarded.sweepers[0]?.map fun r => (r.1, r.2.stage)) =
      some (0, .sleeping (Instant.start.later (.ofMillis 350))) := by decide +kernel
  obtain ⟨⟨_, w⟩, there, same⟩ := Option.map_eq_some_iff.mp known
  obtain ⟨rfl, asleep⟩ := Prod.mk.inj same
  have conduct : Conduct _ cacheDiscarded 0 0 w := sweepers_reclaim_and_stop course there
  have unheld : cacheDiscarded.holdsCache 0 = false := by decide +kernel
  have quiet : cacheDiscarded.queue = [] := by decide +kernel
  have timer : cacheDiscarded.nextTimer = some (Instant.start.later (.ofMillis 350)) := by
    decide +kernel
  have woken : .sweeper 0 ∈ sweeperAwake.queue := by decide +kernel
  have inside : 0 < sweeperAwake.sweepers.length := by decide +kernel
  have lastRun : Course sweeperAwake [sweeperAwake.pass 0] (sweeperAwake.pass 0).after :=
    Course.here.sweeper woken inside
  have onward : Course cacheDiscarded [sweeperAwake.pass 0] (sweeperAwake.pass 0).after :=
    (Course.here.turn (.strikes quiet timer)).sweeper woken inside
  obtain ⟨w', atLast, done⟩ := conduct.finishes unheld asleep .here quiet timer
    (by decide +kernel) lastRun (by decide +kernel)
  refine ⟨_, w, course, by decide +kernel, ?_, there, unheld, asleep, conduct, _, _, w', onward,
    atLast, done⟩
  exact ⟨sweeperStruck.pass 0, List.mem_cons_of_mem _ List.mem_cons_self, rfl, late_sweeper_sweeps⟩

end ExpiringCache.Simulation.State
