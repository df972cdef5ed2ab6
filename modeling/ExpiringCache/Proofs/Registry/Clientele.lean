import ExpiringCache.Proofs.Line
import ExpiringCache.Proofs.Registry.Construction
import ExpiringCache.Simulation.Run
/-!
A registry among its callers. Any number of calls for the default cache are made, go on and are
dropped, in whatever order; the auxiliary cache is asked for in between, and the rest of the program
does what it likes, as long as it keeps its hands off the registry. Callers take turns at making the
default cache, and whoever makes it is the first of those that have asked.
-/

namespace ExpiringCache

/-! ### The line of builders -/

namespace Registry

variable {ι : Type} [DecidableEq ι] {r : Registry ι} {id : ι}

theorem leave_of_join (outside : id ∉ r.builders.callers) (idle : r.building ≠ some id) :
    ({ r with builders := r.builders.join id } : Registry ι).leave id = r := by
  simp only [leave, Line.leave_of_join outside, if_neg idle]

theorem turn_of_ready {c : Nat} (ready : r.primary = some c) (id : ι) :
    r.turn id = (.ready c, r.leave id) := by
  simp only [turn, ready]

theorem turn_of_first (unmade : r.primary = none) (first : r.builders.first? = some id) :
    r.turn id = (.build, { r with building := some id }) := by
  have turn : r.builders.isFirst id = true := beq_iff_eq.mpr first
  simp only [Registry.turn, unmade, turn, if_true]

theorem turn_of_other (unmade : r.primary = none) (later : r.builders.first? ≠ some id) :
    r.turn id = (.waiting, r) := by
  have turn : r.builders.isFirst id = false := beq_eq_false_iff_ne.mpr later
  simp only [Registry.turn, unmade, turn, Bool.false_eq_true, if_false]

theorem ask_of_ready {c : Nat} (ready : r.primary = some c) (id : ι) :
    r.ask id = (.ready c, r) := by
  simp only [ask, ready]

theorem ask_of_unmade (unmade : r.primary = none) (id : ι) :
    r.ask id = ({ r with builders := r.builders.join id } : Registry ι).turn id := by
  unfold ask
  split
  · next c ready => cases unmade.symm.trans ready
  · rfl

end Registry

namespace Simulation

/-! ### Calls -/

/-- A registry's calls for the default cache, and the caches that have been given away as the
default and as the auxiliary one. -/
structure Clientele where
  state : State
  pending : List Caller
  keeping : Caller → Keeping
  activity : Caller → Activity
  given : List Nat
  lent : List Nat

inductive Visit where
  | ask (task : Nat) (keeping : Keeping)
  | goOn (id : Caller)
  | drop (id : Caller)
  | auxiliary (name : String) (withTasks : Bool)
  | elsewhere (s : State)

/-- Caches stay, each of its kind, and numbers that were new are new or used up. -/
structure Later (s s' : State) : Prop where
  kinds : ∀ {i kind}, s.kindAt? i = some kind → s'.kindAt? i = some kind
  next : s.next ≤ s'.next

/-- The rest of the program does nothing to a registry, and takes no cache away. -/
structure Elsewhere (n : Nat) (s s' : State) : Prop extends Later s s' where
  registry : s'.registries[n]? = s.registries[n]?

theorem later_trans {s s' s'' : State} (first : Later s s') (second : Later s' s'') :
    Later s s'' where
  kinds kind := second.kinds (first.kinds kind)
  next := Nat.le_trans first.next second.next

theorem later_of_caches {s s' : State} (caches : s'.caches = s.caches) (next : s.next ≤ s'.next) :
    Later s s' where
  kinds := by
    intro i kind here
    rw [State.kindAt?, caches]
    exact here
  next := next

theorem inside_of_kind {s : State} {i : Nat} {kind : BackendKind} (here : s.kindAt? i = some kind) :
    i < s.caches.length := by
  obtain ⟨c, found, _⟩ := Option.map_eq_some_iff.mp here
  exact (List.getElem?_eq_some_iff.mp found).1

theorem later_of_append {s s' : State} {cache : Cache Caller}
    (caches : s'.caches = s.caches ++ [cache]) (next : s.next ≤ s'.next) : Later s s' where
  kinds := by
    intro i kind here
    rw [State.kindAt?, caches, List.getElem?_append_left (inside_of_kind here)]
    exact here
  next := next

theorem kind_of_new {s s' : State} {cache : Cache Caller}
    (caches : s'.caches = s.caches ++ [cache]) :
    s'.kindAt? s.caches.length = some cache.kind := by
  rw [State.kindAt?, caches, List.getElem?_concat_length, Option.map_some]

theorem elsewhere_self (n : Nat) (s : State) : Elsewhere n s s :=
  ⟨later_of_caches rfl (Nat.le_refl _), rfl⟩

theorem elsewhere_of_undisturbed (n : Nat) {s s' : State} (same : s.Undisturbed s') :
    Elsewhere n s s' :=
  ⟨later_of_caches same.caches same.next, by rw [same.registries]⟩

theorem elsewhere_trans {n : Nat} {s s' s'' : State} (first : Elsewhere n s s')
    (second : Elsewhere n s' s'') : Elsewhere n s s'' :=
  ⟨later_trans first.toLater second.toLater, second.registry.trans first.registry⟩

/-- What goes on in a program beside the calls for a registry's caches. -/
inductive Beside : State → State → Prop where
  | uses {s s' i} (operates : s.Operates i s') : Beside s s'
  | works (s : State) (link : Nat) : Beside s (s.workLink link)
  | sweeps (s : State) (sweeper : Nat) : Beside s (s.workSweeper sweeper)
  | strikes (s : State) (t : Instant) : Beside s (s.strike t)

theorem elsewhere_of_operates (n : Nat) {i : Nat} {s s' : State} (operates : s.Operates i s') :
    Elsewhere n s s' := by
  have moved := State.operates_moved operates
  exact ⟨⟨fun kind => (moved.kinds _).trans kind, moved.next⟩, by rw [moved.registries]⟩

theorem elsewhere_of_beside (n : Nat) {s s' : State} (beside : Beside s s') :
    Elsewhere n s s' := by
  cases beside with
  | uses operates => exact elsewhere_of_operates n operates
  | works link =>
      unfold State.workLink
      split
      · split
        · simp only
          obtain ⟨queue, woken⟩ := State.wake_all_eq _ _
          rw [woken]
          exact elsewhere_of_undisturbed n ⟨rfl, rfl, Nat.le_refl _⟩
        · exact elsewhere_self n s
      · exact elsewhere_self n s
  | sweeps sweeper =>
      unfold State.workSweeper
      split
      · simp only
        split
        · next store _ =>
          refine elsewhere_trans ?_ (elsewhere_of_operates n (.restock store))
          exact elsewhere_of_undisturbed n ⟨rfl, rfl, Nat.le_refl _⟩
        · exact elsewhere_of_undisturbed n ⟨rfl, rfl, Nat.le_refl _⟩
      · exact elsewhere_self n s
  | strikes t =>
      obtain ⟨queue, woken⟩ := State.wake_all_eq { s with now := s.now.waitFor t } _
      rw [State.strike, woken]
      exact elsewhere_of_undisturbed n ⟨rfl, rfl, Nat.le_refl _⟩

theorem elsewhere_of_run (n : Nat) {s s' : State} (run : Relation.ReflTransGen Beside s s') :
    Elsewhere n s s' := by
  induction run with
  | refl => exact elsewhere_self n s
  | tail _ beside ih => exact elsewhere_trans ih (elsewhere_of_beside n beside)

namespace Clientele

def shown (s : State) : Keeping → List Nat
  | .cache name => ((s.handle? name).map (·.cache)).toList
  | .registry _ => []

def stay (w : Clientele) (id : Caller) (activity : Activity) (s : State) : Clientele :=
  { w with state := s, activity := fun j => if j = id then activity else w.activity j }

def finish (w : Clientele) (id : Caller) (s : State) (given : List Nat) : Clientele :=
  { w with state := s, pending := w.pending.filter (· != id), given := w.given ++ given }

def told (w : Clientele) (id : Caller) (result : Move × State) : Clientele :=
  match result.1 with
  | .going activity | .resting activity => w.stay id activity result.2
  | .answered (.ok _) _ => w.finish id result.2 (shown result.2 (w.keeping id))
  | _ => w.finish id result.2 []

def arrive (w : Clientele) (id : Caller) (keeping : Keeping) : Clientele :=
  { w with
    pending := w.pending ++ [id]
    keeping := fun j => if j = id then keeping else w.keeping j }

def next (n : Nat) (w : Clientele) : Visit → Clientele
  | .ask task keeping =>
    let id : Caller := ⟨task, w.state.next⟩
    (w.arrive id keeping).told id (w.state.openDefault task n keeping)
  | .goOn id =>
    if id ∈ w.pending then w.told id (w.state.continueActivity (w.activity id)) else w
  | .drop id => if id ∈ w.pending then w.finish id (w.state.abandon (w.activity id)) [] else w
  | .auxiliary name withTasks =>
    let s := (w.state.openAuxiliary name n withTasks).2
    { w with state := s, lent := w.lent ++ shown s (.cache name) }
  | .elsewhere s => { w with state := s }

def Allows (n : Nat) (w : Clientele) : Visit → Prop
  | .elsewhere s => Elsewhere n w.state s
  | _ => True

def opened (s : State) : Clientele := ⟨s, [], fun _ => .cache "", fun _ => .idle, [], []⟩

/-- What can come of a registry and its calls. -/
inductive Onward (n : Nat) (w : Clientele) : Clientele → Prop where
  | here : Onward n w w
  | next {w'} (onward : Onward n w w') (visit : Visit) (allowed : w'.Allows n visit) :
      Onward n w (w'.next n visit)

def Reachable (n : Nat) (settings : Settings) (w : Clientele) : Prop :=
  ∃ s, s.registries[n]? = some (.ofSettings settings) ∧ Onward n (opened s) w

/-! ### The registry's books -/

def Waits (n : Nat) (w : Clientele) (id : Caller) : Prop :=
  w.activity id = .registering n id (w.keeping id)

def Constructs (n : Nat) (w : Clientele) (id : Caller) : Prop :=
  ∃ c, w.activity id = .connecting c ∧ c.client = .registry n id (w.keeping id)

/-- What a registry and its calls have to say of each other, while one caller may be told something
and not stand anywhere. -/
structure InOrder (n : Nat) (settings : Settings) (w : Clientele) (r : Registry Caller)
    (busy : Option Caller) : Prop where
  configured : r.settings = settings
  callers : r.builders.callers = w.pending
  distinct : w.pending.Nodup
  fresh : ∀ id ∈ w.pending, id.number < w.state.next
  places : ∀ id ∈ w.pending, busy ≠ some id →
    w.Waits n id ∨ w.Constructs n id ∧ r.building = some id ∧ settings.backend = .redis
  building : ∀ {id}, r.building = some id →
    r.builders.first? = some id ∧ r.primary = none ∧ (busy ≠ some id → w.Constructs n id)
  primary : ∀ {c}, r.primary = some c → w.state.kindAt? c = some settings.backend
  auxiliary : ∀ {a}, r.auxiliary = some a → w.state.kindAt? a = some .memory ∧ r.primary ≠ some a
  given : ∀ c ∈ w.given, r.primary = some c
  lent : ∀ a ∈ w.lent, r.auxiliary = some a

structure Keeps (r r' : Registry Caller) : Prop where
  primary : ∀ {c}, r.primary = some c → r'.primary = some c
  auxiliary : ∀ {a}, r.auxiliary = some a → r'.auxiliary = some a

/-- The registry and its calls agree, and it has the caches that it had before. -/
def Sound (n : Nat) (settings : Settings) (old : Registry Caller) (w : Clientele) : Prop :=
  ∃ r, w.state.registries[n]? = some r ∧ Keeps old r ∧ w.InOrder n settings r none

variable {n : Nat} {settings : Settings} {w : Clientele} {r : Registry Caller} {id : Caller}

theorem keeps_of_same {r' : Registry Caller} (primary : r'.primary = r.primary)
    (auxiliary : r'.auxiliary = r.auxiliary) : Keeps r r' :=
  ⟨fun made => primary.trans made, fun made => auxiliary.trans made⟩

theorem sound_of_kept {old : Registry Caller} (kept : Keeps old r) (sound : Sound n settings r w) :
    Sound n settings old w := by
  obtain ⟨r', found, keeps, inOrder⟩ := sound
  exact ⟨r', found,
    ⟨fun made => keeps.primary (kept.primary made),
      fun made => keeps.auxiliary (kept.auxiliary made)⟩, inOrder⟩

theorem in_order_later {busy : Option Caller} (inOrder : w.InOrder n settings r busy) {s : State}
    (later : Later w.state s) : ({ w with state := s } : Clientele).InOrder n settings r busy :=
  { inOrder with
    fresh := fun j member => Nat.lt_of_lt_of_le (inOrder.fresh j member) later.next
    primary := fun made => later.kinds (inOrder.primary made)
    auxiliary := fun made => ⟨later.kinds (inOrder.auxiliary made).1, (inOrder.auxiliary made).2⟩ }

theorem in_order_busy (inOrder : w.InOrder n settings r none) (id : Caller) :
    w.InOrder n settings r (some id) :=
  { inOrder with
    places := fun j member _ => inOrder.places j member nofun
    building := fun builds => ⟨(inOrder.building builds).1, (inOrder.building builds).2.1,
      fun _ => (inOrder.building builds).2.2 nofun⟩ }

theorem stay_in_order (inOrder : w.InOrder n settings r (some id)) {s : State}
    (later : Later w.state s) {activity : Activity}
    (place : (r.building ≠ some id ∧ activity = .registering n id (w.keeping id)) ∨
      r.building = some id ∧ settings.backend = .redis ∧
        ∃ c, activity = .connecting c ∧ c.client = .registry n id (w.keeping id)) :
    (w.stay id activity s).InOrder n settings r none := by
  have mine : (w.stay id activity s).activity id = activity := if_pos rfl
  have others : ∀ {j}, j ≠ id → (w.stay id activity s).activity j = w.activity j :=
    fun other => if_neg other
  refine { in_order_later inOrder later with places := ?_, building := ?_ }
  · intro j member _
    by_cases same : j = id
    · subst same
      rcases place with ⟨_, waits⟩ | ⟨builds, networked, constructs⟩
      · exact .inl (mine.trans waits)
      · obtain ⟨c, connects, client⟩ := constructs
        exact .inr ⟨⟨c, mine.trans connects, client⟩, builds, networked⟩
    · have busy : some id ≠ some j := fun equal => same (Option.some.inj equal).symm
      simp only [Waits, Constructs, others same]
      exact inOrder.places j member busy
  · intro j builds
    obtain ⟨first, unmade, constructs⟩ := inOrder.building builds
    refine ⟨first, unmade, fun _ => ?_⟩
    by_cases same : j = id
    · subst same
      rcases place with ⟨idle, _⟩ | ⟨_, _, c, connects, client⟩
      · exact absurd builds idle
      · exact ⟨c, mine.trans connects, client⟩
    · have busy : some id ≠ some j := fun equal => same (Option.some.inj equal).symm
      simp only [Constructs, others same]
      exact constructs busy

/-- The caller that was told something is done, or has gone away. -/
theorem finish_in_order (inOrder : w.InOrder n settings r (some id)) {s : State} {given : List Nat}
    (later : Later w.state s) (shown : ∀ c ∈ given, r.primary = some c) :
    (w.finish id s given).InOrder n settings (r.leave id) none where
  configured := inOrder.configured
  callers := by
    rw [finish, ← inOrder.callers]
    rfl
  distinct := inOrder.distinct.filter _
  fresh j member := Nat.lt_of_lt_of_le (inOrder.fresh j (List.mem_filter.mp member).1) later.next
  places := by
    intro j member _
    obtain ⟨before, other⟩ := List.mem_filter.mp member
    have differs : j ≠ id := bne_iff_ne.mp other
    have busy : some id ≠ some j := fun equal => differs (Option.some.inj equal).symm
    rcases inOrder.places j before busy with waits | ⟨constructs, builds, networked⟩
    · exact .inl waits
    · refine .inr ⟨constructs, ?_, networked⟩
      have unended : r.building ≠ some id := by
        rw [builds]
        exact busy.symm
      rw [Registry.leave, if_neg unended]
      exact builds
  building := by
    intro j builds
    simp only [Registry.leave] at builds
    split at builds
    · cases builds
    · next unended =>
      obtain ⟨first, unmade, constructs⟩ := inOrder.building builds
      have differs : j ≠ id := by
        rintro rfl
        exact unended builds
      have busy : some id ≠ some j := fun equal => differs (Option.some.inj equal).symm
      exact ⟨Line.first_of_leave first differs, unmade, fun _ => constructs busy⟩
  primary made := later.kinds (inOrder.primary made)
  auxiliary made := ⟨later.kinds (inOrder.auxiliary made).1, (inOrder.auxiliary made).2⟩
  given := by
    intro c member
    rcases List.mem_append.mp member with before | new
    · exact inOrder.given c before
    · exact shown c new
  lent := inOrder.lent

theorem built_in_order (inOrder : w.InOrder n settings r (some id)) (builds : r.building = some id)
    {s : State} {cache : Cache Caller} (caches : s.caches = w.state.caches ++ [cache])
    (kind : cache.kind = settings.backend) (next : w.state.next ≤ s.next) {given : List Nat}
    (shown : ∀ c ∈ given, c = w.state.caches.length) :
    (w.finish id s given).InOrder n settings (r.built id w.state.caches.length) none := by
  have later : Later w.state s := later_of_append caches next
  have unmade : r.primary = none := (inOrder.building builds).2.1
  have left : (w.finish id s []).InOrder n settings (r.leave id) none :=
    finish_in_order inOrder later nofun
  have idle : (r.built id w.state.caches.length).building = none := by
    simp only [Registry.built, Registry.leave, builds, if_true]
  refine { left with places := ?_, building := ?_, primary := ?_, auxiliary := ?_, given := ?_ }
  · intro j member busy
    rcases left.places j member busy with waits | ⟨_, going, _⟩
    · exact .inl waits
    · cases idle.symm.trans going
  · intro j going
    cases idle.symm.trans going
  · intro c made
    cases Option.some.inj made
    rw [← kind]
    exact kind_of_new caches
  · intro a made
    have known : w.state.kindAt? a = some .memory := (inOrder.auxiliary made).1
    refine ⟨later.kinds known, ?_⟩
    intro same
    have here := inside_of_kind known
    rw [← Option.some.inj same] at here
    exact absurd here (Nat.lt_irrefl _)
  · intro c member
    rcases List.mem_append.mp member with before | new
    · cases unmade.symm.trans (inOrder.given c before)
    · rw [shown c new]
      rfl

theorem building_in_order (inOrder : w.InOrder n settings r (some id)) (unmade : r.primary = none)
    (first : r.builders.first? = some id) :
    w.InOrder n settings { r with building := some id } (some id) where
  configured := inOrder.configured
  callers := inOrder.callers
  distinct := inOrder.distinct
  fresh := inOrder.fresh
  places := by
    intro j member busy
    rcases inOrder.places j member busy with waits | ⟨_, builds, _⟩
    · exact .inl waits
    · cases first.symm.trans (inOrder.building builds).1
      exact absurd rfl busy
  building := by
    intro j builds
    cases Option.some.inj builds
    exact ⟨first, unmade, fun busy => absurd rfl busy⟩
  primary := inOrder.primary
  auxiliary := inOrder.auxiliary
  given := inOrder.given
  lent := inOrder.lent

theorem arrive_in_order (inOrder : w.InOrder n settings r none) (task : Nat) (keeping : Keeping) :
    let id : Caller := ⟨task, w.state.next⟩
    ({ w.arrive id keeping with state := w.state.fresh.2 } : Clientele).InOrder n settings
      { r with builders := r.builders.join id } (some id) := by
  intro id
  have new : ∀ {j}, j ∈ w.pending → j ≠ id := by
    rintro j member rfl
    exact absurd (inOrder.fresh _ member) (Nat.lt_irrefl _)
  have kept : ∀ {j}, j ≠ id → (w.arrive id keeping).keeping j = w.keeping j :=
    fun other => if_neg other
  have stands : ∀ {j}, j ≠ id → (w.Constructs n j ↔ (w.arrive id keeping).Constructs n j) := by
    intro j other
    simp only [Constructs, kept other]
    rfl
  have mem : ∀ {j}, j ∈ w.pending ++ [id] → some id ≠ some j → j ∈ w.pending ∧ j ≠ id := by
    intro j member busy
    rcases List.mem_append.mp member with before | last
    · exact ⟨before, new before⟩
    · exact absurd (congrArg some (List.mem_singleton.mp last)).symm busy
  constructor
  case configured => exact inOrder.configured
  case callers => exact congrArg (· ++ [id]) inOrder.callers
  case distinct =>
    have joined : ((⟨w.pending⟩ : Line Caller).join id).callers.Nodup :=
      Line.nodup_of_join inOrder.distinct fun member => new member rfl
    exact joined
  case fresh =>
    intro j member
    rcases List.mem_append.mp member with before | last
    · exact Nat.lt_succ_of_lt (inOrder.fresh j before)
    · rw [List.mem_singleton.mp last]
      exact Nat.lt_succ_self _
  case places =>
    intro j member busy
    obtain ⟨before, other⟩ := mem member busy
    rcases inOrder.places j before nofun with waits | ⟨constructs, rest⟩
    · exact .inl (waits.trans (by rw [← kept other]))
    · exact .inr ⟨(stands other).mp constructs, rest⟩
  case building =>
    intro j builds
    obtain ⟨first, unmade, constructs⟩ := inOrder.building builds
    refine ⟨Line.first_of_join first, unmade, fun busy => ?_⟩
    have other : j ≠ id := fun same => busy (congrArg some same).symm
    exact (stands other).mp (constructs nofun)
  case primary => exact inOrder.primary
  case auxiliary => exact inOrder.auxiliary
  case given => exact inOrder.given
  case lent => exact inOrder.lent

end Clientele

end Simulation

end ExpiringCache
