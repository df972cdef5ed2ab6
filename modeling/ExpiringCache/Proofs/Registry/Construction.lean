import ExpiringCache.Proofs.Simulation.Frame
import ExpiringCache.Proofs.Table
/-!
How a registry's default cache is made. A construction is begun by the caller whose turn it is, and
is over at once or waits for a server; it ends with a new cache of the configured kind, which the
registry keeps, or with a failure, of which the registry keeps nothing.
-/

namespace ExpiringCache.Simulation.State

def construct (s : State) (n : Nat) (caller : Caller) (keeping : Keeping) (r : Registry Caller) :
    Move × State :=
  match r.plan with
  | .embedded =>
    let (c, s) := s.makeEmbedded "default" r.settings true
    (.done, (s.putRegistry n (r.built caller c)).keep n c keeping)
  | .networked settings => s.openNetworked settings (.registry n caller keeping)

theorem register_builds (s : State) (n : Nat) (caller : Caller) (keeping : Keeping)
    (r : Registry Caller) :
    s.register n caller keeping (.build, r) = (s.putRegistry n r).construct n caller keeping r :=
  rfl

/-- How far a construction has come that was begun, or gone on with, in a state with the registry
`r` at `n`. -/
inductive Construction (s : State) (n : Nat) (caller : Caller) (keeping : Keeping)
    (r : Registry Caller) : Move × State → Prop where
  | underWay {s' c move} (networked : r.settings.backend = .redis)
      (on : move = .going (.connecting c) ∨ move = .resting (.connecting c))
      (mine : c.client = .registry n caller keeping) (same : Undisturbed s s') :
      Construction s n caller keeping r (move, s')
  | failed {s'} (e : CacheError)
      (registries : s'.registries = s.registries.set n (r.leave caller))
      (caches : s'.caches = s.caches) (next : s.next ≤ s'.next) :
      Construction s n caller keeping r (.failed e, s')
  | succeeded {s' cache}
      (registries : s'.registries = s.registries.set n (r.built caller s.caches.length))
      (caches : s'.caches = s.caches ++ [cache]) (kind : cache.kind = r.settings.backend)
      (next : s.next ≤ s'.next)
      (kept : ∀ name, keeping = .cache name → s'.handle? name = some ⟨s.caches.length, false⟩) :
      Construction s n caller keeping r (.done, s')

/-! ### Ends -/

theorem keep_undisturbed (s : State) (n c : Nat) (keeping : Keeping) :
    Undisturbed s (s.keep n c keeping) := by
  cases keeping with
  | cache name => exact ⟨rfl, rfl, Nat.le_refl _⟩
  | registry name => exact ⟨rfl, rfl, Nat.le_refl _⟩

theorem keep_names (s : State) (n c : Nat) {keeping : Keeping} (name : String)
    (mine : keeping = .cache name) : (s.keep n c keeping).handle? name = some ⟨c, false⟩ := by
  subst mine
  change (s.handles.put name ⟨c, false⟩).get? name = _
  rw [Table.get_put, if_pos rfl]

variable {s s' : State} {n : Nat} {caller : Caller} {keeping : Keeping} {r : Registry Caller}

theorem construction_of_cache {cache : Cache Caller} {move : Move} (done : move = .done)
    (registries : s'.registries = s.registries) (caches : s'.caches = s.caches ++ [cache])
    (next : s.next ≤ s'.next) (kind : cache.kind = r.settings.backend) (events : List Event) :
    Construction s n caller keeping r (move,
      ((s'.putRegistry n (r.built caller s.caches.length)).report events).keep n s.caches.length
        keeping) := by
  subst done
  have kept := keep_undisturbed
    ((s'.putRegistry n (r.built caller s.caches.length)).report events) n s.caches.length keeping
  obtain ⟨queue, put⟩ := s'.put_registry_eq n (r.built caller s.caches.length)
  apply Construction.succeeded _ _ kind
  · apply Nat.le_trans _ kept.next
    rw [put]
    exact next
  · exact keep_names _ n s.caches.length
  · rw [kept.registries, put, ← registries]
    rfl
  · rw [kept.caches, put]
    exact caches

theorem unopened_construction (there : s.registries[n]? = some r) (same : Undisturbed s s')
    (e : CacheError) :
    Construction s n caller keeping r (s'.unopened (.registry n caller keeping) e) := by
  have found : s'.registries[n]? = some r := by
    rw [same.registries]
    exact there
  obtain ⟨queue, put⟩ := s'.put_registry_eq n (r.leave caller)
  simp only [unopened, found, put]
  exact .failed e (by rw [same.registries]) same.caches same.next

theorem opened_construction (there : s.registries[n]? = some r)
    (networked : r.settings.backend = .redis) (same : Undisturbed s s') {c : Connecting}
    (mine : c.client = .registry n caller keeping) (link : Nat) (ns : Namespace) :
    Construction s n caller keeping r (s'.opened c link ns) := by
  have found : s'.registries[n]? = some r := by
    rw [same.registries]
    exact there
  let cache : Cache Caller :=
    .networked link c.opening.settings.responseTimeout (NetworkedCache.opened ns)
  let grown : State := { s' with caches := s.caches ++ [cache] }
  have registries : grown.registries = s.registries := same.registries
  have caches : grown.caches = s.caches ++ [cache] := rfl
  have next : s.next ≤ grown.next := same.next
  have constructed : Construction s n caller keeping r (.done,
      ((grown.putRegistry n (r.built caller s.caches.length)).report [.networkedReady ns.text]).keep n
        s.caches.length keeping) :=
    construction_of_cache rfl registries caches next networked.symm [.networkedReady ns.text]
  simp only [opened, addCache, mine, found]
  rw [same.caches]
  exact constructed

/-! ### Steps -/

theorem attempt_construction (there : s.registries[n]? = some r)
    (networked : r.settings.backend = .redis) (same : Undisturbed s s') (opening : Opening) :
    Construction s n caller keeping r (s'.attempt opening (.registry n caller keeping)) := by
  have tried : ∀ scripts attempts,
      Undisturbed s ({ s' with scripts, attempts } : State) :=
    fun _ _ => ⟨same.registries, same.caches, same.next⟩
  have linked : ∀ scripts attempts links,
      Undisturbed s ({ s' with scripts, attempts, links } : State) :=
    fun _ _ _ => ⟨same.registries, same.caches, same.next⟩
  simp only [attempt, Opening.reached, Opening.unavailable]
  split
  · exact unopened_construction there ((tried _ _).trans (report_undisturbed _ _)) _
  · split
    · exact unopened_construction there ((tried _ _).trans (report_undisturbed _ _)) _
    · split
      · exact .underWay networked (.inr rfl) rfl (tried _ _)
      · exact .underWay networked (.inl rfl) rfl (linked _ _ _)

theorem connect_construction (there : s.registries[n]? = some r)
    (networked : r.settings.backend = .redis) (same : Undisturbed s s') {c : Connecting}
    (mine : c.client = .registry n caller keeping) (reaction : OpeningReaction) :
    Construction s n caller keeping r (s'.connect c reaction) := by
  have reported := same.trans (report_undisturbed s' reaction.events)
  unfold connect
  cases reaction.next with
  | reach opening =>
      simp only [mine]
      exact attempt_construction there networked reported opening
  | greet opening commands =>
      exact .underWay networked (.inl rfl) mine (reported.trans (post_undisturbed _ _ _ _))
  | ping opening =>
      exact .underWay networked (.inl rfl) mine (reported.trans (post_undisturbed _ _ _ _))
  | opened ns => exact opened_construction there networked reported mine _ ns
  | failed e =>
      simp only [mine]
      exact unopened_construction there reported e

theorem continue_connect_construction (there : s.registries[n]? = some r)
    (networked : r.settings.backend = .redis) {c : Connecting}
    (mine : c.client = .registry n caller keeping) :
    Construction s n caller keeping r (s.continueConnect c) := by
  have same : Undisturbed s s := ⟨rfl, rfl, Nat.le_refl _⟩
  simp only [continueConnect]
  split
  · cases c.wait with
    | none => exact connect_construction there networked same mine _
    | some wait => exact connect_construction there networked (forget_undisturbed s wait) mine _
  · split
    · exact connect_construction there networked same mine _
    · exact .underWay networked (.inr rfl) mine same

theorem open_networked_construction (there : s.registries[n]? = some r)
    (networked : r.settings.backend = .redis) (settings : RemoteSettings) :
    Construction s n caller keeping r
      (s.openNetworked settings (.registry n caller keeping)) := by
  have refusal : ∀ e, Opening.start settings = ⟨.failed e, []⟩ →
      Construction s n caller keeping r
        (s.openNetworked settings (.registry n caller keeping)) := by
    intro e refused
    simp only [openNetworked, refused]
    exact unopened_construction there (report_undisturbed s []) e
  cases ns : Namespace.parse settings.ns with
  | error e => exact refusal e (by simp only [Opening.start, ns])
  | ok accepted =>
      cases address : Address.parse settings.addr with
      | error e => exact refusal e (by simp only [Opening.start, ns, address])
      | ok address' =>
          simp only [openNetworked, Opening.start, ns, address]
          exact attempt_construction there networked (report_undisturbed s _) _

def grown (s : State) (sweepers : List (Nat × Sweeper)) (queue : List Item)
    (events : List Event) : State :=
  { s with
    caches := s.caches ++ [.embedded .empty]
    sweepers := s.sweepers ++ sweepers, queue, events }

/-- A new embedded cache may be swept, and nothing else is swept for it. -/
theorem make_embedded_eq (s : State) (label : String) (settings : Settings) (withTasks : Bool) :
    ∃ sweepers queue events, (∀ sweeper ∈ sweepers, sweeper.1 = s.caches.length) ∧
      s.makeEmbedded label settings withTasks =
        (s.caches.length, s.grown sweepers queue events) := by
  unfold makeEmbedded grown
  cases settings.sweepInterval with
  | none =>
      refine ⟨[], s.queue, .embeddedReady label :: s.events, List.forall_mem_nil _, ?_⟩
      rw [List.append_nil]
      rfl
  | some interval =>
      cases withTasks with
      | false =>
          refine ⟨[], s.queue, .embeddedReady label :: .sweepDisabled label :: s.events,
            List.forall_mem_nil _, ?_⟩
          rw [List.append_nil]
          rfl
      | true =>
          obtain ⟨queue, woken⟩ := wake_eq { s with
            caches := s.caches ++ [.embedded .empty]
            sweepers := s.sweepers ++ [(s.caches.length, Sweeper.every interval)] }
            (.sweeper s.sweepers.length)
          refine ⟨[(s.caches.length, Sweeper.every interval)], queue,
            .embeddedReady label :: s.events, ?_, ?_⟩
          · intro sweeper member
            rw [List.mem_singleton.mp member]
          · simp only [addCache, addSweeper, if_true, woken]
            rfl

theorem construct_construction (there : s.registries[n]? = some r) :
    Construction s n caller keeping r (s.construct n caller keeping r) := by
  unfold construct Registry.plan
  cases backend : r.settings.backend with
  | redis => exact open_networked_construction there backend r.settings.remote
  | memory =>
      obtain ⟨sweepers, queue, events, _, made⟩ := s.make_embedded_eq "default" r.settings true
      simp only [made]
      have registries : (s.grown sweepers queue events).registries = s.registries := rfl
      have caches : (s.grown sweepers queue events).caches = s.caches ++ [.embedded .empty] := rfl
      have next : s.next ≤ (s.grown sweepers queue events).next := Nat.le_refl _
      exact construction_of_cache rfl registries caches next backend.symm []

end ExpiringCache.Simulation.State
