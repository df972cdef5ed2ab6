import ExpiringCache.Proofs.Simulation.Frame
import ExpiringCache.Simulation.Run
/-!
Who holds a cache. A cache is in use as long as a name stands for it, a request is made of it, a
registry that is itself in use keeps it, or a sweeper has a strong reference to it. Whatever the
program does, it gets at caches and registries only through what is in use, or makes new ones: what
nobody holds is never held again.
-/

namespace ExpiringCache

def Registry.Keeps {ι : Type} (r : Registry ι) (c : Nat) : Prop :=
  r.primary = some c ∨ r.auxiliary = some c

namespace Simulation

def Move.activity? : Move → Option Activity
  | .going activity | .resting activity | .computing activity _ => some activity
  | .answered .. => none

namespace State

/-! ### Holders -/

theorem holds_registry_iff (s : State) (n : Nat) :
    s.holdsRegistry n = true ↔ (∃ row ∈ s.registryNames.rows, row.2 = n) ∨
      ∃ activity ∈ s.activities, Activity.registry? activity = some n := by
  simp only [holdsRegistry, Bool.or_eq_true, List.any_eq_true, beq_iff_eq]

inductive Holds (s : State) (c : Nat) : Prop where
  | handle {row : String × Handle} (member : row ∈ s.handles.rows) (same : row.2.cache = c)
  | registry {n : Nat} {r : Registry Caller} (there : s.registries[n]? = some r) (keeps : r.Keeps c)
      (named : s.holdsRegistry n = true)
  | activity {activity : Activity} (member : activity ∈ s.activities)
      (mine : Activity.cache? activity = some c)
  | sweeper {w : Sweeper} (member : (c, w) ∈ s.sweepers) (strong : w.reference = .strong)

theorem holds_cache_iff (s : State) (c : Nat) : s.holdsCache c = true ↔ s.Holds c := by
  simp only [holdsCache, Bool.or_eq_true, List.any_eq_true, beq_iff_eq, Bool.and_eq_true]
  constructor
  · rintro (((⟨row, member, same⟩ | ⟨⟨r, n⟩, member, keeps, named⟩) | ⟨activity, member, mine⟩) |
      ⟨⟨_, w⟩, member, rfl, strong⟩)
    · exact .handle member same
    · exact .registry (List.mk_mem_zipIdx_iff_getElem?.mp member) keeps named
    · exact .activity member mine
    · exact .sweeper member strong
  · rintro (⟨member, same⟩ | ⟨there, keeps, named⟩ | ⟨member, mine⟩ | ⟨member, strong⟩)
    · exact .inl (.inl (.inl ⟨_, member, same⟩))
    · exact .inl (.inl (.inr ⟨_, List.mk_mem_zipIdx_iff_getElem?.mpr there, keeps, named⟩))
    · exact .inl (.inr ⟨_, member, mine⟩)
    · exact .inr ⟨_, member, rfl, strong⟩

def Known (s : State) (c : Nat) : Prop := s.holdsCache c = true ∨ s.caches.length ≤ c

def KnownRegistry (s : State) (n : Nat) : Prop :=
  s.holdsRegistry n = true ∨ s.registries.length ≤ n

structure Draws (s : State) (activity : Activity) : Prop where
  cache : ∀ {c}, Activity.cache? activity = some c → s.Known c
  registry : ∀ {n}, Activity.registry? activity = some n → s.KnownRegistry n

variable {b s s' : State}

theorem known_of_handle {row : String × Handle} (member : row ∈ s.handles.rows) :
    s.Known row.2.cache :=
  .inl ((s.holds_cache_iff _).mpr (.handle member rfl))

theorem known_of_registry_name {row : String × Nat} (member : row ∈ s.registryNames.rows) :
    s.KnownRegistry row.2 :=
  .inl ((s.holds_registry_iff _).mpr (.inl ⟨row, member, rfl⟩))

theorem draws_of_activity {activity : Activity} (member : activity ∈ s.activities) :
    s.Draws activity where
  cache mine := .inl ((s.holds_cache_iff _).mpr (.activity member mine))
  registry mine := .inl ((s.holds_registry_iff _).mpr (.inr ⟨activity, member, mine⟩))

theorem draws_nothing {activity : Activity} (noCache : Activity.cache? activity = none)
    (noRegistry : Activity.registry? activity = none) : s.Draws activity where
  cache mine := by cases noCache.symm.trans mine
  registry mine := by cases noRegistry.symm.trans mine

theorem known_of_registry {n c : Nat} {r : Registry Caller} (known : s.KnownRegistry n)
    (there : s.registries[n]? = some r) (keeps : r.Keeps c) : s.Known c := by
  rcases known with held | absent
  · exact .inl ((s.holds_cache_iff c).mpr (.registry there keeps held))
  · rw [List.getElem?_eq_none absent] at there
    cases there

end State

end Simulation

end ExpiringCache
