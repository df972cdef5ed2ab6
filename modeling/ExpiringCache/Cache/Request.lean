import ExpiringCache.Operation
import ExpiringCache.Remote.Command
/-!
What callers ask of a cache, and what a cache tells a caller to do next. A request that has to wait
for its turn, for a reply or for the caller's own computation is taken up again where it stopped.
-/

namespace ExpiringCache

inductive Request where
  | operate (operation : Operation)
  | fill (key : String) (reading : Reading)

inductive Progress where
  | waiting
  | send (command : Command)
  | compute
  | finished (outcome : Outcome)

/-- What a cache makes of a request: how far it has come, what there is to report, and the cache
afterwards. -/
structure Reaction (σ : Type) where
  progress : Progress
  events : List Event
  state : σ

namespace Reaction

variable {σ τ : Type}

/-- The same reaction of a larger whole. -/
def within (r : Reaction σ) (f : σ → τ) : Reaction τ := ⟨r.progress, r.events, f r.state⟩

/-- A reaction with nothing to report. -/
def quiet (progress : Progress) (state : σ) : Reaction σ := ⟨progress, [], state⟩

end Reaction

end ExpiringCache
