import ExpiringCache.Journal
import ExpiringCache.Store.Basic
/-!
Sweepers: tasks that remove what is over from a store, again and again after an interval. A sweeper
keeps its store alive only while it sweeps; it ends when it finds it gone.
-/

namespace ExpiringCache

inductive SweeperStage where
  | fresh
  | sleeping (wake : Instant)
  | done
  deriving DecidableEq

/-- How a sweeper refers to its store. A store is there as long as there is a strong reference. -/
inductive Reference where
  | weak
  | strong
  deriving DecidableEq

/-- A sweeper of a store; one that was stopped is to end when it runs next. -/
structure Sweeper where
  interval : Duration
  stage : SweeperStage
  stopped : Bool
  reference : Reference

namespace Sweeper

def every (interval : Duration) : Sweeper := ⟨interval, .fresh, false, .weak⟩

/-- Lets go of the store and sleeps for an interval, which is at least the least time that can be
slept. -/
def sleep (s : Sweeper) (now : Instant) : Sweeper :=
  let interval := if s.interval.isZero then .ofMillis 1 else s.interval
  { s with stage := .sleeping (now.timer interval), reference := .weak }

def upgrade (s : Sweeper) (store : Option Store) : Option (Store × Sweeper) :=
  store.map fun store => (store, { s with reference := .strong })

/-- Runs a sweeper until it sleeps or ends; `store` is none if the store is gone. -/
def run (s : Sweeper) (now : Instant) (store : Option Store) :
    Sweeper × Option Store × List Event :=
  if s.stopped then ({ s with stage := .done }, store, [])
  else
    match s.stage with
    | .fresh => (s.sleep now, store, [.sweeping s.interval])
    | .sleeping wake =>
      if wake.reached now then
        match s.upgrade store with
        | some (store, s) =>
          let (removed, store) := store.sweep now
          (s.sleep now, some store, [.swept removed])
        | none => ({ s with stage := .done }, none, [.storeGone])
      else (s, store, [])
    | .done => (s, store, [])

def wake? (s : Sweeper) : Option Instant :=
  match s.stage with
  | .sleeping wake => some wake
  | _ => none

end Sweeper

end ExpiringCache
