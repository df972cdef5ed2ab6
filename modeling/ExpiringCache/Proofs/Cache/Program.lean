import ExpiringCache.Proofs.Remote.Answered
/-!
Clients that do one thing after another, waiting for each to end. A client is a tree, since what it
does next may depend on what it has been told; what it does to fill a missing key is a client again.
It can be run over a cache of either kind, with a server to answer the commands that a networked
cache has it send, and over a map with deadlines.
-/

namespace ExpiringCache

inductive Program where
  | done (failure : Option Cause)
  | call (asked : HandleCall) (next : Outcome → Program)
  | wait (length : Duration) (next : Program)
  | remember (key : String) (reading : Reading) (body : Program) (next : Outcome → Program)

/-- What a client was told, in order, and whether it failed in the end. -/
structure Report where
  answers : List Outcome
  failure : Option Cause

def Report.after (report : Report) (answers : List Outcome) : Report :=
  { report with answers := answers ++ report.answers }

/-- A cache in the hands of one client, with the server behind it and the name of the client's next
request. -/
structure Desk (σ : Type) where
  cache : Cache Nat
  server : σ
  now : Instant
  next : Nat

variable {σ : Type}

namespace Desk

/-- Does what the cache says, sending commands and bringing the replies, until that comes to
something else. -/
def follow (serve : Service σ) (d : Desk σ) (id : Nat) (reaction : Reaction (Cache Nat)) :
    Option (Progress × Desk σ) :=
  match reaction.progress with
  | .send command =>
    let (reply, server) := serve d.server d.now command
    { d with server } |>.follow serve id (reaction.state.reply id (.ok reply))
  | progress => some (progress, { d with cache := reaction.state })
partial_fixpoint

section Following

variable (serve : Service σ) (d : Desk σ) (id : Nat) (events : List Event)

theorem follow_of_outcome (outcome : Outcome) (state : Cache Nat) :
    d.follow serve id ⟨.finished outcome, events, state⟩ =
      some (.finished outcome, { d with cache := state }) := by
  rw [follow]

theorem follow_of_compute (state : Cache Nat) :
    d.follow serve id ⟨.compute, events, state⟩ = some (.compute, { d with cache := state }) := by
  rw [follow]

theorem follow_of_send {command : Command} (state : Cache Nat) {reply : Reply} {server : σ}
    (answer : serve d.server d.now command = (reply, server)) :
    d.follow serve id ⟨.send command, events, state⟩ =
      { d with server }.follow serve id (state.reply id (.ok reply)) := by
  rw [follow]
  simp only [answer]

end Following

def ask (serve : Service σ) (d : Desk σ) (request : Request) : Option (Progress × Desk σ) :=
  { d with next := d.next + 1 }.follow serve d.next (d.cache.start d.now d.next request)

def conclude (serve : Service σ) (d : Desk σ) (id : Nat) (failure : Option Cause) :
    Option (Progress × Desk σ) :=
  d.follow serve id (d.cache.computed d.now id failure)

end Desk

namespace Program

def run (serve : Service σ) : Program → Desk σ → Option (Report × Desk σ)
  | .done failure, d => some (⟨[], failure⟩, d)
  | .wait length next, d => next.run serve { d with now := d.now.later length }
  | .call asked next, d =>
    match asked.operation with
    | .error e => do
      let (report, d) ← (next (.error e)).run serve d
      return (report.after [.error e], d)
    | .ok operation => do
      let (progress, d) ← d.ask serve (.operate operation)
      let outcome ← progress.outcome?
      let (report, d) ← (next outcome).run serve d
      return (report.after [outcome], d)
  | .remember key reading body next, d => do
    let id := d.next
    let (progress, d) ← d.ask serve (.fill key reading)
    match progress with
    | .finished outcome =>
      let (report, d) ← (next outcome).run serve d
      return (report.after [outcome], d)
    | .compute =>
      let (inner, d) ← body.run serve d
      let (progress, d) ← d.conclude serve id inner.failure
      let outcome ← progress.outcome?
      let (report, d) ← (next outcome).run serve d
      return (report.after (inner.answers ++ [outcome]), d)
    | _ => none

noncomputable def ending (m : TtlMap) (key : String) (reading : Reading) : Option Cause → Outcome
  | some cause => .error (.compute cause)
  | none => (m.call (.get key reading)).1

noncomputable def meaning : Program → TtlMap → Report × TtlMap
  | .done failure => fun m => (⟨[], failure⟩, m)
  | .wait length next => fun m => next.meaning (m.advance length.toNanos)
  | .call asked next => fun m =>
    let told := m.call asked
    let rest := (next told.1).meaning told.2
    (rest.1.after [told.1], rest.2)
  | .remember key reading body next => fun m =>
    if (m.held key).isSome then
      let outcome := (m.call (.get key reading)).1
      let rest := (next outcome).meaning m
      (rest.1.after [outcome], rest.2)
    else
      let inner := body.meaning m
      let outcome := ending inner.2 key reading inner.1.failure
      let rest := (next outcome).meaning inner.2
      (rest.1.after (inner.1.answers ++ [outcome]), rest.2)

section Runs

variable {serve : Service σ} {d d₁ d₂ d₃ d' : Desk σ} {next : Outcome → Program}
  {report inner : Report} {outcome : Outcome}

theorem run_of_refused {asked : HandleCall} {e : CacheError} (refused : asked.operation = .error e)
    (rest : (next (.error e)).run serve d = some (report, d')) :
    (call asked next).run serve d = some (report.after [.error e], d') := by
  simp only [run, refused, rest]
  rfl

theorem run_of_call {asked : HandleCall} {operation : Operation}
    (asks : asked.operation = .ok operation)
    (told : d.ask serve (.operate operation) = some (.finished outcome, d₁))
    (rest : (next outcome).run serve d₁ = some (report, d')) :
    (call asked next).run serve d = some (report.after [outcome], d') := by
  simp only [run, asks, told, Option.bind_eq_bind, Option.bind_some, Progress.outcome?, rest]
  rfl

variable {key : String} {reading : Reading} {body : Program}

theorem run_of_found (told : d.ask serve (.fill key reading) = some (.finished outcome, d₁))
    (rest : (next outcome).run serve d₁ = some (report, d')) :
    (remember key reading body next).run serve d = some (report.after [outcome], d') := by
  simp only [run, told, Option.bind_eq_bind, Option.bind_some, rest]
  rfl

theorem run_of_computed (told : d.ask serve (.fill key reading) = some (.compute, d₁))
    (computes : body.run serve d₁ = some (inner, d₂))
    (concludes : d₂.conclude serve d.next inner.failure = some (.finished outcome, d₃))
    (rest : (next outcome).run serve d₃ = some (report, d')) :
    (remember key reading body next).run serve d =
      some (report.after (inner.answers ++ [outcome]), d') := by
  simp only [run, told, Option.bind_eq_bind, Option.bind_some, computes, concludes,
    Progress.outcome?, rest]
  rfl

end Runs

theorem run_of_done (serve : Service σ) (failure : Option Cause) (d : Desk σ) :
    (done failure).run serve d = some (⟨[], failure⟩, d) := rfl

theorem run_of_wait (serve : Service σ) (length : Duration) (next : Program) (d : Desk σ) :
    (wait length next).run serve d = next.run serve { d with now := d.now.later length } := rfl

theorem meaning_of_done (failure : Option Cause) (m : TtlMap) :
    (done failure).meaning m = (⟨[], failure⟩, m) := rfl

theorem meaning_of_wait (length : Duration) (next : Program) :
    (wait length next).meaning = fun m => next.meaning (m.advance length.toNanos) := rfl

theorem meaning_of_call (asked : HandleCall) (next : Outcome → Program) (m : TtlMap) :
    (call asked next).meaning m =
      (((next (m.call asked).1).meaning (m.call asked).2).1.after [(m.call asked).1],
        ((next (m.call asked).1).meaning (m.call asked).2).2) := rfl

theorem meaning_of_remember (key : String) (reading : Reading) (body : Program)
    (next : Outcome → Program) (m : TtlMap) :
    (remember key reading body next).meaning m =
      if (m.held key).isSome then
        let outcome := (m.call (.get key reading)).1
        let rest := (next outcome).meaning m
        (rest.1.after [outcome], rest.2)
      else
        let inner := body.meaning m
        let outcome := ending inner.2 key reading inner.1.failure
        let rest := (next outcome).meaning inner.2
        (rest.1.after (inner.1.answers ++ [outcome]), rest.2) := rfl

theorem meaning_of_found {m : TtlMap} {key : String} (held : (m.held key).isSome = true)
    (reading : Reading) (body : Program) (next : Outcome → Program) :
    (remember key reading body next).meaning m =
      (((next (m.call (.get key reading)).1).meaning m).1.after [(m.call (.get key reading)).1],
        ((next (m.call (.get key reading)).1).meaning m).2) := by
  rw [meaning_of_remember, if_pos held]

theorem meaning_of_missing {m : TtlMap} {key : String} (held : m.held key = none)
    (reading : Reading) (body : Program) (next : Outcome → Program) {outcome : Outcome}
    (ends : ending (body.meaning m).2 key reading (body.meaning m).1.failure = outcome) :
    (remember key reading body next).meaning m =
      (((next outcome).meaning (body.meaning m).2).1.after
          ((body.meaning m).1.answers ++ [outcome]),
        ((next outcome).meaning (body.meaning m).2).2) := by
  subst ends
  have absent : ¬(m.held key).isSome = true := by simp [held]
  rw [meaning_of_remember, if_neg absent]

end Program

/-- A client that keeps to common calls and does not have a key filled while it is filling it. -/
def Program.Lawful : Program → List String → Prop
  | .done _, _ => True
  | .wait _ next, filling => next.Lawful filling
  | .call asked next, filling => asked.Common ∧ ∀ outcome, (next outcome).Lawful filling
  | .remember key reading body next, filling =>
    key ∉ filling ∧ reading ≠ .whole ∧ body.Lawful (key :: filling) ∧
      ∀ outcome, (next outcome).Lawful filling

end ExpiringCache
