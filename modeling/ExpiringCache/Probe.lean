import ExpiringCache.Journal
import ExpiringCache.Operation
import ExpiringCache.Remote.Opening
/-!
The probe that a process runs when it starts: it opens its two caches as the environment says and
puts each through a round of writing, reading and deleting a key.
-/

namespace ExpiringCache.Probe

def key : String := "startup-probe"

/-- How long the key would stay if a probe stopped halfway. -/
def ttl : Duration := .ofMillis 30000

/-- Why a start-up failed: its messages, outermost first. -/
abbrev Failure := List String

/-- An operation of a probe, whose failure has a text of its own. -/
def step (store : Store) (operation : Operation) (failing : List String) :
    Except Failure Value × List Event × Store :=
  let (outcome, events, store) := store.perform .start operation
  match outcome with
  | .ok value => (.ok value, events, store)
  | .error e => (.error (failing ++ e.messages), events, store)

/-- Writes a stamp, reads it back and deletes it. Gives what is wrong, if anything is. -/
def round (label stamp : String) (store : Store) : Option Failure × List Event :=
  match step store (.set key (Payload.ofText stamp) ttl) [label ++ " cache: write failed"] with
  | (.error failure, events, _) => (some failure, events)
  | (.ok _, events, store) =>
    match step store (.get key .text) [label ++ " cache: read failed"] with
    | (.error failure, _, _) => (some failure, events)
    | (.ok value, _, store) =>
      let found := match value with
        | .text s => s
        | _ => ""
      if found ≠ stamp then
        (some [label ++ " cache: read back '" ++ found ++ "', expected '" ++ stamp ++ "'"], events)
      else
        match step store (.delete key) [] with
        | (.error failure, _, _) => (some failure, events)
        | (.ok _, _, store) =>
          match step store (.exists key) [] with
          | (.error failure, _, _) => (some failure, events)
          | (.ok (.flag true), _, _) =>
            (some [label ++ " cache: probe key survived delete"], events)
          | (.ok _, _, _) => (none, events)

/-- Probes an embedded cache that has just been made. -/
def probe (label stamp : String) : Option Failure × List Event :=
  match round label stamp .empty with
  | (none, events) => (none, .embeddedReady label :: events ++ [.probed label .memory])
  | (some failure, events) => (some failure, .embeddedReady label :: events)

def unavailable (reaction : OpeningReaction) : Option Failure × List Event :=
  match reaction.next with
  | .failed e => (some ("default cache unavailable" :: e.messages), reaction.events)
  | _ => (none, reaction.events)

/-- Opens and probes the caches that settings ask for. No server can be reached from here, for the
reason given. -/
def caches (settings : Settings) (stamp unreachable : String) : Option Failure × List Event :=
  match settings.backend with
  | .memory =>
    match probe "default" stamp with
    | (some failure, events) => (some failure, events)
    | (none, events) =>
      let (failure, more) := probe "auxiliary" stamp
      (failure, events ++ more)
  | .redis =>
    let opening := Opening.start settings.remote
    match opening.next with
    | .reach o =>
      let (failure, events) := unavailable (o.reached (.error (.unreachable unreachable)))
      (failure, opening.events ++ events)
    | _ => unavailable opening

/-- All that is reported at start-up, and whether it failed. -/
def startUp (env : Environment) (stamp unreachable : String) : Bool × List Event :=
  let settings := Settings.ofEnvironment env
  let complaint := (Settings.backendOf env).2.toList.map Event.unknownBackend
  let (failure, events) := caches settings stamp unreachable
  let last := match failure with
    | none => Event.probesDone
    | some messages => .startupFailed (": ".intercalate messages)
  (failure.isSome, complaint ++ .configured settings :: events ++ [last])

/-- The lines shown at start-up and the exit code. `shown` is the setting of what to show. -/
def lines (env : Environment) (shown : Option (List UInt8)) (stamp unreachable : String) :
    Nat × List String :=
  let filter := match shown.bind fun bytes => (Text.Utf8.decode bytes).toOption with
    | some text => Filter.parse text
    | none => Filter.defaults
  let (failed, events) := startUp env stamp unreachable
  (if failed then 1 else 0, (events.filter filter.shows).map (·.line))

end ExpiringCache.Probe
