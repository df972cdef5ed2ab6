import ExpiringCache.Cache.Basic
/-!
Callers of a cache, as they see it. A caller hands over a value in one of three forms and asks by a
call; what the cache is asked to do, or why it is not asked at all, follows from the call alone.
-/

namespace ExpiringCache

inductive Given where
  | bytes (payload : Payload)
  | text (s : String)
  | object (document : Document)

def Given.payload : Given → Except CacheError Payload
  | .bytes payload => .ok payload
  | .text s => .ok (Payload.ofText s)
  | .object document => Payload.ofDocument document

inductive HandleCall where
  | store (key : String) (value : Given) (ttl : Duration) (ifAbsent : Bool)
  | get (key : String) (reading : Reading)
  | exists (key : String)
  | delete (key : String)
  | clear

def HandleCall.operation : HandleCall → Except CacheError Operation
  | .store key value ttl ifAbsent =>
    value.payload.map fun payload =>
      if ifAbsent then .setIfAbsent key payload ttl else .set key payload ttl
  | .get key reading => .ok (.get key reading)
  | .exists key => .ok (.exists key)
  | .delete key => .ok (.delete key)
  | .clear => .ok .clear

theorem HandleCall.operation_of_store {key : String} {value : Given} {ttl : Duration}
    {ifAbsent : Bool} {operation : Operation}
    (asks : (HandleCall.store key value ttl ifAbsent).operation = .ok operation) :
    ∃ payload, value.payload = .ok payload ∧
      operation = if ifAbsent then .setIfAbsent key payload ttl else .set key payload ttl := by
  simp only [HandleCall.operation] at asks
  cases encoded : value.payload with
  | error e =>
      rw [encoded] at asks
      cases asks
  | ok payload =>
      rw [encoded] at asks
      cases asks
      exact ⟨payload, rfl, rfl⟩

def Progress.outcome? : Progress → Option Outcome
  | .finished outcome => some outcome
  | _ => none

namespace Cache

variable {ι : Type}

def swept (c : Cache ι) (now : Instant) : Cache ι :=
  match c.store? with
  | some store => c.withStore (store.sweep now).2
  | none => c

def timeLeft (c : Cache ι) (now : Instant) (key : String) : Except CacheError (Option Duration) :=
  match c.store?.bind fun store => store.timeLeft? now key with
  | some left => .ok left
  | none => .error (.notFound key)

variable [DecidableEq ι]

def call (c : Cache ι) (now : Instant) (id : ι) (call : HandleCall) : Option Outcome × Cache ι :=
  match call.operation with
  | .ok operation =>
    let reaction := c.start now id (.operate operation)
    (reaction.progress.outcome?, reaction.state)
  | .error e => (some (.error e), c)

theorem call_of_embedded (c : EmbeddedCache ι) (now : Instant) (id : ι) {asked : HandleCall}
    {operation : Operation} (asks : asked.operation = .ok operation) :
    (embedded c).call now id asked =
      (some (c.store.perform now operation).1,
        .embedded { c with store := (c.store.perform now operation).2.2 }) := by
  unfold call
  rw [asks]
  rfl

theorem call_without_encoding (c : Cache ι) (now : Instant) (id : ι) {asked : HandleCall}
    {e : CacheError} (refused : asked.operation = .error e) :
    c.call now id asked = (some (.error e), c) := by
  unfold call
  rw [refused]

end Cache

end ExpiringCache
