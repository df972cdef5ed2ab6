import ExpiringCache.Journal
import ExpiringCache.Store.Transaction
/-!
The operations that every cache answers, whatever keeps its values, and how an embedded store
answers them: each in one transaction.
-/

namespace ExpiringCache

/-- What the bytes of a value are to be read as. -/
inductive Reading where
  | bytes
  | text
  | whole
  | json (shape : Json.Shape)

inductive Value where
  | done
  | flag (b : Bool)
  | bytes (payload : Payload)
  | text (s : String)
  | whole (n : Int)
  | json (value : Json)

abbrev Outcome := Except CacheError Value

def Reading.of (reading : Reading) (key : String) (payload : Payload) : Outcome :=
  match reading with
  | .bytes => .ok (.bytes payload)
  | .text => (payload.asText key).map .text
  | .whole => (payload.asInt64 key).map .whole
  | .json shape => (payload.asJson shape key).map .json

/-- An operation of a cache. A time to live of zero stands for no expiry. -/
inductive Operation where
  | get (key : String) (reading : Reading)
  | exists (key : String)
  | set (key : String) (payload : Payload) (ttl : Duration)
  | setIfAbsent (key : String) (payload : Payload) (ttl : Duration)
  | delete (key : String)
  | clear

namespace Store

def fetch (store : Store) (now : Instant) (key : String) (reading : Reading) : Outcome × Store :=
  let (found, store) := store.read now key
  (found.bind (reading.of key), store)

def perform (store : Store) (now : Instant) : Operation → Outcome × List Event × Store
  | .get key reading =>
    let (outcome, store) := store.fetch now key reading
    (outcome, [], store)
  | .exists key => (.ok (.flag (store.isLive now key)), [], store)
  | .set key payload ttl =>
    match store.update now fun tx => .ok (tx.set key payload ttl.ttl?) with
    | (.ok replaced, store) => (.ok .done, [.stored key replaced ttl.ttl?], store)
    | (.error e, store) => (.error e, [], store)
  | .setIfAbsent key payload ttl =>
    let (outcome, store) := store.update now fun tx =>
      if tx.isLive key then .ok (false, tx) else .ok (true, (tx.set key payload ttl.ttl?).2)
    (outcome.map .flag, [], store)
  | .delete key =>
    match store.update now (·.delete key) with
    | (.ok _, store) | (.error (.notFound _), store) => (.ok .done, [], store)
    | (.error e, store) => (.error e, [], store)
  | .clear =>
    match store.update now fun tx => .ok ((), tx.deleteAll) with
    | (.ok (), store) => (.ok .done, [.cleared], store)
    | (.error e, store) => (.error e, [], store)

end Store

end ExpiringCache
