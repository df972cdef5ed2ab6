import ExpiringCache.Store.Basic
/-!
Write transactions. Changes are held back until the transaction ends well and are then applied
together; reads inside the transaction see them at once.
-/

namespace ExpiringCache

/-- A transaction on a table at an instant: whether everything was deleted, and the changes made
since, where `none` stands for a deleted key. -/
structure Transaction where
  base : Table Entry
  cleared : Bool
  pending : Table (Option Entry)
  now : Instant

namespace Transaction

def start (base : Table Entry) (now : Instant) : Transaction := ⟨base, false, .empty, now⟩

/-- The entry that a key has inside the transaction, over or not. -/
def entry? (tx : Transaction) (key : String) : Option Entry :=
  match tx.pending.get? key with
  | some change => change
  | none => if tx.cleared then none else tx.base.get? key

def live? (tx : Transaction) (key : String) : Option Entry :=
  (tx.entry? key).filter fun e => !e.isExpired tx.now

def get? (tx : Transaction) (key : String) : Option Payload := (tx.live? key).map (·.payload)

def isLive (tx : Transaction) (key : String) : Bool := (tx.live? key).isSome

def set (tx : Transaction) (key : String) (payload : Payload) (ttl : Option Duration) :
    Bool × Transaction :=
  (tx.isLive key, { tx with pending := tx.pending.put key (some (.write payload tx.now ttl)) })

def delete (tx : Transaction) (key : String) : Except CacheError (Payload × Transaction) :=
  match tx.get? key with
  | some payload => .ok (payload, { tx with pending := tx.pending.put key none })
  | none => .error (.notFound key)

def deleteAll (tx : Transaction) : Transaction := { tx with cleared := true, pending := .empty }

def applyChange (entries : Table Entry) (key : String) : Option Entry → Table Entry
  | some e => entries.put key e
  | none => entries.erase key

def outcome (tx : Transaction) : Table Entry :=
  tx.pending.rows.foldl (fun entries change => applyChange entries change.1 change.2)
    (if tx.cleared then .empty else tx.base)

def writes (tx : Transaction) : Nat := (tx.pending.rows.filter fun row => row.2.isSome).length

end Transaction

namespace Store

/-- Makes a transaction's changes at once and counts them. -/
def commit (store : Store) (tx : Transaction) : Store :=
  let entries := tx.outcome
  ⟨entries, (store.stats.recordWrites tx.writes).setTotalEntries entries.size⟩

/-- Runs a body in a transaction; if it fails the store stays as it was. -/
def update {α : Type} (store : Store) (now : Instant)
    (body : Transaction → Except CacheError (α × Transaction)) : Except CacheError α × Store :=
  match body (.start store.entries now) with
  | .ok (answer, tx) => (.ok answer, store.commit tx)
  | .error e => (.error e, store)

end Store

/-! ### Transactions as lists of calls -/

inductive Call where
  | get (key : String)
  | exists (key : String)
  | set (key : String) (payload : Payload) (ttl : Option Duration)
  | delete (key : String)
  | deleteAll

inductive CallAnswer where
  | payload (found : Option Payload)
  | flag (b : Bool)
  | deleted (outcome : Except CacheError Payload)
  | done

namespace CallAnswer

def error? : CallAnswer → Option CacheError
  | .deleted (.error e) => some e
  | _ => none

end CallAnswer

namespace Transaction

def perform (tx : Transaction) : Call → CallAnswer × Transaction
  | .get key => (.payload (tx.get? key), tx)
  | .exists key => (.flag (tx.isLive key), tx)
  | .set key payload ttl =>
    let (replaced, tx) := tx.set key payload ttl
    (.flag replaced, tx)
  | .delete key =>
    match tx.delete key with
    | .ok (payload, tx) => (.deleted (.ok payload), tx)
    | .error e => (.deleted (.error e), tx)
  | .deleteAll => (.done, tx.deleteAll)

/-- Performs calls in order. If `strict`, the first call that fails is the last one. -/
def performAll (strict : Bool) (tx : Transaction) : List Call → List CallAnswer × Transaction
  | [] => ([], tx)
  | call :: calls =>
    let (answer, tx) := tx.perform call
    if strict && answer.error?.isSome then ([answer], tx)
    else
      let (answers, tx) := performAll strict tx calls
      (answer :: answers, tx)

end Transaction

namespace Store

/-- Runs calls as one transaction. It fails with the last call's error if `strict`, and otherwise
with `failure` if there is one. The answers of the calls come in either case. -/
def transact (store : Store) (now : Instant) (calls : List Call) (strict : Bool)
    (failure : Option CacheError) : List CallAnswer × Except CacheError Unit × Store :=
  let (answers, tx) := (Transaction.start store.entries now).performAll strict calls
  let failed := if strict then answers.getLast?.bind CallAnswer.error? else none
  match failed <|> failure with
  | some e => (answers, .error e, store)
  | none => (answers, .ok (), store.commit tx)

end Store

/-! ### Read transactions -/

inductive ReadCall where
  | get (key : String)
  | exists (key : String)
  | timeLeft (key : String)

inductive ReadAnswer where
  | payload (outcome : Except CacheError Payload)
  | flag (b : Bool)
  | timeLeft (left : Option (Option Duration))

namespace ReadAnswer

def error? : ReadAnswer → Option CacheError
  | .payload (.error e) => some e
  | _ => none

end ReadAnswer

namespace Store

def view (store : Store) (now : Instant) : ReadCall → ReadAnswer × Store
  | .get key =>
    let (outcome, store) := store.read now key
    (.payload outcome, store)
  | .exists key => (.flag (store.isLive now key), store)
  | .timeLeft key => (.timeLeft (store.timeLeft? now key), store)

/-- Reads in order at one instant. If `strict`, the first read that fails is the last one. -/
def viewAll (strict : Bool) (store : Store) (now : Instant) :
    List ReadCall → List ReadAnswer × Store
  | [] => ([], store)
  | call :: calls =>
    let (answer, store) := store.view now call
    if strict && answer.error?.isSome then ([answer], store)
    else
      let (answers, store) := viewAll strict store now calls
      (answer :: answers, store)

end Store

end ExpiringCache
