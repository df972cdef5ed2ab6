import ExpiringCache.Proofs.Store.Live
/-!
Transactions against a table that is changed in place. A transaction holds its changes back over a
table that nobody touches; the calls inside it are told what they would have been told if each had
changed the table at once, and a transaction that ends well leaves that very table behind. One that
fails leaves everything as it was.
-/

namespace ExpiringCache

/-- What is done inside a transaction: calls, each of which may depend on what the ones before it
were told, and an outcome in the end. -/
inductive Body (α : Type) where
  | done (outcome : Except CacheError α)
  | call (asked : Call) (next : CallAnswer → Body α)

/-- What the calls of a body were told, the outcome, and the state they leave. -/
structure Trace (α σ : Type) where
  answers : List CallAnswer
  outcome : Except CacheError α
  state : σ

def Trace.after {α σ : Type} (trace : Trace α σ) (answer : CallAnswer) : Trace α σ :=
  { trace with answers := answer :: trace.answers }

/-- Performs a call on the table itself. Entries that are over show nothing, but only a new value or
a full deletion takes them out. -/
def Call.inPlace (now : Instant) (entries : Table Entry) (call : Call) :
    CallAnswer × Table Entry :=
  let live? := fun key => (entries.get? key).filter fun e => !e.isExpired now
  match call with
  | .get key => (.payload ((live? key).map (·.payload)), entries)
  | .exists key => (.flag (live? key).isSome, entries)
  | .set key payload ttl => (.flag (live? key).isSome, entries.put key (.write payload now ttl))
  | .delete key =>
    match live? key with
    | some e => (.deleted (.ok e.payload), entries.erase key)
    | none => (.deleted (.error (.notFound key)), entries)
  | .deleteAll => (.done, .empty)

namespace Body

variable {α : Type}

def inPlace (now : Instant) (entries : Table Entry) : Body α → Trace α (Table Entry)
  | .done outcome => ⟨[], outcome, entries⟩
  | .call asked next =>
    let (answer, entries) := asked.inPlace now entries
    ((next answer).inPlace now entries).after answer

def within (tx : Transaction) : Body α → Trace α Transaction
  | .done outcome => ⟨[], outcome, tx⟩
  | .call asked next =>
    let (answer, tx) := tx.perform asked
    ((next answer).within tx).after answer

/-- Calls in order, the failure coming at the end. If `strict`, the first call that fails is the
last one. -/
def ofCalls (strict : Bool) (failure : Option CacheError) : List Call → Body Unit
  | [] => .done (failure.elim (.ok ()) .error)
  | asked :: calls => .call asked fun answer =>
    match answer.error? with
    | some e => if strict then .done (.error e) else ofCalls strict failure calls
    | none => ofCalls strict failure calls

def run (body : Body α) (tx : Transaction) : Except CacheError (α × Transaction) :=
  (body.within tx).outcome.map fun answer => (answer, (body.within tx).state)

end Body

/-! ### One call -/

structure Transaction.Mirrors (tx : Transaction) (now : Instant) (entries : Table Entry) :
    Prop where
  now : tx.now = now
  entry : ∀ k, tx.entry? k = entries.get? k

namespace Transaction

variable {tx : Transaction} {now : Instant} {entries : Table Entry}

theorem start_mirrors (entries : Table Entry) (now : Instant) :
    (start entries now).Mirrors now entries := ⟨rfl, fun _ => rfl⟩

theorem live_of_mirrors (mirrors : tx.Mirrors now entries) (key : String) :
    tx.live? key = (entries.get? key).filter fun e => !e.isExpired now := by
  rw [live?, mirrors.entry, mirrors.now]

theorem change_mirrors (mirrors : tx.Mirrors now entries) (key : String) (change : Option Entry) :
    ({ tx with pending := tx.pending.put key change } : Transaction).Mirrors now
      (applyChange entries key change) where
  now := mirrors.now
  entry := by
    intro k
    rw [entry_of_change, apply_change_get, mirrors.entry]

theorem delete_all_mirrors (mirrors : tx.Mirrors now entries) : tx.deleteAll.Mirrors now .empty :=
  ⟨mirrors.now, fun _ => rfl⟩

theorem perform_mirrors (mirrors : tx.Mirrors now entries) (call : Call) :
    (tx.perform call).1 = (call.inPlace now entries).1 ∧
      (tx.perform call).2.Mirrors now (call.inPlace now entries).2 := by
  cases call with
  | get key =>
      simp only [perform, Call.inPlace, get?, live_of_mirrors mirrors]
      exact ⟨trivial, mirrors⟩
  | «exists» key =>
      simp only [perform, Call.inPlace, isLive, live_of_mirrors mirrors]
      exact ⟨trivial, mirrors⟩
  | set key payload ttl =>
      have changed := change_mirrors mirrors key (some (.write payload tx.now ttl))
      rw [mirrors.now] at changed
      simp only [perform, Call.inPlace, set, isLive, live_of_mirrors mirrors, mirrors.now]
      exact ⟨trivial, changed⟩
  | delete key =>
      simp only [perform, Call.inPlace, delete, get?, live_of_mirrors mirrors]
      cases (entries.get? key).filter fun e => !e.isExpired now with
      | some e => exact ⟨rfl, change_mirrors mirrors key none⟩
      | none => exact ⟨rfl, mirrors⟩
  | deleteAll => exact ⟨rfl, delete_all_mirrors mirrors⟩

end Transaction

/-! ### Whole transactions -/

namespace Body

variable {α : Type}

theorem within_mirrors (body : Body α) :
    ∀ {tx : Transaction} {now : Instant} {entries : Table Entry}, tx.Mirrors now entries →
      (body.within tx).answers = (body.inPlace now entries).answers ∧
        (body.within tx).outcome = (body.inPlace now entries).outcome ∧
        (body.within tx).state.Mirrors now (body.inPlace now entries).state := by
  induction body with
  | done outcome =>
      intro tx now entries mirrors
      exact ⟨rfl, rfl, mirrors⟩
  | call asked next ih =>
      intro tx now entries mirrors
      obtain ⟨told, mirrors⟩ := Transaction.perform_mirrors mirrors asked
      obtain ⟨answers, outcome, mirrors⟩ := ih (asked.inPlace now entries).1 mirrors
      rw [within, inPlace]
      simp only [told, Trace.after]
      exact ⟨congrArg (_ :: ·) answers, outcome, mirrors⟩

end Body

namespace Store

variable {α : Type}

theorem update_of_success {store : Store} {now : Instant} {body : Body α} {answer : α}
    (succeeds : (body.within (.start store.entries now)).outcome = .ok answer) :
    store.update now body.run =
      (.ok answer, store.commit (body.within (.start store.entries now)).state) := by
  simp only [update, Body.run, succeeds, Except.map]

theorem update_of_failure {store : Store} {now : Instant} {body : Body α} {e : CacheError}
    (fails : (body.within (.start store.entries now)).outcome = .error e) :
    store.update now body.run = (.error e, store) := by
  simp only [update, Body.run, fails, Except.map]

/-- A transaction is told what it would be told in place. If it ends well, the table is the one that
was changed in place, row for row; if it fails, the store is as before, counters included. -/
theorem update_is_atomic_and_in_place (store : Store) (now : Instant) (body : Body α) :
    (body.within (.start store.entries now)).answers =
        (body.inPlace now store.entries).answers ∧
      (store.update now body.run).1 = (body.inPlace now store.entries).outcome ∧
      match (body.inPlace now store.entries).outcome with
      | .ok _ => (store.update now body.run).2.entries.rows.Perm
          (body.inPlace now store.entries).state.rows
      | .error _ => (store.update now body.run).2 = store := by
  obtain ⟨answers, outcome, mirrors⟩ :=
    body.within_mirrors (Transaction.start_mirrors store.entries now)
  refine ⟨answers, ?_⟩
  cases ends : (body.inPlace now store.entries).outcome with
  | error e =>
      rw [ends] at outcome
      rw [update_of_failure outcome]
      exact ⟨rfl, rfl⟩
  | ok answer =>
      rw [ends] at outcome
      rw [update_of_success outcome]
      refine ⟨rfl, Table.rows_perm ?_⟩
      intro k
      change (Transaction.outcome _).get? k = _
      rw [Transaction.outcome_get, mirrors.entry]

/-! ### Lists of calls -/

/-- What the calls of a list fail with, the last of them being the one that counts. -/
theorem within_of_calls (strict : Bool) (failure : Option CacheError) (calls : List Call) :
    ∀ tx : Transaction,
      ((Body.ofCalls strict failure calls).within tx).answers = (tx.performAll strict calls).1 ∧
        ((Body.ofCalls strict failure calls).within tx).state = (tx.performAll strict calls).2 ∧
        ((Body.ofCalls strict failure calls).within tx).outcome =
          ((if strict then (tx.performAll strict calls).1.getLast?.bind CallAnswer.error?
            else none) <|> failure).elim (.ok ()) .error := by
  induction calls with
  | nil =>
      intro tx
      cases strict <;> exact ⟨rfl, rfl, rfl⟩
  | cons asked rest ih =>
      intro tx
      obtain ⟨answers, state, outcome⟩ := ih (tx.perform asked).2
      simp only [Body.ofCalls, Body.within, Transaction.performAll, Trace.after]
      cases failed : (tx.perform asked).1.error? with
      | none =>
          simp only [Option.isSome_none, Bool.and_false, Bool.false_eq_true, if_false]
          refine ⟨congrArg _ answers, state, outcome.trans ?_⟩
          -- A call that did not fail counts for nothing, also where it is the last one.
          rw [List.getLast?_cons]
          cases last : ((tx.perform asked).2.performAll strict rest).1.getLast? with
          | none => simp [failed]
          | some answer => rfl
      | some e =>
          cases strict with
          | true => simp [Body.within, failed]
          | false =>
              simp only [Bool.false_and, Bool.false_eq_true, if_false] at outcome ⊢
              exact ⟨congrArg _ answers, state, outcome⟩

theorem transact_is_update (store : Store) (now : Instant) (calls : List Call) (strict : Bool)
    (failure : Option CacheError) :
    store.transact now calls strict failure =
      (((Body.ofCalls strict failure calls).within (.start store.entries now)).answers,
        store.update now (Body.ofCalls strict failure calls).run) := by
  obtain ⟨answers, state, outcome⟩ :=
    within_of_calls strict failure calls (.start store.entries now)
  simp only [transact]
  generalize ((if strict then _ else none) <|> failure : Option CacheError) = failed at outcome ⊢
  cases failed with
  | some e => rw [update_of_failure outcome, answers]
  | none => rw [update_of_success outcome, answers, state]

end Store

end ExpiringCache
