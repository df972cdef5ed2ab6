import Mathlib.Data.List.Dedup
import ExpiringCache.Proofs.Store.InPlace
/-!
The counters of a store against its history. A run over a store leaves a record of what its
transactions, views and sweeps were told; the counters are sums over the record. Every entry that
was ever written is still stored, has been swept, or was discarded by a transaction that ended well.
-/

namespace ExpiringCache

/-! ### What transactions make of keys -/

inductive Change where
  | set
  | removed
  deriving DecidableEq

abbrev Told := Call × CallAnswer

def Told.change? (key : String) : Told → Option Change
  | (.set k _ _, _) => if k = key then some .set else none
  | (.delete k, .deleted (.ok _)) => if k = key then some .removed else none
  | (.deleteAll, _) => some .removed
  | _ => none

def lastChange (key : String) : List Told → Option Change
  | [] => none
  | told :: later => (lastChange key later).or (told.change? key)

def Told.setKey? : Told → Option String
  | (.set key _ _, _) => some key
  | _ => none

def keysLeftSet (calls : List Told) : List String :=
  (calls.filterMap Told.setKey?).dedup.filter fun key => lastChange key calls = some .set

/-- The keys of a table that calls have made something of: what was stored there is discarded. -/
def keysDiscarded (before : Table Entry) (calls : List Told) : List String :=
  before.keys.filter fun key => (lastChange key calls).isSome

def Body.told {α : Type} : Body α → List CallAnswer → List Told
  | .call asked next, answer :: answers => (asked, answer) :: (next answer).told answers
  | _, _ => []

/-! ### Runs over a store -/

/-- What is done inside a read transaction: reads, each of which may depend on what the ones before
it found, and an outcome in the end. -/
inductive ReadBody (α : Type) where
  | done (outcome : Except CacheError α)
  | read (asked : ReadCall) (next : ReadAnswer → ReadBody α)

/-- What a view has found, how it ended, and the store with its reads counted. -/
structure Sight (α : Type) where
  answers : List ReadAnswer
  outcome : Except CacheError α
  store : Store

def Store.look {α : Type} (store : Store) (now : Instant) : ReadBody α → Sight α
  | .done outcome => ⟨[], outcome, store⟩
  | .read asked next =>
    let (answer, store) := store.view now asked
    let sight := store.look now (next answer)
    { sight with answers := answer :: sight.answers }

def ReadBody.ofCalls (strict : Bool) : List ReadCall → ReadBody Unit
  | [] => .done (.ok ())
  | asked :: calls => .read asked fun answer =>
    match answer.error? with
    | some e => if strict then .done (.error e) else ofCalls strict calls
    | none => ofCalls strict calls

theorem Store.view_all_is_look (strict : Bool) (now : Instant) (calls : List ReadCall) :
    ∀ store : Store, store.viewAll strict now calls =
      ((store.look now (.ofCalls strict calls)).answers,
        (store.look now (.ofCalls strict calls)).store) := by
  induction calls with
  | nil =>
      intro store
      rfl
  | cons asked rest ih =>
      intro store
      simp only [viewAll, ReadBody.ofCalls, look]
      cases failed : (store.view now asked).1.error? with
      | none =>
          simp only [Option.isSome_none, Bool.and_false, Bool.false_eq_true, if_false]
          rw [ih]
      | some e =>
          cases strict with
          | true => rfl
          | false =>
              simp only [Bool.false_and, Bool.false_eq_true, if_false]
              rw [ih]

inductive StoreEvent (α : Type) where
  | update (body : Body α)
  | view (body : ReadBody α)
  | sweep
  | advance (length : Duration)

inductive Record where
  | committed (before : Table Entry) (calls : List Told)
  | undone
  | viewed (answers : List ReadAnswer)
  | swept (removed : Nat)

/-- The record of a run over a store, and the store after it. A run may be cut off anywhere, in a
view too, whose later reads are then left out. -/
def Store.history {α : Type} (store : Store) (now : Instant) :
    List (StoreEvent α) → List Record × Store
  | [] => ([], store)
  | .update body :: rest =>
    let answers := (body.within (.start store.entries now)).answers
    let (outcome, after) := store.update now body.run
    let record := match outcome with
      | .ok _ => .committed store.entries (body.told answers)
      | .error _ => .undone
    let (records, last) := after.history now rest
    (record :: records, last)
  | .view body :: rest =>
    let sight := store.look now body
    let (records, last) := sight.store.history now rest
    (.viewed sight.answers :: records, last)
  | .sweep :: rest =>
    let (removed, after) := store.sweep now
    let (records, last) := after.history now rest
    (.swept removed :: records, last)
  | .advance length :: rest => store.history (now.later length) rest

namespace ReadAnswer

def isHit : ReadAnswer → Bool
  | .payload (.ok _) => true
  | _ => false

def isMiss : ReadAnswer → Bool
  | .payload (.error (.notFound _)) => true
  | _ => false

end ReadAnswer

namespace Record

def hits : Record → Nat
  | viewed answers => answers.countP ReadAnswer.isHit
  | _ => 0

def misses : Record → Nat
  | viewed answers => answers.countP ReadAnswer.isMiss
  | _ => 0

def writes : Record → Nat
  | committed _ calls => (keysLeftSet calls).length
  | _ => 0

def expired : Record → Nat
  | swept removed => removed
  | _ => 0

def discarded : Record → Nat
  | committed before calls => (keysDiscarded before calls).length
  | _ => 0

end Record

/-! ### One transaction -/

theorem set_key_of_change {key : String} {calls : List Told}
    (left : lastChange key calls = some .set) : key ∈ calls.filterMap Told.setKey? := by
  induction calls with
  | nil => cases left
  | cons told later ih =>
      rw [lastChange, Option.or_eq_some_iff] at left
      rw [List.mem_filterMap]
      rcases left with after | ⟨_, here⟩
      · obtain ⟨call, member, sets⟩ := List.mem_filterMap.mp (ih after)
        exact ⟨call, List.mem_cons_of_mem told member, sets⟩
      · refine ⟨told, List.mem_cons_self, ?_⟩
        unfold Told.change? at here
        split at here
        · split at here
          · next same => exact congrArg some same
          · cases here
        · split at here <;> cases here
        · cases here
        · cases here

theorem mem_left_set_iff (key : String) (calls : List Told) :
    key ∈ keysLeftSet calls ↔ lastChange key calls = some .set := by
  rw [keysLeftSet, List.mem_filter, List.mem_dedup, decide_eq_true_iff]
  exact ⟨And.right, fun left => ⟨set_key_of_change left, left⟩⟩

theorem left_set_nodup (calls : List Told) : (keysLeftSet calls).Nodup :=
  (List.nodup_dedup _).filter _

namespace Transaction

def change? (tx : Transaction) (key : String) : Option Change :=
  match tx.pending.get? key with
  | some (some _) => some .set
  | some none => some .removed
  | none => if tx.cleared then some .removed else none

theorem change_of_put (tx : Transaction) (k : String) (value : Option Entry) (key : String) :
    change? { tx with pending := tx.pending.put k value } key =
      (if k = key then some (if value.isSome then .set else .removed) else none).or
        (tx.change? key) := by
  unfold change?
  rw [Table.get_put]
  by_cases same : k = key
  · subst same
    cases value <;> simp
  · simp [same, Ne.symm same]

/-- A call adds what it made of a key to what was made of it before. -/
theorem change_of_perform (tx : Transaction) (asked : Call) (key : String) :
    (tx.perform asked).2.change? key =
      (Told.change? key (asked, (tx.perform asked).1)).or (tx.change? key) := by
  cases asked with
  | get k => rfl
  | «exists» k => rfl
  | set k payload ttl => exact change_of_put tx k _ key
  | delete k =>
      simp only [perform, delete]
      cases tx.get? k with
      | none => rfl
      | some payload => exact change_of_put tx k none key
  | deleteAll => rfl

theorem change_of_within {α : Type} (body : Body α) :
    ∀ (tx : Transaction) (key : String),
      (body.within tx).state.change? key =
        (lastChange key (body.told (body.within tx).answers)).or (tx.change? key) := by
  induction body with
  | done outcome =>
      intro tx key
      rfl
  | call asked next ih =>
      intro tx key
      rw [Body.within]
      simp only [Trace.after, Body.told, lastChange]
      rw [ih, change_of_perform, Option.or_assoc]

theorem change_eq_set_iff (tx : Transaction) (key : String) :
    tx.change? key = some .set ↔ ∃ e, tx.pending.get? key = some (some e) := by
  unfold change?
  cases tx.pending.get? key with
  | none => cases tx.cleared <;> simp
  | some value => cases value <;> simp

/-- The table after a transaction holds the keys left set and those that nothing was made of. -/
theorem mem_outcome_iff (tx : Transaction) (key : String) :
    key ∈ tx.outcome.keys ↔
      key ∈ tx.base.keys ∧ tx.change? key = none ∨ tx.change? key = some .set := by
  rw [Table.mem_keys_iff, Table.mem_keys_iff, outcome_get, entry?, change?]
  cases tx.pending.get? key with
  | none => cases tx.cleared <;> simp
  | some value => cases value <;> simp

theorem writes_eq_length (tx : Transaction) {left : List String} (distinct : left.Nodup)
    (member : ∀ key, key ∈ left ↔ tx.change? key = some .set) : tx.writes = left.length := by
  let rows := tx.pending.rows.filter fun row => row.2.isSome
  have sameKeys : (rows.map (·.1)).Perm left := by
    apply (List.perm_ext_iff_of_nodup
      (tx.pending.distinct.sublist (List.filter_sublist.map _)) distinct).mpr
    intro key
    rw [member, change_eq_set_iff]
    simp only [List.mem_map, List.mem_filter]
    constructor
    · rintro ⟨⟨k, value⟩, ⟨there, set⟩, rfl⟩
      obtain ⟨e, rfl⟩ := Option.isSome_iff_exists.mp set
      exact ⟨e, (tx.pending.mem_rows_iff_get k _).mp there⟩
    · rintro ⟨e, found⟩
      exact ⟨(key, some e), ⟨(tx.pending.mem_rows_iff_get key _).mpr found, rfl⟩, rfl⟩
  rw [← sameKeys.length_eq, List.length_map]
  rfl

/-- What a table holds after a transaction, what it has lost and what it has gained. -/
theorem size_of_outcome (tx : Transaction) {left : List String} (distinct : left.Nodup)
    (member : ∀ key, key ∈ left ↔ tx.change? key = some .set) :
    tx.outcome.size + (tx.base.keys.filter fun key => (tx.change? key).isSome).length =
      tx.base.size + left.length := by
  let kept := tx.base.keys.filter fun key => !(tx.change? key).isSome
  have split : tx.base.keys.length =
      (tx.base.keys.filter fun key => (tx.change? key).isSome).length +
      kept.length := List.length_eq_length_filter_add _
  have sameKeys : tx.outcome.keys.Perm (kept ++ left) := by
    apply (List.perm_ext_iff_of_nodup tx.outcome.nodup_keys ?_).mpr
    · intro key
      rw [mem_outcome_iff, List.mem_append, member, List.mem_filter]
      simp
    · apply List.Nodup.append (tx.base.nodup_keys.filter _) distinct
      intro key inKept inLeft
      rw [member] at inLeft
      simp [inLeft] at inKept
  have sizes := sameKeys.length_eq
  rw [List.length_append] at sizes
  rw [Table.size_eq, Table.size_eq]
  omega

theorem base_of_perform (tx : Transaction) (asked : Call) :
    (tx.perform asked).2.base = tx.base := by
  cases asked with
  | delete key =>
      simp only [perform, delete]
      cases tx.get? key <;> rfl
  | _ => rfl

theorem base_of_within {α : Type} (body : Body α) :
    ∀ tx : Transaction, (body.within tx).state.base = tx.base := by
  induction body with
  | done outcome =>
      intro tx
      rfl
  | call asked next ih =>
      intro tx
      exact (ih _ (tx.perform asked).2).trans (tx.base_of_perform asked)

end Transaction

namespace Store

variable {α : Type} (store : Store) (now : Instant)

/-- What a transaction that ends well adds to the counters, and what it discards. -/
theorem commit_accounts (body : Body α) :
    let calls := body.told (body.within (.start store.entries now)).answers
    let tx := (body.within (.start store.entries now)).state
    tx.writes = (keysLeftSet calls).length ∧
      (store.commit tx).size + (keysDiscarded store.entries calls).length =
        store.size + tx.writes := by
  intro calls tx
  have change : ∀ key, tx.change? key = lastChange key calls := by
    intro key
    exact (Transaction.change_of_within body _ key).trans Option.or_none
  have member : ∀ key, key ∈ keysLeftSet calls ↔ tx.change? key = some .set := by
    intro key
    rw [change, mem_left_set_iff]
  have base : tx.base = store.entries := Transaction.base_of_within body _
  have size := tx.size_of_outcome (left_set_nodup calls) member
  have writes := tx.writes_eq_length (left_set_nodup calls) member
  refine ⟨writes, ?_⟩
  rw [writes]
  simp only [change, base] at size
  exact size

structure Gains (store : Store) (record : Record) (after : Store) : Prop where
  hits : after.stats.hits = store.stats.hits + record.hits
  misses : after.stats.misses = store.stats.misses + record.misses
  writes : after.stats.writes = store.stats.writes + record.writes
  expired : after.stats.expired = store.stats.expired + record.expired
  size : after.size + record.expired + record.discarded = store.size + record.writes

theorem update_gains (body : Body α) :
    let calls := body.told (body.within (.start store.entries now)).answers
    store.Gains
      (match (store.update now body.run).1 with
        | .ok _ => .committed store.entries calls
        | .error _ => .undone)
      (store.update now body.run).2 := by
  intro calls
  cases ends : (body.within (.start store.entries now)).outcome with
  | error e =>
      rw [update_of_failure ends]
      exact ⟨rfl, rfl, rfl, rfl, rfl⟩
  | ok answer =>
      obtain ⟨writes, size⟩ := store.commit_accounts now body
      rw [update_of_success ends]
      refine ⟨rfl, rfl, congrArg _ writes, rfl, ?_⟩
      exact size.trans (congrArg _ writes)

/-- A read is a hit or a miss if it is for a payload, and counts for nothing otherwise. -/
theorem view_gains (asked : ReadCall) :
    store.Gains (.viewed [(store.view now asked).1]) (store.view now asked).2 := by
  cases asked with
  | get key =>
      simp only [view, read]
      cases store.live? now key <;> exact ⟨rfl, rfl, rfl, rfl, rfl⟩
  | «exists» key => exact ⟨rfl, rfl, rfl, rfl, rfl⟩
  | timeLeft key => exact ⟨rfl, rfl, rfl, rfl, rfl⟩

theorem views_gain {between after : Store} {answer : ReadAnswer} {answers : List ReadAnswer}
    (first : store.Gains (.viewed [answer]) between)
    (others : between.Gains (.viewed answers) after) :
    store.Gains (.viewed (answer :: answers)) after where
  hits := by
    rw [others.hits, first.hits, Nat.add_assoc]
    exact congrArg _ List.countP_append.symm
  misses := by
    rw [others.misses, first.misses, Nat.add_assoc]
    exact congrArg _ List.countP_append.symm
  writes := others.writes.trans first.writes
  expired := others.expired.trans first.expired
  size := others.size.trans first.size

theorem look_gains (body : ReadBody α) :
    ∀ store : Store,
      store.Gains (.viewed (store.look now body).answers) (store.look now body).store := by
  induction body with
  | done outcome =>
      intro store
      exact ⟨rfl, rfl, rfl, rfl, rfl⟩
  | read asked next ih =>
      intro store
      exact store.views_gain (store.view_gains now asked) (ih _ _)

theorem sweep_gains : store.Gains (.swept (store.sweep now).1) (store.sweep now).2 := by
  refine ⟨rfl, rfl, rfl, rfl, ?_⟩
  have fewer : (store.entries.keep fun _ e => !e.isExpired now).size ≤ store.size :=
    List.length_filter_le _ _
  exact Nat.add_sub_cancel' fewer

/-! ### Whole runs -/

/-- The counters of a store say what is on record, and all that was written is still there, was
swept, or was discarded. -/
structure Accounted (store : Store) (records : List Record) : Prop where
  total : store.snapshot.totalEntries = store.size
  distinct : store.size = store.entries.keys.dedup.length
  hits : store.snapshot.hits = (records.map Record.hits).sum
  misses : store.snapshot.misses = (records.map Record.misses).sum
  writes : store.snapshot.writes = (records.map Record.writes).sum
  expired : store.snapshot.expired = (records.map Record.expired).sum
  conserved : store.snapshot.writes =
    store.size + store.snapshot.expired + (records.map Record.discarded).sum

variable {store now}

theorem accounted_of_gains {records : List Record} {record : Record} {after : Store}
    (accounted : store.Accounted records) (gains : store.Gains record after) :
    after.Accounted (records ++ [record]) := by
  have sums : ∀ count : Record → Nat,
      ((records ++ [record]).map count).sum = (records.map count).sum + count record := by
    intro count
    rw [List.map_append, List.sum_append, List.map_singleton, List.sum_singleton]
  refine ⟨rfl, ?_, ?_, ?_, ?_, ?_, ?_⟩
  · rw [after.entries.nodup_keys.dedup]
    exact after.entries.size_eq
  · rw [sums, ← accounted.hits]
    exact gains.hits
  · rw [sums, ← accounted.misses]
    exact gains.misses
  · rw [sums, ← accounted.writes]
    exact gains.writes
  · rw [sums, ← accounted.expired]
    exact gains.expired
  · have conserved := accounted.conserved
    have size := gains.size
    have writes := gains.writes
    have expired := gains.expired
    rw [sums]
    simp only [snapshot, Stats.setTotalEntries] at conserved ⊢
    omega

theorem history_accounted (events : List (StoreEvent α)) :
    ∀ {store : Store} {now : Instant} {records : List Record}, store.Accounted records →
      (store.history now events).2.Accounted (records ++ (store.history now events).1) := by
  induction events with
  | nil =>
      intro store now records accounted
      rw [history, List.append_nil]
      exact accounted
  | cons event rest ih =>
      intro store now records accounted
      have onwards : ∀ {record : Record} {after : Store}, store.Gains record after →
          (after.history now rest).2.Accounted
            (records ++ record :: (after.history now rest).1) := by
        intro record after gains
        rw [← List.singleton_append, ← List.append_assoc]
        exact ih (accounted_of_gains accounted gains)
      cases event with
      | update body => exact onwards (store.update_gains now body)
      | view body => exact onwards (look_gains now body store)
      | sweep => exact onwards (store.sweep_gains now)
      | advance length => exact ih accounted

/-- The counters of a store are exact at every point of every run, and a transaction that fails
changes none of them. -/
theorem counters_are_exact (now : Instant) (events : List (StoreEvent α)) :
    let run := empty.history now events
    run.2.Accounted run.1 ∧
      ∀ (t : Instant) (body : Body α) (e : CacheError),
        (run.2.update t body.run).1 = .error e → (run.2.update t body.run).2 = run.2 := by
  intro run
  have nothing : empty.Accounted [] := ⟨rfl, rfl, rfl, rfl, rfl, rfl, rfl⟩
  refine ⟨history_accounted events nothing, ?_⟩
  intro t body e failed
  cases ends : (body.within (.start run.2.entries t)).outcome with
  | error e' => rw [update_of_failure ends]
  | ok answer =>
      rw [update_of_success ends] at failed
      cases failed

end Store

end ExpiringCache
