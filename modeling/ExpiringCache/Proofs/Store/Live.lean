import ExpiringCache.Operation
import ExpiringCache.Proofs.Table
import ExpiringCache.Proofs.Time
/-!
What operations leave to be read. A store is compared through `live?`, the entry that a key shows at
an instant; each operation has one lemma that says what it answers and one that says what every key
shows from then on. Entries that are over may stay in the table or go, which no later instant shows.
-/

namespace ExpiringCache

theorem Entry.expired_iff_nanos (e : Entry) (now : Instant) :
    e.isExpired now = true ↔ ∃ deadline, e.deadline = some deadline ∧
      deadline.toNanos ≤ now.toNanos := by
  unfold isExpired
  cases e.deadline with
  | none => simp
  | some deadline => simp [Instant.reached_iff_nanos]

theorem Entry.expired_later {e : Entry} {now later : Instant} (expired : e.isExpired now = true)
    (order : now.toNanos ≤ later.toNanos) : e.isExpired later = true := by
  obtain ⟨deadline, found, passed⟩ := (expired_iff_nanos e now).mp expired
  exact (expired_iff_nanos e later).mpr ⟨deadline, found, Nat.le_trans passed order⟩

/-- An entry is not over before its whole time to live has passed. -/
theorem Entry.not_expired_within (payload : Payload) {written now : Instant} {ttl : Duration}
    (within : ttl.toNanos = 0 ∨ now.toNanos < written.toNanos + ttl.toNanos) :
    (write payload written ttl.ttl?).isExpired now = false := by
  cases past : (write payload written ttl.ttl?).isExpired now with
  | false => rfl
  | true =>
      obtain ⟨deadline, found, passed⟩ := (expired_iff_nanos _ now).mp past
      by_cases zero : ttl.toNanos = 0
      · simp [write, Duration.ttl_of_zero zero] at found
      · simp only [write, Duration.ttl_of_positive zero, Option.bind_some] at found
        have value := (Instant.plus_eq_some_iff written ttl deadline).mp found
        omega

namespace Transaction

theorem apply_change_get (entries : Table Entry) (key : String) (change : Option Entry)
    (k : String) :
    (applyChange entries key change).get? k = if k = key then change else entries.get? k := by
  cases change with
  | none => exact Table.get_erase entries key k
  | some e => exact Table.get_put entries key e k

/-- Changes to keys that are all different can be read off in any order. -/
theorem apply_changes_get (changes : List (String × Option Entry))
    (distinct : (changes.map (·.1)).Nodup) (entries : Table Entry) (k : String) :
    (changes.foldl (fun entries change => applyChange entries change.1 change.2) entries).get? k =
      (changes.lookup k).getD (entries.get? k) := by
  induction changes generalizing entries with
  | nil => rfl
  | cons change rest ih =>
      rw [List.map_cons, List.nodup_cons] at distinct
      obtain ⟨key, value⟩ := change
      rw [List.foldl_cons, ih distinct.2, apply_change_get]
      by_cases same : k = key
      · subst same
        have absent : rest.lookup k = none := by
          rw [List.lookup_eq_none_iff]
          intro row member
          have other : row.1 ≠ k := by
            intro equal
            exact distinct.1 (List.mem_map.mpr ⟨row, member, equal⟩)
          exact bne_iff_ne.mpr other.symm
        simp [absent]
      · have differs : (k == key) = false := by simp [same]
        simp only [List.lookup_cons, differs, if_neg same]

/-- The table after a transaction holds what its last read would have found. -/
theorem outcome_get (tx : Transaction) (k : String) : tx.outcome.get? k = tx.entry? k := by
  unfold outcome entry?
  rw [apply_changes_get tx.pending.rows tx.pending.distinct]
  change (tx.pending.get? k).getD _ = _
  cases tx.pending.get? k with
  | some change => rfl
  | none => cases tx.cleared <;> rfl

theorem start_entry (entries : Table Entry) (now : Instant) (k : String) :
    entry? (start entries now) k = entries.get? k := rfl

theorem entry_of_change (tx : Transaction) (key : String) (change : Option Entry) (k : String) :
    entry? { tx with pending := tx.pending.put key change } k =
      if k = key then change else tx.entry? k := by
  unfold entry?
  simp only [Table.get_put]
  by_cases same : k = key
  · simp [same]
  · simp [same]

end Transaction

namespace Store

variable (store : Store) (now : Instant)

theorem live_of_entries (t : Instant) (k : String) :
    store.live? t k = (store.entries.get? k).filter fun e => !e.isExpired t := rfl

theorem live_commit (tx : Transaction) (t : Instant) (k : String) :
    (store.commit tx).live? t k = ( tx.entry? k).filter fun e => !e.isExpired t := by
  rw [live_of_entries, ← Transaction.outcome_get]
  rfl

theorem not_live_later {key : String} (absent : store.isLive now key = false) {t : Instant}
    (order : now.toNanos ≤ t.toNanos) : store.live? t key = none := by
  rw [isLive, live_of_entries] at absent
  rw [live_of_entries]
  cases found : store.entries.get? key with
  | none => rfl
  | some e =>
      have expired : e.isExpired now = true := by
        cases check : e.isExpired now with
        | true => rfl
        | false => simp [found, Option.filter, check] at absent
      simp [Option.filter, Entry.expired_later expired order]

/-! ### Reads -/

theorem fetch_of_live {key : String} {e : Entry} (live : store.live? now key = some e)
    (reading : Reading) : (store.fetch now key reading).1 = reading.of key e.payload := by
  simp [fetch, read, live, Except.bind]

theorem fetch_of_missing {key : String} (missing : store.live? now key = none)
    (reading : Reading) : (store.fetch now key reading).1 = .error (.notFound key) := by
  simp [fetch, read, missing, Except.bind]

theorem fetch_keeps_entries (key : String) (reading : Reading) :
    (store.fetch now key reading).2.entries = store.entries := by
  unfold fetch read
  cases store.live? now key <;> rfl

theorem live_after_fetch (key : String) (reading : Reading) (t : Instant) (k : String) :
    (store.fetch now key reading).2.live? t k = store.live? t k := by
  rw [live_of_entries, fetch_keeps_entries, live_of_entries]

/-! ### Writes -/

theorem live_after_set (key : String) (payload : Payload) (ttl : Duration) (t : Instant)
    (k : String) :
    (store.perform now (.set key payload ttl)).2.2.live? t k =
      if k = key then (some (Entry.write payload now ttl.ttl?)).filter fun e => !e.isExpired t
      else store.live? t k := by
  change (store.commit { Transaction.start store.entries now with
    pending := (Transaction.start store.entries now).pending.put key
      (some (.write payload now ttl.ttl?)) }).live? t k = _
  rw [live_commit, Transaction.entry_of_change, Transaction.start_entry]
  split <;> rfl

/-- A conditional write that finds a live entry does nothing, and is a plain write otherwise. -/
theorem perform_set_if_absent (key : String) (payload : Payload) (ttl : Duration) :
    store.perform now (.setIfAbsent key payload ttl) =
      if store.isLive now key then
        (.ok (.flag false), [], store.commit (.start store.entries now))
      else (.ok (.flag true), [], (store.perform now (.set key payload ttl)).2.2) := by
  have start : (Transaction.start store.entries now).isLive key = store.isLive now key := rfl
  by_cases live : store.isLive now key
  · simp [perform, update, start, live, Except.map]
  · simp [perform, update, start, live, Except.map, Transaction.set]

theorem live_after_set_if_absent (key : String) (payload : Payload) (ttl : Duration) (t : Instant)
    (k : String) :
    (store.perform now (.setIfAbsent key payload ttl)).2.2.live? t k =
      if k = key ∧ store.isLive now key = false then
        (some (Entry.write payload now ttl.ttl?)).filter fun e => !e.isExpired t
      else store.live? t k := by
  rw [perform_set_if_absent]
  cases live : store.isLive now key with
  | true =>
      simp only [if_true, Bool.true_eq_false, and_false, if_false]
      rw [live_commit, Transaction.start_entry, live_of_entries]
  | false =>
      simp only [Bool.false_eq_true, if_false, and_true]
      exact live_after_set store now key payload ttl t k

theorem perform_delete (key : String) : (store.perform now (.delete key)).1 = .ok .done := by
  simp only [perform, update, Transaction.delete]
  cases (Transaction.start store.entries now).get? key <;> rfl

/-- A deleted key shows nothing from then on; one that is over is left where it is. -/
theorem live_after_delete (key : String) {t : Instant} (order : now.toNanos ≤ t.toNanos)
    (k : String) :
    (store.perform now (.delete key)).2.2.live? t k =
      if k = key then none else store.live? t k := by
  cases found : (Transaction.start store.entries now).get? key with
  | none =>
      have missing : store.live? now key = none := Option.map_eq_none_iff.mp found
      have absent : store.isLive now key = false := by simp [isLive, missing]
      have same : (store.perform now (.delete key)).2.2 = store := by
        simp [perform, update, Transaction.delete, found]
      rw [same]
      split
      · next equal => rw [equal, not_live_later store now absent order]
      · rfl
  | some payload =>
      have committed : (store.perform now (.delete key)).2.2 =
          store.commit { Transaction.start store.entries now with
            pending := (Transaction.start store.entries now).pending.put key none } := by
        simp [perform, update, Transaction.delete, found]
      rw [committed, live_commit, Transaction.entry_of_change, Transaction.start_entry]
      split <;> rfl

theorem live_after_clear (t : Instant) (k : String) :
    (store.perform now .clear).2.2.live? t k = none := by
  change (store.commit _).live? t k = _
  rw [live_commit]
  rfl

/-! ### Sweeps -/

theorem live_after_sweep {t : Instant} (order : now.toNanos ≤ t.toNanos) (k : String) :
    (store.sweep now).2.live? t k = store.live? t k := by
  have swept : (store.sweep now).2.entries.get? k =
      (store.entries.get? k).filter fun e => !e.isExpired now :=
    Table.get_keep store.entries (fun _ e => !e.isExpired now) k
  rw [live_of_entries, swept, live_of_entries]
  cases store.entries.get? k with
  | none => rfl
  | some e =>
      cases expired : e.isExpired now with
      | false => simp [Option.filter, expired]
      | true => simp [Option.filter, expired, Entry.expired_later expired order]

end Store

end ExpiringCache
