import ExpiringCache.Proofs.Store.Live
/-!
Which operations touch a key, and which of them store it for good. Whatever leaves a key alone
leaves all that the key will ever show as it is.
-/

namespace ExpiringCache

def Operation.touches (key : String) : Operation → Bool
  | .get _ _ | .exists _ => false
  | .set k _ _ | .setIfAbsent k _ _ | .delete k => k == key
  | .clear => true

def Operation.stores? (key : String) (now : Instant) : Operation → Option Payload
  | .set k payload ttl | .setIfAbsent k payload ttl =>
    if k = key ∧ ttl.ttl?.bind now.plus? = none then some payload else none
  | .get _ _ | .exists _ | .delete _ | .clear => none

theorem Operation.touches_of_stores {operation : Operation} {key : String} {now : Instant}
    {payload : Payload} (stored : operation.stores? key now = some payload) :
    operation.touches key = true := by
  cases operation with
  | get k reading => cases stored
  | «exists» k => cases stored
  | set k written ttl =>
      simp only [stores?, Option.ite_none_right_eq_some] at stored
      simp [touches, stored.1.1]
  | setIfAbsent k written ttl =>
      simp only [stores?, Option.ite_none_right_eq_some] at stored
      simp [touches, stored.1.1]
  | delete k => cases stored
  | clear => cases stored

namespace Store

variable (store : Store) (now : Instant) {operation : Operation} {key : String}

theorem live_after_untouched (untouched : operation.touches key = false) {t : Instant}
    (order : now.toNanos ≤ t.toNanos) :
    (store.perform now operation).2.2.live? t key = store.live? t key := by
  have apart : ∀ {k : String}, (k == key) = false → ¬key = k := by
    rintro k differs rfl
    simp at differs
  cases operation with
  | get k reading => exact store.live_after_fetch now k reading t key
  | «exists» k => rfl
  | set k payload ttl => rw [live_after_set, if_neg (apart untouched)]
  | setIfAbsent k payload ttl =>
      rw [live_after_set_if_absent, if_neg (mt And.left (apart untouched))]
  | delete k => rw [live_after_delete store now k order, if_neg (apart untouched)]
  | clear => cases untouched

/-- What is stored for good at a key that shows nothing is shown from then on. -/
theorem live_after_stored (missing : store.isLive now key = false) {payload : Payload}
    (stored : operation.stores? key now = some payload) (t : Instant) :
    ((store.perform now operation).2.2.live? t key).map (·.payload) = some payload := by
  have lasts : ∀ ttl : Duration, ttl.ttl?.bind now.plus? = none →
      ((some (Entry.write payload now ttl.ttl?)).filter fun e => !e.isExpired t).map (·.payload) =
        some payload := by
    intro ttl endless
    simp [Entry.write, endless, Option.filter, Entry.isExpired]
  cases operation with
  | get k reading => cases stored
  | «exists» k => cases stored
  | set k written ttl =>
      simp only [Operation.stores?, Option.ite_none_right_eq_some, Option.some.injEq] at stored
      obtain ⟨⟨rfl, endless⟩, rfl⟩ := stored
      rw [live_after_set, if_pos rfl]
      exact lasts ttl endless
  | setIfAbsent k written ttl =>
      simp only [Operation.stores?, Option.ite_none_right_eq_some, Option.some.injEq] at stored
      obtain ⟨⟨rfl, endless⟩, rfl⟩ := stored
      rw [live_after_set_if_absent, if_pos ⟨rfl, missing⟩]
      exact lasts ttl endless
  | delete k => cases stored
  | clear => cases stored

end Store

end ExpiringCache
