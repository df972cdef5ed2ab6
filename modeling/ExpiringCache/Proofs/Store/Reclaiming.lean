import ExpiringCache.Proofs.Store.Live
/-!
What a sweep takes out of a store. The entries that go are those whose deadline has come, to the
nanosecond, and the number that the sweep tells is theirs; every other entry stays just as it is.
-/

namespace ExpiringCache

theorem Entry.is_expired_eq (e : Entry) (now : Instant) :
    e.isExpired now = e.deadline.any fun deadline => decide (deadline.toNanos ≤ now.toNanos) := by
  rw [Bool.eq_iff_iff, expired_iff_nanos, Option.any_eq_true]
  exact exists_congr fun deadline => and_congr_right fun _ => decide_eq_true_iff.symm

namespace Store

/-- What is left of a store when a sweep at `t` has removed so many entries. -/
structure Reclaimed (store : Store) (t : Instant) (removed : Nat) (after : Store) : Prop where
  kept : ∀ key e, after.entries.get? key = some e ↔ store.entries.get? key = some e ∧
    ∀ deadline, e.deadline = some deadline → t.toNanos < deadline.toNanos
  counted : removed = store.entries.rows.countP fun row =>
    row.2.deadline.any fun deadline => decide (deadline.toNanos ≤ t.toNanos)

/-- A sweep at `t` removes what is over at `t` and nothing else, and says how much that was. -/
theorem sweep_reclaimed (store : Store) (t : Instant) :
    store.Reclaimed t (store.sweep t).1 (store.sweep t).2 where
  kept := by
    intro key e
    have swept : (store.sweep t).2.entries.get? key =
        (store.entries.get? key).filter fun e => !e.isExpired t :=
      Table.get_keep store.entries (fun _ e => !e.isExpired t) key
    rw [swept, Option.filter_eq_some_iff, Bool.not_eq_true', Bool.eq_false_iff, ne_eq,
      Entry.expired_iff_nanos]
    refine and_congr_right fun _ => ⟨?_, ?_⟩
    · intro lasting deadline mine
      exact Nat.lt_of_not_le fun past => lasting ⟨deadline, mine, past⟩
    · rintro ahead ⟨deadline, mine, past⟩
      exact Nat.not_le_of_lt (ahead deadline mine) past
  counted := by
    have all := List.length_eq_countP_add_countP (fun row : String × Entry => row.2.isExpired t)
      (l := store.entries.rows)
    have left : (store.entries.keep fun _ e => !e.isExpired t).size =
        store.entries.rows.countP fun row => decide ¬row.2.isExpired t = true := by
      rw [Table.size, Table.keep, ← List.countP_eq_length_filter]
      refine List.countP_congr fun row _ => ?_
      rw [Bool.not_eq_true', decide_eq_true_iff, Bool.not_eq_true]
    have removed : (store.sweep t).1 =
        store.entries.rows.length - (store.entries.keep fun _ e => !e.isExpired t).size := rfl
    simp only [← Entry.is_expired_eq]
    omega

end Store

end ExpiringCache
