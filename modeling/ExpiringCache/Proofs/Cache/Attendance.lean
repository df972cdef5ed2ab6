import ExpiringCache.Proofs.Cache.Books
/-!
Books with a single client. A client that does one thing after another has at most the fills open
that it is computing for, one inside the other; whenever it asks for a key of which none is open,
nobody is in its way.
-/

namespace ExpiringCache

structure Errand where
  id : Nat
  key : String
  reading : Reading

structure Books.Attend (books : Books Nat) (errands : List Errand) (next : Nat) : Prop where
  orderly : books.Orderly
  computing : ∀ errand ∈ errands,
    books.pursuit? errand.id = some ⟨.computing, errand.key, errand.reading⟩
  queued : ∀ {key id}, id ∈ books.flights.queue key →
    ∃ errand ∈ errands, errand.id = id ∧ errand.key = key
  fresh : ∀ {id}, next ≤ id → books.pursuit? id = none
  distinct : (errands.map (·.id)).Nodup

namespace Books

variable {books : Books Nat} {errands : List Errand} {next : Nat}

theorem fresh_attend (books : Books Nat) (flights : books.flights = .empty)
    (nobody : ∀ id, books.pursuit? id = none) : books.Attend [] next where
  orderly := orderly_of_nobody flights nobody
  computing := by
    intro errand there
    cases there
  queued := by
    intro key id there
    rw [flights] at there
    cases there
  fresh := fun _ => nobody _
  distinct := List.nodup_nil

theorem attend_later (attend : books.Attend errands next) : books.Attend errands (next + 1) where
  orderly := attend.orderly
  computing := attend.computing
  queued := attend.queued
  fresh := fun later => attend.fresh (Nat.le_of_succ_le later)
  distinct := attend.distinct

theorem errand_before (attend : books.Attend errands next) {errand : Errand}
    (there : errand ∈ errands) : errand.id < next := by
  apply Nat.lt_of_not_le
  intro later
  have found := attend.computing errand there
  rw [attend.fresh later] at found
  cases found

theorem queue_empty (attend : books.Attend errands next) {key : String}
    (closed : key ∉ errands.map (·.key)) : books.flights.queue key = [] := by
  rw [List.eq_nil_iff_forall_not_mem]
  intro id there
  obtain ⟨errand, there, _, same⟩ := attend.queued there
  exact closed (List.mem_map.mpr ⟨errand, there, same⟩)

theorem next_outside (attend : books.Attend errands next) : next ∉ books.flights.callers := by
  have agree := attend.orderly.agree next
  rwa [attend.fresh (Nat.le_refl next)] at agree

/-- The client holds a key at once if it is not filling it already. -/
theorem joins_first (attend : books.Attend errands next) {key : String}
    (closed : key ∉ errands.map (·.key)) : (books.flights.join next key).1 = .held := by
  rw [Flights.join_turn attend.orderly.sound (next_outside attend),
    if_pos (queue_empty attend closed)]

/-- Nobody new is in the books after somebody has been taken off them. -/
theorem fresh_of_put (attend : books.Attend errands next) (flights : Flights Nat) (id : Nat) {j : Nat}
    (later : next ≤ j) : (books.put flights id none).pursuit? j = none := by
  simp only [put]
  split
  · rfl
  · exact attend.fresh later

theorem attend_of_leave (attend : books.Attend errands next) {id : Nat}
    (idle : id ∉ errands.map (·.id)) :
    (books.put (books.flights.drop id).2 id none).Attend errands next where
  orderly := orderly_of_shifts attend.orderly
    (leave_shifts (Flights.spares_of_equal books.flights id) attend.orderly.sound)
  computing := by
    intro errand there
    have other : errand.id ≠ id := by
      intro same
      exact idle (List.mem_map.mpr ⟨errand, there, same⟩)
    rw [put_others _ _ _ other]
    exact attend.computing errand there
  queued := by
    intro key j there
    rw [put, Flights.drop_queue] at there
    exact attend.queued (List.mem_filter.mp there).1
  fresh := fresh_of_put attend _ _
  distinct := attend.distinct

theorem attend_of_end {errand : Errand} (attend : books.Attend (errand :: errands) next) :
    (books.put (books.flights.drop errand.id).2 errand.id none).Attend errands next where
  orderly := orderly_of_shifts attend.orderly
    (leave_shifts (Flights.spares_of_equal books.flights errand.id) attend.orderly.sound)
  computing := by
    intro other there
    have distinct := attend.distinct
    rw [List.map_cons, List.nodup_cons] at distinct
    have apart : other.id ≠ errand.id := by
      intro same
      exact distinct.1 (List.mem_map.mpr ⟨other, there, same⟩)
    rw [put_others _ _ _ apart]
    exact attend.computing other (List.mem_cons_of_mem _ there)
  queued := by
    intro key id there
    rw [put, Flights.drop_queue, List.mem_filter, bne_iff_ne] at there
    obtain ⟨other, listed, same, named⟩ := attend.queued there.1
    rcases List.mem_cons.mp listed with rfl | listed
    · exact absurd same.symm there.2
    · exact ⟨other, listed, same, named⟩
  fresh := fresh_of_put attend _ _
  distinct := by
    have distinct := attend.distinct
    rw [List.map_cons, List.nodup_cons] at distinct
    exact distinct.2

theorem attend_of_begin (attend : books.Attend errands next) {key : String}
    (closed : key ∉ errands.map (·.key)) (reading : Reading) :
    (books.put (books.flights.join next key).2 next (some ⟨.computing, key, reading⟩)).Attend
      (⟨next, key, reading⟩ :: errands) (next + 1) where
  orderly := by
    have told := Flights.join_told attend.orderly.sound (next_outside attend) key
    have free : Pursuit.computes (books.pursuit? next) = false := by
      rw [attend.fresh (Nat.le_refl next)]
      rfl
    exact orderly_of_shifts attend.orderly
      (compute_moves told free (joins_first attend closed) reading).toShifts
  computing := by
    intro errand there
    rcases List.mem_cons.mp there with rfl | there
    · exact put_pursuit _ _ _ _
    · have other : errand.id ≠ next := Nat.ne_of_lt (errand_before attend there)
      rw [put_others _ _ _ other]
      exact attend.computing errand there
  queued := by
    intro k id there
    rw [put, Flights.join_queue] at there
    split at there
    · next same =>
      rw [queue_empty attend closed, List.nil_append, List.mem_singleton] at there
      exact ⟨_, List.mem_cons_self, there.symm, same.symm⟩
    · obtain ⟨errand, there, same⟩ := attend.queued there
      exact ⟨errand, List.mem_cons_of_mem _ there, same⟩
  fresh := by
    intro j later
    have other : j ≠ next := Nat.ne_of_gt later
    rw [put_others _ _ _ other]
    exact attend.fresh (Nat.le_of_succ_le later)
  distinct := by
    rw [List.map_cons, List.nodup_cons]
    refine ⟨?_, attend.distinct⟩
    intro there
    obtain ⟨errand, there, same⟩ := List.mem_map.mp there
    exact Nat.ne_of_lt (errand_before attend there) same

end Books

end ExpiringCache
