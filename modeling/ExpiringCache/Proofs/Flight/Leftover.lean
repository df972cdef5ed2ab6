import ExpiringCache.Proofs.Flight.Queues
/-!
Slots that are left over. A slot can outlive its callers, but only where the last of them stood in
line and went away: whoever holds a key takes an unused slot along, and whoever joins a line first
clears away what others have left. Flights that nobody takes and that nothing was left over in have
no slots.
-/

namespace ExpiringCache.Flights

variable {ι : Type} {f : Flights ι} {id : ι} {key : String}

def Leftover (f : Flights ι) (key : String) : Prop :=
  f.slots.get? key ≠ none ∧ f.queue key = []

/-- The flights `g` after a caller in `f` has been told its turn: nobody has lost a key, and nothing
more is left over. -/
structure Handed (f : Flights ι) (id : ι) (turn : Turn) (g : Flights ι) : Prop where
  holds : ∀ {j}, f.holds j → g.holds j
  taken : turn = .held → g.holds id
  leftover : ∀ {k}, g.Leftover k → f.Leftover k

theorem no_slots (empty : f.inFlight = 0) (k : String) : f.slots.get? k = none := by
  have rows : f.slots.rows = [] := List.eq_nil_of_length_eq_zero empty
  rw [Table.get?, rows]
  rfl

theorem in_flight_zero (clear : ∀ k, ¬f.Leftover k) (nobody : ∀ k, f.queue k = []) :
    f.inFlight = 0 := by
  apply List.length_eq_zero_iff.mpr
  rw [List.eq_nil_iff_forall_not_mem]
  rintro ⟨k, lock⟩ there
  have slot := (Table.mem_rows_iff_get f.slots k lock).mp there
  exact clear k ⟨by simp [slot], nobody k⟩

theorem slot_of_queued (sound : f.Sound) (queued : id ∈ f.queue key) :
    f.slots.get? key ≠ none := by
  obtain ⟨claim, member, rfl, _⟩ := (mem_queue_iff f key id).mp queued
  simp [sound.slotted claim member]

/-- The lock in a key's slot is referred to exactly as long as somebody is in the key's queue. -/
theorem wanted_iff_queued (sound : f.Sound) {lock : Nat} (slot : f.slots.get? key = some lock) :
    f.isWanted lock = true ↔ f.queue key ≠ [] := by
  rw [isWanted, List.any_eq_true]
  constructor
  · rintro ⟨claim, member, same⟩
    have found := sound.slotted claim member
    rw [beq_iff_eq.mp same] at found
    have queued : claim.id ∈ f.queue key :=
      (mem_queue_iff f key _).mpr ⟨claim, member, sound.apart found slot, rfl⟩
    exact List.ne_nil_of_mem queued
  · intro somebody
    obtain ⟨j, queued⟩ := List.exists_mem_of_ne_nil _ somebody
    obtain ⟨claim, member, rfl, _⟩ := (mem_queue_iff f key j).mp queued
    rw [sound.slotted claim member] at slot
    exact ⟨claim, member, beq_iff_eq.mpr (Option.some.inj slot)⟩

/-! ### Joining -/

theorem prune_leaves_nothing (sound : f.Sound) (k : String) : ¬f.prune.Leftover k := by
  rintro ⟨slotted, empty⟩
  obtain ⟨lock, slot⟩ := Option.ne_none_iff_exists'.mp slotted
  obtain ⟨before, wanted⟩ := (prune_get f k lock).mp slot
  exact (wanted_iff_queued sound before).mp wanted empty

theorem lock_for_others (f : Flights ι) {k : String} (other : k ≠ key) :
    (f.lockFor key).2.slots.get? k = f.slots.get? k := by
  unfold lockFor
  cases f.slots.get? key with
  | some lock => rfl
  | none => simp only [Table.get_put, if_neg other]

/-- The one slot that is made when a caller joins a line is the caller's own. -/
theorem joined_leaves_nothing (sound : f.Sound) (id : ι) (key k : String) :
    ¬(f.joined id key).Leftover k := by
  rintro ⟨slotted, empty⟩
  rw [joined_queue] at empty
  split at empty
  · simp at empty
  · next other =>
    have same : (f.joined id key).slots.get? k = f.prune.slots.get? k :=
      lock_for_others f.prune other
    rw [same] at slotted
    exact prune_leaves_nothing sound k ⟨slotted, empty⟩

/-! ### Being told -/

variable [DecidableEq ι]

theorem tell_leftover (f : Flights ι) (id : ι) (lock : Nat) (k : String) :
    (f.tell id lock).2.Leftover k ↔ f.Leftover k := by
  have slots : (f.tell id lock).2.slots = f.slots := by
    unfold tell
    split <;> rfl
  rw [Leftover, slots, tell_queue, Leftover]

theorem tell_handed (sound : f.Sound) {claim : Claim ι} (member : claim ∈ f.claims) :
    f.Handed claim.id (f.tell claim.id claim.lock).1 (f.tell claim.id claim.lock).2 where
  holds := fun held => (tell_holds sound member _).mpr (.inl held)
  taken := by
    intro told
    rw [tell_turn sound member] at told
    split at told
    · next first => exact (tell_holds sound member _).mpr (.inr ⟨rfl, first⟩)
    · cases told
  leftover := (tell_leftover f claim.id claim.lock _).mp

theorem join_leaves_nothing (sound : f.Sound) (id : ι) (key k : String) :
    ¬(f.join id key).2.Leftover k := by
  rw [join_eq, tell_leftover]
  exact joined_leaves_nothing sound id key k

theorem join_handed (sound : f.Sound) (new : id ∉ f.callers) (key : String) :
    f.Handed id (f.join id key).1 (f.join id key).2 where
  holds := fun held => (join_holds sound new key _).mpr (.inl held)
  taken := by
    intro told
    rw [join_turn sound new] at told
    split at told
    · next empty => exact (join_holds sound new key id).mpr (.inr ⟨rfl, empty⟩)
    · cases told
  leftover := fun left => absurd left (join_leaves_nothing sound id key _)

theorem poll_handed (sound : f.Sound) (queued : id ∈ f.queue key) :
    f.Handed id (f.poll id).1 (f.poll id).2 := by
  obtain ⟨claim, member, rfl, rfl⟩ := (mem_queue_iff f key id).mp queued
  have told : f.poll claim.id = f.tell claim.id claim.lock := by
    rw [poll, claim_of_caller sound member]
  rw [told]
  exact tell_handed sound member

/-! ### Leaving -/

theorem slot_of_drop (f : Flights ι) (id : ι) {k : String}
    (slotted : (f.drop id).2.slots.get? k ≠ none) : f.slots.get? k ≠ none := by
  intro missing
  apply slotted
  unfold drop
  cases f.claim? id with
  | some claim =>
      simp only
      split
      · split
        · split
          · exact missing
          · simp only [Table.get_erase]
            split
            · rfl
            · exact missing
        · exact missing
      · exact missing
  | none =>
      simp only
      split <;> exact missing

theorem leftover_of_drop {k : String} (left : (f.drop id).2.Leftover k) :
    f.Leftover k ∨ id ∈ f.queue k := by
  obtain ⟨slotted, empty⟩ := left
  by_cases queued : id ∈ f.queue k
  · exact .inr queued
  · have stays : (f.queue k).filter (· != id) = f.queue k := by
      rw [List.filter_eq_self]
      intro j there
      rw [bne_iff_ne]
      rintro rfl
      exact queued there
    rw [drop_queue, stays] at empty
    exact .inl ⟨slot_of_drop f id slotted, empty⟩

theorem leftover_of_release (sound : f.Sound) (holds : f.holds id) {k : String}
    (left : (f.drop id).2.Leftover k) : f.Leftover k := by
  rcases leftover_of_drop left with before | queued
  · exact before
  obtain ⟨claim, member, rfl, held⟩ := holds
  obtain ⟨other, found, rfl, named⟩ := (mem_queue_iff f k claim.id).mp queued
  cases List.inj_on_of_nodup_map sound.distinct found member named
  have slot : (f.without claim.id).slots.get? claim.key = some claim.lock :=
    sound.slotted claim member
  obtain ⟨slotted, empty⟩ := left
  rw [drop_queue, ← without_queue] at empty
  have unwanted : (f.without claim.id).isWanted claim.lock = false := by
    rw [Bool.eq_false_iff]
    exact fun wanted => (wanted_iff_queued (without_sound sound claim.id) slot).mp wanted empty
  rw [without] at slot unwanted
  simp only [drop, claim_of_caller sound member, held, slot, unwanted, if_true,
    Bool.false_eq_true, if_false, Table.get_erase] at slotted
  exact absurd rfl slotted

end ExpiringCache.Flights
