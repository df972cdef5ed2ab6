import Mathlib.Data.List.Nodup
import ExpiringCache.Flight
import ExpiringCache.Proofs.Table
/-!
The queue of each key. Callers share a lock only if they were given the same slot, so the queue of a
key is one queue only as long as every caller that refers to a lock of the key refers to the one in
the key's slot. That is the invariant here. Under it each operation has a plain meaning for the
queues, and locks and slots are not mentioned outside this module.
-/

namespace ExpiringCache.Flights

variable {ι : Type}

/-- The callers that have asked for a key and not been let go, in the order in which they asked. -/
def queue (f : Flights ι) (key : String) : List ι :=
  (f.claims.filter (·.key == key)).map (·.id)

def callers (f : Flights ι) : List ι := f.claims.map (·.id)

def holds (f : Flights ι) (id : ι) : Prop := ∃ claim ∈ f.claims, claim.id = id ∧ claim.held = true

/-- Every claim is on the lock in its key's slot, and different keys have different locks. -/
structure Sound (f : Flights ι) : Prop where
  distinct : f.callers.Nodup
  slotted : ∀ claim ∈ f.claims, f.slots.get? claim.key = some claim.lock
  apart : ∀ {j k : String} {lock : Nat},
    f.slots.get? j = some lock → f.slots.get? k = some lock → j = k
  used : ∀ {k : String} {lock : Nat}, f.slots.get? k = some lock → lock < f.nextLock
  first : ∀ claim ∈ f.claims, claim.held = true → (f.queue claim.key).head? = some claim.id

theorem empty_sound : (empty : Flights ι).Sound where
  distinct := List.nodup_nil
  slotted := by intro claim member; cases member
  apart := by intro j k lock found; cases found
  used := by intro k lock found; cases found
  first := by intro claim member; cases member

theorem sound_of_same_claims {f g : Flights ι} (sound : f.Sound) (claims : g.claims = f.claims)
    (slots : g.slots = f.slots) (nextLock : g.nextLock = f.nextLock) : g.Sound := by
  obtain ⟨fSlots, fClaims, fIntended, fNext⟩ := f
  obtain ⟨gSlots, gClaims, gIntended, gNext⟩ := g
  cases claims
  cases slots
  cases nextLock
  exact ⟨sound.distinct, sound.slotted, sound.apart, sound.used, sound.first⟩

theorem mem_callers_iff (f : Flights ι) (id : ι) :
    id ∈ f.callers ↔ ∃ claim ∈ f.claims, claim.id = id := List.mem_map

theorem mem_queue_iff (f : Flights ι) (key : String) (id : ι) :
    id ∈ f.queue key ↔ ∃ claim ∈ f.claims, claim.key = key ∧ claim.id = id := by
  simp only [queue, List.mem_map, List.mem_filter, beq_iff_eq, and_assoc]

theorem mem_callers_of_queue {f : Flights ι} {key : String} {id : ι} (queued : id ∈ f.queue key) :
    id ∈ f.callers := by
  obtain ⟨claim, member, _, named⟩ := (mem_queue_iff f key id).mp queued
  exact (mem_callers_iff f id).mpr ⟨claim, member, named⟩

theorem queue_nodup {f : Flights ι} (sound : f.Sound) (key : String) : (f.queue key).Nodup :=
  sound.distinct.sublist (List.filter_sublist.map _)

theorem holder_is_first {f : Flights ι} (sound : f.Sound) {key : String} {id : ι} (queued : id ∈ f.queue key)
    (holds : f.holds id) : (f.queue key).head? = some id := by
  obtain ⟨claim, member, rfl, held⟩ := holds
  obtain ⟨other, there, rfl, named⟩ := (mem_queue_iff f key claim.id).mp queued
  rw [List.inj_on_of_nodup_map sound.distinct there member named]
  exact sound.first claim member held

theorem key_of_queued {f : Flights ι} (sound : f.Sound) {key k : String} {id : ι}
    (here : id ∈ f.queue key) (there : id ∈ f.queue k) : key = k := by
  obtain ⟨claim, member, rfl, rfl⟩ := (mem_queue_iff f key id).mp here
  obtain ⟨other, found, rfl, same⟩ := (mem_queue_iff f k claim.id).mp there
  rw [List.inj_on_of_nodup_map sound.distinct found member same]

theorem lock_eq_iff_key_eq {f : Flights ι} (sound : f.Sound) {a b : Claim ι} (left : a ∈ f.claims)
    (right : b ∈ f.claims) : a.lock = b.lock ↔ a.key = b.key := by
  have leftSlot := sound.slotted a left
  have rightSlot := sound.slotted b right
  constructor
  · intro same
    rw [same] at leftSlot
    exact sound.apart leftSlot rightSlot
  · intro same
    rw [same, rightSlot] at leftSlot
    exact (Option.some.inj leftSlot).symm

theorem line_eq_of_claim {f : Flights ι} (sound : f.Sound) {claim : Claim ι}
    (member : claim ∈ f.claims) : f.line claim.lock = f.claims.filter (·.key == claim.key) := by
  apply List.filter_congr
  intro other there
  rw [Bool.eq_iff_iff, beq_iff_eq, beq_iff_eq]
  exact lock_eq_iff_key_eq sound there member

/-! ### Joining -/

theorem prune_get (f : Flights ι) (k : String) (lock : Nat) :
    f.prune.slots.get? k = some lock ↔ f.slots.get? k = some lock ∧ f.isWanted lock = true := by
  rw [prune, Table.get_keep, Option.filter_eq_some_iff]

theorem prune_sound {f : Flights ι} (sound : f.Sound) : f.prune.Sound where
  distinct := sound.distinct
  slotted := by
    intro claim member
    rw [prune_get]
    exact ⟨sound.slotted claim member, List.any_eq_true.mpr ⟨claim, member, beq_self_eq_true _⟩⟩
  apart := by
    intro j k lock left right
    exact sound.apart ((prune_get f j lock).mp left).1 ((prune_get f k lock).mp right).1
  used := by
    intro k lock found
    exact sound.used ((prune_get f k lock).mp found).1
  first := sound.first

theorem lock_for_keeps (f : Flights ι) (key : String) :
    (f.lockFor key).2.claims = f.claims ∧ (f.lockFor key).2.intended = f.intended := by
  unfold lockFor
  cases f.slots.get? key <;> exact ⟨rfl, rfl⟩

theorem lock_for_get (f : Flights ι) (key : String) :
    (f.lockFor key).2.slots.get? key = some (f.lockFor key).1 := by
  unfold lockFor
  cases found : f.slots.get? key with
  | some lock => exact found
  | none => simp

theorem lock_for_sound {f : Flights ι} (sound : f.Sound) (key : String) :
    (f.lockFor key).2.Sound := by
  unfold lockFor
  cases found : f.slots.get? key with
  | some lock => exact sound
  | none =>
      have other : ∀ claim ∈ f.claims, claim.key ≠ key := by
        intro claim member same
        have slot := sound.slotted claim member
        rw [same, found] at slot
        cases slot
      refine ⟨sound.distinct, ?_, ?_, ?_, sound.first⟩
      · intro claim member
        simp only [Table.get_put, if_neg (other claim member)]
        exact sound.slotted claim member
      · intro j k lock left right
        simp only [Table.get_put] at left right
        split at left <;> split at right
        · next left' right' => exact left'.trans right'.symm
        · cases left
          exact absurd (sound.used right) (Nat.lt_irrefl _)
        · cases right
          exact absurd (sound.used left) (Nat.lt_irrefl _)
        · exact sound.apart left right
      · intro k lock there
        simp only [Table.get_put] at there
        split at there
        · cases there
          exact Nat.lt_succ_self _
        · exact Nat.lt_succ_of_lt (sound.used there)

def enqueue (f : Flights ι) (id : ι) (key : String) (lock : Nat) : Flights ι :=
  { f with claims := f.claims ++ [⟨id, key, lock, false⟩] }

theorem enqueue_queue (f : Flights ι) (id : ι) (key : String) (lock : Nat) (k : String) :
    (f.enqueue id key lock).queue k = if k = key then f.queue key ++ [id] else f.queue k := by
  unfold queue enqueue
  rw [List.filter_append, List.map_append]
  by_cases same : k = key
  · subst same
    simp
  · have differs : (key == k) = false := beq_eq_false_iff_ne.mpr (Ne.symm same)
    simp [differs, same]

theorem enqueue_sound {f : Flights ι} (sound : f.Sound) {id : ι} (new : id ∉ f.callers)
    {key : String} {lock : Nat} (slot : f.slots.get? key = some lock) :
    (f.enqueue id key lock).Sound where
  distinct := by
    simp only [callers, enqueue, List.map_append, List.map_cons, List.map_nil]
    rw [← List.concat_eq_append]
    exact List.Nodup.concat new sound.distinct
  slotted := by
    intro claim member
    rcases List.mem_append.mp member with before | last
    · exact sound.slotted claim before
    · rw [List.mem_singleton] at last
      subst last
      exact slot
  apart := sound.apart
  used := sound.used
  first := by
    intro claim member held
    rcases List.mem_append.mp member with before | last
    · have head := sound.first claim before held
      rw [enqueue_queue]
      split
      · next same =>
        rw [List.head?_append, ← same, head]
        rfl
      · exact head
    · rw [List.mem_singleton] at last
      subst last
      cases held

/-- The flights in which a caller has joined a line and has not been told anything. -/
def joined (f : Flights ι) (id : ι) (key : String) : Flights ι :=
  (f.prune.lockFor key).2.enqueue id key (f.prune.lockFor key).1

theorem joined_queue (f : Flights ι) (id : ι) (key k : String) :
    (f.joined id key).queue k = if k = key then f.queue key ++ [id] else f.queue k := by
  have same : ∀ k, (f.prune.lockFor key).2.queue k = f.queue k := by
    intro k
    rw [queue, (lock_for_keeps f.prune key).1]
    rfl
  rw [joined, enqueue_queue, same, same]

theorem joined_claims (f : Flights ι) (id : ι) (key : String) :
    (f.joined id key).claims = f.claims ++ [⟨id, key, (f.prune.lockFor key).1, false⟩] := by
  rw [joined, enqueue, (lock_for_keeps f.prune key).1]
  rfl

theorem joined_callers (f : Flights ι) (id : ι) (key : String) :
    (f.joined id key).callers = f.callers ++ [id] := by
  rw [callers, joined_claims, List.map_append]
  rfl

theorem joined_sound {f : Flights ι} (sound : f.Sound) {id : ι} (new : id ∉ f.callers)
    (key : String) : (f.joined id key).Sound := by
  apply enqueue_sound (lock_for_sound (prune_sound sound) key)
  · rw [callers, (lock_for_keeps f.prune key).1]
    exact new
  · exact lock_for_get f.prune key

theorem joined_member (f : Flights ι) (id : ι) (key : String) :
    ⟨id, key, (f.prune.lockFor key).1, false⟩ ∈ (f.joined id key).claims := by
  rw [joined_claims]
  exact List.mem_append_right _ (List.mem_singleton_self _)

theorem last_is_first_iff {queue : List ι} {id : ι} (new : id ∉ queue) :
    (queue ++ [id]).head? = some id ↔ queue = [] := by
  cases queue with
  | nil => simp
  | cons head tail =>
      have other : head ≠ id := by
        rintro rfl
        exact new List.mem_cons_self
      simp [other]

theorem joined_head_iff {f : Flights ι} {id : ι} (new : id ∉ f.callers) (key : String) :
    ((f.joined id key).queue key).head? = some id ↔ f.queue key = [] := by
  rw [joined_queue, if_pos rfl]
  exact last_is_first_iff (mt mem_callers_of_queue new)

/-- Taking a key's slot away is harmless once nobody refers to its lock. -/
theorem erase_sound {f : Flights ι} (sound : f.Sound) {key : String} {lock : Nat}
    (slot : f.slots.get? key = some lock) (unwanted : f.isWanted lock = false) :
    ({ f with slots := f.slots.erase key } : Flights ι).Sound where
  distinct := sound.distinct
  slotted := by
    intro claim member
    have other : claim.key ≠ key := by
      intro same
      have found := sound.slotted claim member
      rw [same, slot] at found
      have wanted : f.isWanted lock = true :=
        List.any_eq_true.mpr ⟨claim, member, by simpa using (Option.some.inj found).symm⟩
      rw [unwanted] at wanted
      cases wanted
    simp only [Table.get_erase, if_neg other]
    exact sound.slotted claim member
  apart := by
    intro j k lock left right
    simp only [Table.get_erase] at left right
    split at left
    · cases left
    · split at right
      · cases right
      · exact sound.apart left right
  used := by
    intro k lock found
    simp only [Table.get_erase] at found
    split at found
    · cases found
    · exact sound.used found
  first := sound.first

/-! ### Being told -/

variable [DecidableEq ι]

theorem is_first_iff {f : Flights ι} (sound : f.Sound) {claim : Claim ι} (member : claim ∈ f.claims)
    (id : ι) : f.isFirst id claim.lock = true ↔ (f.queue claim.key).head? = some id := by
  unfold isFirst queue
  rw [line_eq_of_claim sound member]
  cases f.claims.filter (·.key == claim.key) with
  | nil => simp
  | cons head tail => simp

theorem claim_of_caller {f : Flights ι} (sound : f.Sound) {claim : Claim ι}
    (member : claim ∈ f.claims) : f.claim? claim.id = some claim := by
  have found : (f.claim? claim.id).isSome := by
    rw [claim?, List.find?_isSome]
    exact ⟨claim, member, beq_self_eq_true _⟩
  obtain ⟨other, same⟩ := Option.isSome_iff_exists.mp found
  have named : other.id = claim.id := by simpa using List.find?_some same
  have equal : other = claim :=
    List.inj_on_of_nodup_map sound.distinct (List.mem_of_find?_eq_some same) member named
  rw [same, equal]

theorem claim_eq_some_iff {f : Flights ι} (sound : f.Sound) (id : ι) (claim : Claim ι) :
    f.claim? id = some claim ↔ claim ∈ f.claims ∧ claim.id = id := by
  constructor
  · intro found
    exact ⟨List.mem_of_find?_eq_some found, by simpa using List.find?_some found⟩
  · rintro ⟨member, rfl⟩
    exact claim_of_caller sound member

theorem claim_eq_none_iff (f : Flights ι) (id : ι) : f.claim? id = none ↔ id ∉ f.callers := by
  simp [claim?, callers]

theorem mark_held_queue (f : Flights ι) (id : ι) (k : String) :
    (f.markHeld id).queue k = f.queue k := by
  have key : ∀ claim : Claim ι,
      (if claim.id = id then { claim with held := true } else claim).key = claim.key := by
    intro claim
    split <;> rfl
  have named : ∀ claim : Claim ι,
      (if claim.id = id then { claim with held := true } else claim).id = claim.id := by
    intro claim
    split <;> rfl
  simp only [queue, markHeld, List.filter_map, List.map_map]
  simp only [Function.comp_def, key, named]

theorem mark_held_callers (f : Flights ι) (id : ι) : (f.markHeld id).callers = f.callers := by
  simp only [callers, markHeld, List.map_map]
  apply List.map_congr_left
  intro claim _
  simp only [Function.comp]
  split <;> rfl

theorem mark_held_sound {f : Flights ι} (sound : f.Sound) {claim : Claim ι}
    (member : claim ∈ f.claims) (head : (f.queue claim.key).head? = some claim.id) :
    (f.markHeld claim.id).Sound where
  distinct := by
    rw [mark_held_callers]
    exact sound.distinct
  slotted := by
    intro marked there
    obtain ⟨original, before, rfl⟩ := List.mem_map.mp there
    have slot := sound.slotted original before
    split <;> exact slot
  apart := sound.apart
  used := sound.used
  first := by
    intro marked there held
    rw [mark_held_queue]
    obtain ⟨original, before, rfl⟩ := List.mem_map.mp there
    by_cases same : original.id = claim.id
    · have equal : original = claim := List.inj_on_of_nodup_map sound.distinct before member same
      subst equal
      simpa using head
    · simp only [if_neg same] at held ⊢
      exact sound.first original before held

theorem tell_turn {f : Flights ι} (sound : f.Sound) {claim : Claim ι} (member : claim ∈ f.claims) :
    (f.tell claim.id claim.lock).1 =
      if (f.queue claim.key).head? = some claim.id then .held else .waiting := by
  unfold tell
  by_cases head : (f.queue claim.key).head? = some claim.id
  · rw [if_pos ((is_first_iff sound member claim.id).mpr head), if_pos head]
  · rw [if_neg (mt (is_first_iff sound member claim.id).mp head), if_neg head]

theorem tell_queue (f : Flights ι) (id : ι) (lock : Nat) (k : String) :
    (f.tell id lock).2.queue k = f.queue k := by
  unfold tell
  split
  · exact mark_held_queue f id k
  · rfl

theorem tell_callers (f : Flights ι) (id : ι) (lock : Nat) :
    (f.tell id lock).2.callers = f.callers := by
  unfold tell
  split
  · exact mark_held_callers f id
  · rfl

theorem tell_sound {f : Flights ι} (sound : f.Sound) {claim : Claim ι}
    (member : claim ∈ f.claims) : (f.tell claim.id claim.lock).2.Sound := by
  unfold tell
  split
  · next first => exact mark_held_sound sound member ((is_first_iff sound member _).mp first)
  · exact sound

theorem mark_held_holds {f : Flights ι} {claim : Claim ι} (member : claim ∈ f.claims) (j : ι) :
    (f.markHeld claim.id).holds j ↔ f.holds j ∨ j = claim.id := by
  constructor
  · rintro ⟨marked, there, named, held⟩
    obtain ⟨original, before, rfl⟩ := List.mem_map.mp there
    by_cases same : original.id = claim.id
    · rw [if_pos same] at named
      exact .inr (named.symm.trans same)
    · rw [if_neg same] at named held
      exact .inl ⟨original, before, named, held⟩
  · rintro (⟨original, before, named, held⟩ | rfl)
    · refine ⟨_, List.mem_map_of_mem before, ?_, ?_⟩
      · split <;> exact named
      · split <;> first | rfl | exact held
    · refine ⟨_, List.mem_map_of_mem member, ?_, ?_⟩
      · rw [if_pos rfl]
      · rw [if_pos rfl]

theorem tell_holds {f : Flights ι} (sound : f.Sound) {claim : Claim ι} (member : claim ∈ f.claims)
    (j : ι) : (f.tell claim.id claim.lock).2.holds j ↔
      f.holds j ∨ j = claim.id ∧ (f.queue claim.key).head? = some claim.id := by
  unfold tell
  by_cases first : f.isFirst claim.id claim.lock = true
  · rw [if_pos first, mark_held_holds member]
    simp [(is_first_iff sound member claim.id).mp first]
  · rw [if_neg first]
    simp [mt (is_first_iff sound member claim.id).mpr first]

/-! ### What the operations do to the queues -/

theorem join_eq (f : Flights ι) (id : ι) (key : String) :
    f.join id key = (f.joined id key).tell id (f.prune.lockFor key).1 := rfl

theorem join_turn {f : Flights ι} (sound : f.Sound) {id : ι} (new : id ∉ f.callers)
    (key : String) :
    (f.join id key).1 = if f.queue key = [] then .held else .waiting := by
  have told := tell_turn (joined_sound sound new key) (joined_member f id key)
  rw [join_eq, told]
  simp only [joined_head_iff new]

theorem join_queue (f : Flights ι) (id : ι) (key k : String) :
    (f.join id key).2.queue k = if k = key then f.queue key ++ [id] else f.queue k := by
  rw [join_eq, tell_queue, joined_queue]

theorem join_callers (f : Flights ι) (id : ι) (key : String) :
    (f.join id key).2.callers = f.callers ++ [id] := by
  rw [join_eq, tell_callers, joined_callers]

theorem join_sound {f : Flights ι} (sound : f.Sound) {id : ι} (new : id ∉ f.callers)
    (key : String) : (f.join id key).2.Sound :=
  tell_sound (joined_sound sound new key) (joined_member f id key)

theorem join_holds {f : Flights ι} (sound : f.Sound) {id : ι} (new : id ∉ f.callers)
    (key : String) (j : ι) :
    (f.join id key).2.holds j ↔ f.holds j ∨ j = id ∧ f.queue key = [] := by
  rw [join_eq]
  rw [tell_holds (joined_sound sound new key) (joined_member f id key), joined_head_iff new]
  have before : (f.joined id key).holds j ↔ f.holds j := by
    simp [holds, joined_claims]
  rw [before]

theorem tell_intended (f : Flights ι) (id : ι) (lock : Nat) :
    (f.tell id lock).2.intended = f.intended := by
  unfold tell
  split <;> rfl

theorem join_intended (f : Flights ι) (id : ι) (key : String) :
    (f.join id key).2.intended = f.intended := by
  rw [join_eq, tell_intended]
  exact (lock_for_keeps f.prune key).2

/-! ### Leaving -/

def without (f : Flights ι) (id : ι) : Flights ι :=
  { f with claims := f.claims.filter (·.id != id) }

theorem without_queue (f : Flights ι) (id : ι) (k : String) :
    (f.without id).queue k = (f.queue k).filter (· != id) := by
  simp only [queue, without, List.filter_map, List.filter_filter, Function.comp_def, Bool.and_comm]

theorem without_callers (f : Flights ι) (id : ι) :
    (f.without id).callers = f.callers.filter (· != id) := by
  simp only [callers, without, List.filter_map, Function.comp_def]

theorem head_of_without {queue : List ι} {first id : ι} (head : queue.head? = some first)
    (other : first ≠ id) : (queue.filter (· != id)).head? = some first := by
  cases queue with
  | nil => cases head
  | cons front rest =>
      rw [List.head?_cons] at head
      cases head
      simp [other]

theorem without_sound {f : Flights ι} (sound : f.Sound) (id : ι) : (f.without id).Sound where
  distinct := by
    rw [without_callers]
    exact sound.distinct.sublist List.filter_sublist
  slotted := by
    intro claim member
    exact sound.slotted claim (List.mem_filter.mp member).1
  apart := sound.apart
  used := sound.used
  first := by
    intro claim member held
    obtain ⟨before, other⟩ := List.mem_filter.mp member
    rw [without_queue]
    exact head_of_without (sound.first claim before held) (by simpa using other)

/-- Letting a caller go changes its claims and, at most, the slots. -/
theorem drop_claims (f : Flights ι) (id : ι) :
    (f.drop id).2.claims = (f.without id).claims := by
  unfold drop
  cases found : f.claim? id with
  | some claim =>
      simp only
      split
      · split
        · split <;> rfl
        · rfl
      · rfl
  | none =>
      have absent : (f.without id).claims = f.claims := by
        rw [without, List.filter_eq_self]
        intro claim member
        simpa using List.find?_eq_none.mp found claim member
      rw [absent]
      simp only
      split <;> rfl

theorem drop_queue (f : Flights ι) (id : ι) (k : String) :
    (f.drop id).2.queue k = (f.queue k).filter (· != id) := by
  rw [← without_queue, queue, drop_claims]
  rfl

theorem drop_callers (f : Flights ι) (id : ι) :
    (f.drop id).2.callers = f.callers.filter (· != id) := by
  rw [← without_callers, callers, drop_claims]
  rfl

theorem drop_sound {f : Flights ι} (sound : f.Sound) (id : ι) : (f.drop id).2.Sound := by
  unfold drop
  cases found : f.claim? id with
  | some claim =>
      have left := without_sound sound id
      simp only
      split
      · split
        · next slot =>
          split
          · exact left
          · next unwanted => exact erase_sound left slot (Bool.eq_false_iff.mpr unwanted)
        · exact left
      · exact left
  | none =>
      simp only
      split <;> exact ⟨sound.distinct, sound.slotted, sound.apart, sound.used, sound.first⟩

theorem drop_holds (f : Flights ι) (id j : ι) : (f.drop id).2.holds j ↔ f.holds j ∧ j ≠ id := by
  rw [holds, drop_claims]
  constructor
  · rintro ⟨claim, member, rfl, held⟩
    obtain ⟨before, other⟩ := List.mem_filter.mp member
    exact ⟨⟨claim, before, rfl, held⟩, by simpa using other⟩
  · rintro ⟨⟨claim, before, rfl, held⟩, other⟩
    exact ⟨claim, List.mem_filter.mpr ⟨before, by simpa using other⟩, rfl, held⟩

end ExpiringCache.Flights
