import Mathlib.Data.Finset.Dedup
import Mathlib.Data.Finset.Card
import ExpiringCache.Proofs.Flight.KeyQueues
import ExpiringCache.Proofs.Flight.Leftover
/-!
The slots of flights over whole scripts. Every call is accounted for: it leaves a slot behind only
if it lets go of the last caller of a key and that caller still stood in line, and it clears away
all such slots if it has a caller join. So the slots are those of the keys that somebody holds or
awaits, but for what callers have left that went away since anybody last joined.
-/

namespace ExpiringCache.Flights

variable {ι : Type}

def Wanted (f : Flights ι) (key : String) : Prop := ∃ claim ∈ f.claims, claim.key = key

theorem wanted_iff_in_queue (f : Flights ι) (key : String) : f.Wanted key ↔ f.queue key ≠ [] := by
  simp [Wanted, queue]

theorem mem_slots_iff (f : Flights ι) (key : String) :
    key ∈ f.slots.keys ↔ f.slots.get? key ≠ none := by
  rw [Option.ne_none_iff_exists', Table.keys, List.mem_map]
  constructor
  · rintro ⟨⟨k, lock⟩, there, rfl⟩
    exact ⟨lock, (Table.mem_rows_iff_get f.slots k lock).mp there⟩
  · rintro ⟨lock, found⟩
    exact ⟨(key, lock), (Table.mem_rows_iff_get f.slots key lock).mpr found, rfl⟩

/-- The number of slots is the number of keys that are held or awaited, if nothing is left over. -/
theorem in_flight_of_nothing_left {f : Flights ι} (sound : f.Sound) (clear : ∀ key, ¬f.Leftover key) :
    f.inFlight = (f.claims.map (·.key)).toFinset.card := by
  have same : f.slots.keys.toFinset = (f.claims.map (·.key)).toFinset := by
    ext key
    rw [List.mem_toFinset, List.mem_toFinset, mem_slots_iff, List.mem_map]
    constructor
    · intro slotted
      by_contra unwanted
      refine clear key ⟨slotted, ?_⟩
      rw [← not_ne_iff, ← wanted_iff_in_queue]
      exact unwanted
    · rintro ⟨claim, member, rfl⟩
      simp [sound.slotted claim member]
  rw [← same, List.toFinset_card_of_nodup f.slots.nodup_keys]
  simp [inFlight, Table.size, Table.keys]

variable [DecidableEq ι]

/-- A call has a caller join a queue: it is the caller's first poll. -/
def Joins (f : Flights ι) : FlightCall ι → Prop
  | .poll id => id ∉ f.callers ∧ ∃ key, (id, key) ∈ f.intended
  | _ => False

/-- A call lets a caller go that stands in line for a key and has not been told that it holds it. It
may have been handed the key already. -/
def GivesUp (f : Flights ι) (key : String) : FlightCall ι → Prop
  | .drop id => id ∈ f.queue key ∧ ¬f.holds id
  | _ => False

/-- Every call of a script is as `P` says, in the state in which it is made. -/
def Throughout (P : Flights ι → FlightCall ι → Prop) (f : Flights ι) :
    List (FlightCall ι) → Prop
  | [] => True
  | call :: rest => P f call ∧ Throughout P (f.call call).2 rest

/-! ### Scripts -/

theorem run_append (f : Flights ι) (script more : List (FlightCall ι)) :
    (f.run (script ++ more)).2 = ((f.run script).2.run more).2 := by
  induction script generalizing f with
  | nil => rfl
  | cons first rest ih => exact ih (f.call first).2

theorem run_snoc (f : Flights ι) (script : List (FlightCall ι)) (call : FlightCall ι) :
    (f.run (script ++ [call])).2 = ((f.run script).2.call call).2 := run_append f script [call]

theorem throughout_append (P : Flights ι → FlightCall ι → Prop) (f : Flights ι)
    (script more : List (FlightCall ι)) :
    f.Throughout P (script ++ more) ↔ f.Throughout P script ∧ (f.run script).2.Throughout P more := by
  induction script generalizing f with
  | nil => simp [Throughout, run]
  | cons first rest ih =>
      have later := ih (f.call first).2
      simp only [List.cons_append, Throughout, later, and_assoc]
      rfl

/-! ### One call -/

variable {f : Flights ι} {id : ι} {key : String}

/-- A caller that has been announced and has not joined comes out of the announced ones by name. -/
theorem meant_of_joins (joins : f.Joins (.poll id)) :
    f.claim? id = none ∧ ∃ entry, f.intended.find? (·.1 == id) = some entry := by
  obtain ⟨new, key, announced⟩ := joins
  refine ⟨(claim_eq_none_iff f id).mpr new, ?_⟩
  rw [← Option.isSome_iff_exists, List.find?_isSome]
  exact ⟨(id, key), announced, beq_self_eq_true id⟩

theorem poll_of_joins {entry : ι × String} (absent : f.claim? id = none)
    (meant : f.intended.find? (·.1 == id) = some entry) :
    f.poll id = (f.withdrawn id).join id entry.2 := by
  unfold poll
  rw [absent, meant]
  rfl

theorem withdrawn_sound (sound : f.Sound) (id : ι) : (f.withdrawn id).Sound :=
  sound_of_same_claims sound rfl rfl rfl

theorem call_sound (sound : f.Sound) (call : FlightCall ι) : (f.call call).2.Sound := by
  cases call with
  | begin id key => exact sound_of_same_claims sound rfl rfl rfl
  | poll id =>
      simp only [call]
      cases found : f.claim? id with
      | some claim =>
          obtain ⟨member, rfl⟩ := (claim_eq_some_iff sound id claim).mp found
          rw [poll, found]
          exact tell_sound sound member
      | none =>
          cases meant : f.intended.find? (·.1 == id) with
          | some entry =>
              rw [poll_of_joins found meant]
              have new : id ∉ (f.withdrawn id).callers := (claim_eq_none_iff f id).mp found
              exact join_sound (withdrawn_sound sound id) new entry.2
          | none =>
              rw [poll, found, meant]
              exact sound
  | drop id => exact drop_sound sound id

theorem nothing_left_of_joins (sound : f.Sound) {call : FlightCall ι} (joins : f.Joins call)
    (key : String) : ¬(f.call call).2.Leftover key := by
  cases call with
  | begin id k => cases joins
  | drop id => cases joins
  | poll id =>
      obtain ⟨absent, entry, meant⟩ := meant_of_joins joins
      simp only [call, poll_of_joins absent meant]
      exact join_leaves_nothing (withdrawn_sound sound id) id entry.2 key

/-- A slot is left over after a call only if it was before, or if the call let go of the last caller
of its key while that one stood in line. -/
theorem leftover_of_call (sound : f.Sound) {call : FlightCall ι}
    (left : (f.call call).2.Leftover key) :
    f.Leftover key ∨ ∃ id, call = .drop id ∧ f.queue key = [id] ∧ ¬f.holds id := by
  cases call with
  | begin id k => exact .inl left
  | poll id =>
      refine .inl ?_
      simp only [call] at left
      cases found : f.claim? id with
      | some claim =>
          rw [poll, found, tell_leftover] at left
          exact left
      | none =>
          cases meant : f.intended.find? (·.1 == id) with
          | some entry =>
              rw [poll_of_joins found meant] at left
              exact absurd left (join_leaves_nothing (withdrawn_sound sound id) id entry.2 key)
          | none =>
              rw [poll, found, meant] at left
              exact left
  | drop id =>
      simp only [call] at left
      by_cases holds : f.holds id
      · exact .inl (leftover_of_release sound holds left)
      rcases leftover_of_drop left with before | queued
      · exact .inl before
      -- Nobody else is in the queue, or somebody would be there still.
      have alone : ∀ j ∈ f.queue key, j = id := by
        have empty := left.2
        rw [drop_queue, List.filter_eq_nil_iff] at empty
        intro j there
        simpa using empty j there
      have last : f.queue key = [id] :=
        List.perm_singleton.mp ((List.perm_ext_iff_of_nodup (queue_nodup sound key)
          (List.nodup_singleton id)).mpr fun j =>
            ⟨fun there => List.mem_singleton.mpr (alone j there),
              fun same => List.mem_singleton.mp same ▸ queued⟩)
      exact .inr ⟨id, rfl, last, holds⟩

/-! ### Whole scripts -/

theorem run_sound (script : List (FlightCall ι)) : (empty.run script).2.Sound := by
  induction script using List.reverseRecOn with
  | nil => exact empty_sound
  | append_singleton before call ih =>
      rw [run_snoc]
      exact call_sound ih call

/-- What is left over at the end of a script was left by the last caller of its key, which gave up
while it stood in line, and nobody has joined a queue since. -/
theorem leftover_of_run (script : List (FlightCall ι)) :
    (empty.run script).2.Leftover key → ∃ before id later,
      script = before ++ .drop id :: later ∧ (empty.run before).2.queue key = [id] ∧
        ¬(empty.run before).2.holds id ∧
        (empty.run (before ++ [.drop id])).2.Throughout (fun f call => ¬f.Joins call) later := by
  induction script using List.reverseRecOn with
  | nil =>
      rintro ⟨slotted, _⟩
      exact absurd (Table.get_empty key) slotted
  | append_singleton script call ih =>
      intro left
      rw [run_snoc] at left
      have sound := run_sound script
      have apart : ¬(empty.run script).2.Joins call :=
        fun joins => nothing_left_of_joins sound joins key left
      rcases leftover_of_call sound left with earlier | ⟨id, rfl, last, waits⟩
      · obtain ⟨before, id, later, rfl, last, waits, quiet⟩ := ih earlier
        refine ⟨before, id, later ++ [call], by simp, last, waits, ?_⟩
        rw [throughout_append]
        refine ⟨quiet, ?_, trivial⟩
        rwa [← run_append, List.append_assoc]
      · exact ⟨script, id, [], rfl, last, waits, trivial⟩

/-- If no caller ever gives up while it stands in line, nothing is left over. -/
theorem nothing_left_of_patience (script : List (FlightCall ι))
    (patient : empty.Throughout (fun f call => ∀ key, ¬f.GivesUp key call) script) (key : String) :
    ¬(empty.run script).2.Leftover key := by
  intro left
  obtain ⟨before, id, later, rfl, last, waits, _⟩ := leftover_of_run script left
  rw [throughout_append, Throughout] at patient
  exact patient.2.1 key ⟨last ▸ List.mem_singleton_self id, waits⟩

/-- What the slots are at the end of a script. Every key that is wanted has one. A key that is not
has one only if the last caller of the key was dropped while it stood in line, and nobody has joined
a queue since. -/
structure Tight (script : List (FlightCall ι)) (f : Flights ι) : Prop where
  slotted : ∀ {key}, f.Wanted key → key ∈ f.slots.keys
  cleared : ∀ {before call}, script = before ++ [call] → (empty.run before).2.Joins call →
    ∀ key, key ∈ f.slots.keys ↔ f.Wanted key
  left : ∀ {key}, key ∈ f.slots.keys → ¬f.Wanted key → ∃ before id later,
    script = before ++ .drop id :: later ∧ (empty.run before).2.queue key = [id] ∧
      ¬(empty.run before).2.holds id ∧
      (empty.run (before ++ [.drop id])).2.Throughout (fun f call => ¬f.Joins call) later
  counted : empty.Throughout (fun f call => ∀ key, ¬f.GivesUp key call) script →
    f.inFlight = (f.claims.map (·.key)).toFinset.card
  grounded : empty.Throughout (fun f call => ∀ key, ¬f.GivesUp key call) script →
    f.claims = [] → f.inFlight = 0

theorem slots_do_not_leak (script : List (FlightCall ι)) :
    Tight script (empty.run script).2 := by
  have sound := run_sound script
  have slotted : ∀ {key}, (empty.run script).2.Wanted key → key ∈ (empty.run script).2.slots.keys := by
    rintro key ⟨claim, member, rfl⟩
    rw [mem_slots_iff, sound.slotted claim member]
    exact Option.some_ne_none _
  have leftover : ∀ {key}, key ∈ (empty.run script).2.slots.keys →
      ¬(empty.run script).2.Wanted key → (empty.run script).2.Leftover key := by
    intro key there unwanted
    rw [wanted_iff_in_queue, not_ne_iff] at unwanted
    exact ⟨(mem_slots_iff _ key).mp there, unwanted⟩
  have counted : empty.Throughout (fun f call => ∀ key, ¬f.GivesUp key call) script →
      (empty.run script).2.inFlight = ((empty.run script).2.claims.map (·.key)).toFinset.card :=
    fun patient => in_flight_of_nothing_left sound (nothing_left_of_patience script patient)
  refine ⟨slotted, ?_, ?_, counted, ?_⟩
  · rintro before call rfl joins key
    refine ⟨fun there => ?_, slotted⟩
    by_contra unwanted
    have left := leftover there unwanted
    rw [run_snoc] at left
    exact nothing_left_of_joins (run_sound before) joins key left
  · intro key there unwanted
    exact leftover_of_run script (leftover there unwanted)
  · intro patient nobody
    rw [counted patient, nobody]
    rfl

/-- Who holds a key goes, then who waits for it, and the slot stays until somebody joins a queue. -/
example :
    let script : List (FlightCall Nat) :=
      [.begin 1 "k", .begin 2 "k", .poll 1, .poll 2, .drop 1, .drop 2, .begin 3 "j"]
    (empty.run script).2.slots.keys = ["k"] ∧
      (empty.run (script ++ [.poll 3])).2.slots.keys = ["j"] := by
  decide

end ExpiringCache.Flights
