import ExpiringCache.Proofs.Flight.KeyQueues
/-!
First come, first served, for each key by itself. The flights of a cache answer every script as
queues do that have nothing to do with one another; from this follow that no key has two holders,
that nobody is overtaken or forgotten, and that what is done for other keys changes nothing.
-/

namespace ExpiringCache

variable {ι : Type}

def FlightCall.concerns (keyOf : ι → Option String) (key : String) : FlightCall ι → Bool
  | .begin _ k => k == key
  | .poll id => keyOf id == some key
  | .drop id => keyOf id == some key

def answersAbout (keyOf : ι → Option String) (key : String) (script : List (FlightCall ι))
    (answers : List FlightAnswer) : List FlightAnswer :=
  ((script.zip answers).filter fun entry => entry.1.concerns keyOf key).map (·.2)

variable [DecidableEq ι]

def announced (script : List (FlightCall ι)) (id : ι) : Option String :=
  script.findSome? fun
    | .begin begun key => if begun = id then some key else none
    | _ => none

/-- A script that announces each caller once leaves no doubt about its key. -/
theorem announced_of_begin {script : List (FlightCall ι)}
    (once : (script.filterMap FlightCall.begun?).Nodup) {id : ι} {key : String}
    (begins : .begin id key ∈ script) : announced script id = some key := by
  induction script with
  | nil => cases begins
  | cons call rest ih =>
      have restOnce : (rest.filterMap FlightCall.begun?).Nodup :=
        once.sublist ((List.sublist_cons_self call rest).filterMap _)
      cases call with
      | begin begun key' =>
          have mentioned : ∀ k, .begin id k ∈ rest → id ∈ rest.filterMap FlightCall.begun? := by
            intro k later
            exact List.mem_filterMap.mpr ⟨_, later, rfl⟩
          have named : (FlightCall.begin begun key').begun? = some begun := rfl
          rw [List.filterMap_cons_some named, List.nodup_cons] at once
          rcases List.mem_cons.mp begins with here | later
          · cases here
            simp [announced]
          · have other : begun ≠ id := by
              rintro rfl
              exact once.1 (mentioned key later)
            simpa [announced, other] using ih restOnce later
      | poll polled =>
          have later := (List.mem_cons.mp begins).resolve_left (by simp)
          simpa [announced] using ih restOnce later
      | drop dropped =>
          have later := (List.mem_cons.mp begins).resolve_left (by simp)
          simpa [announced] using ih restOnce later

namespace KeyQueues

def Proper (keyOf : ι → Option String) (q : KeyQueues ι) : Prop :=
  ∀ id k, q.wish id = some k → keyOf id = some k

/-- Two states of the queues are the same as far as a key is concerned. -/
structure AgreeOn (keyOf : ι → Option String) (key : String) (q r : KeyQueues ι) : Prop where
  queue : q.queue key = r.queue key
  wish : ∀ id, keyOf id = some key → q.wish id = r.wish id
  told : ∀ id, keyOf id = some key → q.told id = r.told id

variable {keyOf : ι → Option String} {key : String} {q r : KeyQueues ι}

theorem call_proper (proper : q.Proper keyOf) (call : FlightCall ι)
    (announces : ∀ id k, call = .begin id k → keyOf id = some k) :
    (q.call call).2.Proper keyOf := by
  cases call with
  | begin begun k =>
      intro id k' wish
      simp only [call] at wish
      split at wish
      · next same =>
        cases wish
        rw [same]
        exact announces begun k rfl
      · exact proper id k' wish
  | poll polled =>
      simp only [call]
      cases q.wish polled <;> exact proper
  | drop dropped =>
      simp only [call]
      cases q.wish dropped with
      | none => exact proper
      | some k =>
          intro id k' wish
          simp only at wish
          split at wish
          · cases wish
          · exact proper id k' wish

/-- A call that is about another key changes nothing for this one. -/
theorem call_of_other (proper : q.Proper keyOf) (agree : q.AgreeOn keyOf key r)
    (call : FlightCall ι) (announces : ∀ id k, call = .begin id k → keyOf id = some k)
    (other : call.concerns keyOf key = false) : (q.call call).2.AgreeOn keyOf key r := by
  cases call with
  | begin begun k =>
      have differs : ∀ id, keyOf id = some key → id ≠ begun := by
        rintro id mine rfl
        rw [announces id k rfl] at mine
        cases mine
        simp [FlightCall.concerns] at other
      refine ⟨agree.queue, ?_, agree.told⟩
      intro id mine
      simp only [call, if_neg (differs id mine)]
      exact agree.wish id mine
  | poll polled =>
      have notMine : keyOf polled ≠ some key := by simpa [FlightCall.concerns] using other
      simp only [call]
      cases wish : q.wish polled with
      | none => exact agree
      | some k =>
          have differs : key ≠ k := by
            rintro rfl
            exact notMine (proper polled key wish)
          refine ⟨?_, agree.wish, ?_⟩
          · simp only [if_neg differs]
            exact agree.queue
          · intro id mine
            have another : (id == polled) = false := by
              rw [beq_eq_false_iff_ne]
              rintro rfl
              exact notMine mine
            simp only [another, Bool.false_and, Bool.or_false]
            exact agree.told id mine
  | drop dropped =>
      have notMine : keyOf dropped ≠ some key := by simpa [FlightCall.concerns] using other
      simp only [call]
      cases wish : q.wish dropped with
      | none => exact agree
      | some k =>
          have differs : key ≠ k := by
            rintro rfl
            exact notMine (proper dropped key wish)
          have another : ∀ id, keyOf id = some key → id ≠ dropped := by
            rintro id mine rfl
            exact notMine mine
          refine ⟨?_, ?_, ?_⟩
          · simp only [if_neg differs]
            exact agree.queue
          · intro id mine
            simp only [if_neg (another id mine)]
            exact agree.wish id mine
          · intro id mine
            simp only [bne_iff_ne.mpr (another id mine), Bool.and_true]
            exact agree.told id mine

theorem call_of_mine (proper : q.Proper keyOf) (agree : q.AgreeOn keyOf key r)
    (call : FlightCall ι) (mine : call.concerns keyOf key = true) :
    (q.call call).1 = (r.call call).1 ∧ (q.call call).2.AgreeOn keyOf key (r.call call).2 := by
  cases call with
  | begin begun k =>
      refine ⟨rfl, agree.queue, ?_, agree.told⟩
      intro id ours
      simp only [call, agree.wish id ours]
  | poll polled =>
      have ours : keyOf polled = some key := by simpa [FlightCall.concerns] using mine
      have same := agree.wish polled ours
      simp only [call, ← same]
      cases wish : q.wish polled with
      | none => exact ⟨rfl, agree⟩
      | some k =>
          have equal : k = key := Option.some.inj ((proper polled k wish).symm.trans ours)
          subst equal
          have asked : q.asked polled k = r.asked polled k := by
            simp only [KeyQueues.asked, agree.queue]
          simp only [asked]
          refine ⟨trivial, by simp only [if_true], agree.wish, ?_⟩
          intro id his
          simp only [agree.told id his]
  | drop dropped =>
      have ours : keyOf dropped = some key := by simpa [FlightCall.concerns] using mine
      have same := agree.wish dropped ours
      simp only [call, ← same]
      cases wish : q.wish dropped with
      | none => exact ⟨rfl, agree⟩
      | some k =>
          have equal : k = key := Option.some.inj ((proper dropped k wish).symm.trans ours)
          subst equal
          refine ⟨by simp only [agree.told dropped ours], by simp only [if_true, agree.queue], ?_, ?_⟩
          · intro id his
            simp only [agree.wish id his]
          · intro id his
            simp only [agree.told id his]

/-- Leaving out the calls about other keys changes no answer about this one. -/
theorem run_of_mine (script : List (FlightCall ι)) :
    ∀ {q r : KeyQueues ι}, q.Proper keyOf → q.AgreeOn keyOf key r →
      (∀ id k, .begin id k ∈ script → keyOf id = some k) →
      answersAbout keyOf key script (q.run script).1 =
        (r.run (script.filter (·.concerns keyOf key))).1 := by
  induction script with
  | nil => intros; rfl
  | cons call rest ih =>
      intro q r proper agree announces
      have here : ∀ id k, call = .begin id k → keyOf id = some k := by
        rintro id k rfl
        exact announces id k List.mem_cons_self
      have later : ∀ id k, .begin id k ∈ rest → keyOf id = some k := by
        intro id k member
        exact announces id k (List.mem_cons_of_mem _ member)
      have after := call_proper proper call here
      cases mine : call.concerns keyOf key with
      | true =>
          obtain ⟨same, agreeAfter⟩ := call_of_mine proper agree call mine
          have tail := ih after agreeAfter later
          simp only [answersAbout] at tail ⊢
          simp [run, mine, same, tail]
      | false =>
          have tail := ih after (call_of_other proper agree call here mine) later
          simp only [answersAbout] at tail ⊢
          simp [run, mine, tail]

end KeyQueues

namespace Flights

variable {f : Flights ι}

/-- Whoever stands in a queue is told that it holds the key exactly if nobody is ahead. -/
theorem poll_by_place (sound : f.Sound) {key : String} {ahead behind : List ι} {id : ι}
    (place : f.queue key = ahead ++ id :: behind) :
    (f.poll id).1 = if ahead = [] then .held else .waiting := by
  have queued : id ∈ f.queue key := by simp [place]
  obtain ⟨claim, member, rfl, rfl⟩ := (mem_queue_iff f key id).mp queued
  have told : f.poll claim.id = f.tell claim.id claim.lock := by
    unfold poll
    rw [claim_of_caller sound member]
  have head : (f.queue claim.key).head? = some claim.id ↔ ahead = [] := by
    have distinct := queue_nodup sound claim.key
    rw [place] at distinct ⊢
    cases ahead with
    | nil => simp
    | cons front rest =>
        have other : front ≠ claim.id := by
          rintro rfl
          simp at distinct
        simp [other]
  rw [told, tell_turn sound member]
  simp only [head]

/-- Flights are first come, first served, for each key by itself. Whatever is asked, in whatever
order, is answered as independent queues answer it; no key has two holders; whoever is first in its
queue is told so when it polls next, and nobody else is; and the answers about a key are those of
the script that leaves out all other keys. -/
theorem flights_refine_key_queues (script : List (FlightCall ι))
    (once : (script.filterMap FlightCall.begun?).Nodup) :
    (empty.run script).1 = (KeyQueues.empty.run script).1 ∧
      (∀ key, ∀ a ∈ (empty.run script).2.queue key, ∀ b ∈ (empty.run script).2.queue key,
        (empty.run script).2.holds a → (empty.run script).2.holds b → a = b) ∧
      (∀ key ahead id behind,
        (KeyQueues.empty.run script).2.queue key = ahead ++ id :: behind →
          ((empty.run script).2.poll id).1 = if ahead = [] then .held else .waiting) ∧
      ∀ key, answersAbout (announced script) key script (empty.run script).1 =
        (empty.run (script.filter (·.concerns (announced script) key))).1 := by
  obtain ⟨same, follows⟩ := run_follows script empty_follows once (fun _ _ => rfl)
  refine ⟨same, ?_, ?_, ?_⟩
  · intro key a aQueued b bQueued aHolds bHolds
    have aFirst := holder_is_first follows.sound aQueued aHolds
    have bFirst := holder_is_first follows.sound bQueued bHolds
    exact Option.some.inj (aFirst.symm.trans bFirst)
  · intro key ahead id behind place
    rw [← follows.queues] at place
    exact poll_by_place follows.sound place
  · intro key
    have mineOnce : ((script.filter (·.concerns (announced script) key)).filterMap
        FlightCall.begun?).Nodup :=
      once.sublist (List.filter_sublist.filterMap _)
    rw [same, (run_follows _ empty_follows mineOnce (fun _ _ => rfl)).1]
    apply KeyQueues.run_of_mine script
    · intro id k wish
      cases wish
    · exact ⟨rfl, fun _ _ => rfl, fun _ _ => rfl⟩
    · intro id k begins
      exact announced_of_begin once begins

/-- Three callers want a key. The second is let go after it has been handed the key and before it
knows; the third then holds it, and a caller of another key does not wait. -/
def handover : List (FlightCall Nat) :=
  [.begin 1 "k", .begin 2 "k", .begin 3 "k", .begin 4 "j", .poll 1, .poll 2, .poll 3, .poll 4,
    .drop 1, .drop 2, .poll 3, .drop 3, .drop 4, .poll 4]

theorem handover_is_served_in_order :
    (handover.filterMap FlightCall.begun?).Nodup ∧
      (empty.run handover).1 =
        [.begun, .begun, .begun, .begun, .turn .held, .turn .waiting, .turn .waiting, .turn .held,
          .departure .released, .departure .cancelled, .turn .held, .departure .released,
          .departure .released, .turn .gone] :=
  ⟨by decide, (flights_refine_key_queues handover (by decide)).1.trans (by decide)⟩

end Flights

end ExpiringCache
