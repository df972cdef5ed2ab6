import ExpiringCache.Proofs.Remote.FillMarks
import ExpiringCache.Proofs.Remote.Writers
/-!
The fills of a networked cache. Each function that takes up a request, looks whether a turn has
come, goes on with a reply or ends a computation takes the one fill that it is for a step further on
its way, and leaves all others where they are.
-/

namespace ExpiringCache

open RequestStage (looking lookingAgain fetching)
open FillMark (Advance Fills)

def FillMark.ofProgress : Progress → List FillMark
  | .waiting => []
  | .send command => [.sent command]
  | .compute => [.begun]
  | .finished outcome => [.finished outcome]

namespace Exchange

variable {reply : Except ClientError Reply}

theorem resume_of_counted (ns : Namespace) (key : String) {n : Int}
    (count : counted reply = .ok n) :
    (Exchange.exists key).resume ns reply = .finished (.ok (.flag (0 < n))) [] := by
  rw [counted] at count
  simp only [resume, count]

theorem resume_of_refused (ns : Namespace) (key : String) {e : ClientError}
    (refused : counted reply = .error e) :
    (Exchange.exists key).resume ns reply = failed "EXISTS" e := by
  rw [counted] at refused
  simp only [resume, refused]

end Exchange

/-! ### What callers do, as steps of fills -/

namespace NetworkedCache

variable {ι : Type} [DecidableEq ι]

structure Spares (c : NetworkedCache ι) (id : ι) (d : NetworkedCache ι) : Prop where
  named : d.ns = c.ns
  others : ∀ {j}, j ≠ id → d.stage? j = c.stage? j

variable {c d : NetworkedCache ι} {id : ι}

theorem spares_self (c : NetworkedCache ι) (id : ι) : c.Spares id c := ⟨rfl, fun _ => rfl⟩

theorem note_spares (spared : c.Spares id d) (stage : RequestStage) :
    c.Spares id (d.note id stage) where
  named := spared.named
  others := by
    intro j other
    rw [stage_after_note, if_neg other]
    exact spared.others other

theorem leave_spares (c : NetworkedCache ι) (id : ι) : c.Spares id (c.leave id) where
  named := rfl
  others := by
    intro j other
    rw [stage_after_leave, if_neg other]

theorem told_spares (spared : c.Spares id d) (key : String) (reading : Reading) (turn : Turn) :
    c.Spares id (d.told id key reading turn).state := by
  cases turn with
  | held => exact note_spares spared _
  | waiting => exact note_spares spared _
  | gone => exact note_spares spared _

theorem write_spares (spared : c.Spares id d) (exchange : Exchange) :
    c.Spares id (d.write id exchange).state := by
  unfold write
  split
  · exact note_spares spared _
  · exact note_spares spared _

theorem start_spares (c : NetworkedCache ι) (id : ι) (request : Request) :
    c.Spares id (c.start id request).state := by
  cases request with
  | fill key reading => exact note_spares (spares_self c id) _
  | operate operation =>
      simp only [start]
      split
      · have joined : c.Spares id { c with writers := c.writers.join id } := ⟨rfl, fun _ => rfl⟩
        exact write_spares joined _
      · exact note_spares (spares_self c id) _

theorem turn_spares (c : NetworkedCache ι) (id : ι) : c.Spares id (c.turn id).state := by
  unfold turn
  split
  · exact write_spares (spares_self c id) _
  · have polled : c.Spares id { c with flights := (c.flights.poll id).2 } := ⟨rfl, fun _ => rfl⟩
    exact told_spares polled _ _ _
  · exact spares_self c id

theorem settle_spares (c : NetworkedCache ι) (id : ι) (outcome : Outcome) (events : List Event)
    (purpose : Purpose) : c.Spares id (c.settle id outcome events purpose).state := by
  have left := leave_spares c id
  cases purpose with
  | answer => exact left
  | look key reading =>
      simp only [settle]
      split
      · exact note_spares left _
      · have joined : c.Spares id { c with flights := (c.flights.join id key).2 } :=
          ⟨rfl, fun _ => rfl⟩
        exact told_spares joined _ _ _
      · exact left
  | lookAgain key reading =>
      simp only [settle]
      split
      · exact note_spares left _
      · exact note_spares (spares_self c id) _
      · exact left

theorem reply_spares (c : NetworkedCache ι) (id : ι) (reply : Except ClientError Reply) :
    c.Spares id (c.reply id reply).state := by
  unfold NetworkedCache.reply
  split
  · split
    · exact note_spares (spares_self c id) _
    · exact settle_spares c id _ _ _
  · exact spares_self c id

theorem computed_spares (c : NetworkedCache ι) (id : ι) (failure : Option Cause) :
    c.Spares id (c.computed id failure).state := by
  have left := leave_spares c id
  unfold computed
  split
  · cases failure with
    | some cause => exact left
    | none => exact note_spares left _
  · exact spares_self c id

/-! ### Steps -/

variable {key : String} {reading : Reading}

theorem stage_of_note (c : NetworkedCache ι) (id : ι) (stage : RequestStage) :
    (c.note id stage).stage? id = some stage := by
  rw [stage_after_note, if_pos rfl]

theorem stage_of_leave (c : NetworkedCache ι) (id : ι) : (c.leave id).stage? id = none := by
  rw [stage_after_leave, if_pos rfl]

/-- A reaction takes a fill further from a stage, `seen` being what has brought it about. -/
def StepsTo (c : NetworkedCache ι) (id : ι) (key : String) (reading : Reading)
    (stage : RequestStage) (seen : List FillMark) (reaction : Reaction (NetworkedCache ι)) : Prop :=
  Advance c.ns key reading stage (seen ++ FillMark.ofProgress reaction.progress)
    (reaction.state.stage? id)

theorem told_steps (d : NetworkedCache ι) (named : d.ns = c.ns) (turn : Turn)
    {stage : RequestStage} {seen : List FillMark}
    (held : Advance c.ns key reading stage (seen ++ [.sent (.probe c.ns key)])
      (some (lookingAgain key reading)))
    (waiting : Advance c.ns key reading stage seen (some (.forKey key reading))) :
    c.StepsTo id key reading stage seen (d.told id key reading turn) := by
  cases turn with
  | held =>
      rw [StepsTo, told, send, stage_of_note, named]
      exact held
  | waiting =>
      rw [StepsTo, told, Reaction.quiet, stage_of_note, FillMark.ofProgress, List.append_nil]
      exact waiting
  | gone =>
      rw [StepsTo, told, Reaction.quiet, stage_of_note, FillMark.ofProgress, List.append_nil]
      exact waiting

theorem fetch_steps (c : NetworkedCache ι) (id : ι) (events : List Event) {stage : RequestStage}
    {seen : List FillMark}
    (reads : Advance c.ns key reading stage (seen ++ [.sent (.get c.ns key)])
      (some (fetching key reading))) :
    c.StepsTo id key reading stage seen (c.fetch id key reading events) := by
  rw [StepsTo, fetch, send, stage_of_note]
  exact reads

theorem leave_steps (c : NetworkedCache ι) (id : ι) (events : List Event) {outcome : Outcome}
    {stage : RequestStage} {seen : List FillMark}
    (ends : Advance c.ns key reading stage (seen ++ [.finished outcome]) none) :
    c.StepsTo id key reading stage seen ⟨.finished outcome, events, c.leave id⟩ := by
  rw [StepsTo, stage_of_leave]
  exact ends

theorem turn_steps (found : c.stage? id = some (.forKey key reading)) :
    c.StepsTo id key reading (.forKey key reading) [] (c.turn id) := by
  simp only [turn, found]
  have named : ({ c with flights := (c.flights.poll id).2 } : NetworkedCache ι).ns = c.ns := rfl
  exact told_steps _ named _ .holds (.rests _)

theorem reply_of_asked {exchange : Exchange} {purpose : Purpose}
    (found : c.stage? id = some (.asked exchange purpose)) {reply : Except ClientError Reply}
    {outcome : Outcome} {events : List Event}
    (resumed : exchange.resume c.ns reply = .finished outcome events) :
    c.reply id reply = c.settle id outcome events purpose := by
  simp only [NetworkedCache.reply, found, resumed]

theorem looking_steps (found : c.stage? id = some (looking key reading))
    (reply : Except ClientError Reply) :
    c.StepsTo id key reading (looking key reading) [.heard reply] (c.reply id reply) := by
  cases count : Exchange.counted reply with
  | error e =>
      rw [reply_of_asked found (Exchange.resume_of_refused c.ns key count)]
      exact leave_steps c id _ (.fails count)
  | ok n =>
      rw [reply_of_asked found (Exchange.resume_of_counted c.ns key count)]
      by_cases positive : 0 < n
      · simp only [settle, positive, decide_true]
        exact fetch_steps c id _ (.finds ⟨n, count, positive⟩)
      · have missing : FillMark.Missing reply := ⟨n, count, Int.not_lt.mp positive⟩
        simp only [settle, positive, decide_false]
        have named :
            ({ c with flights := (c.flights.join id key).2 } : NetworkedCache ι).ns = c.ns := rfl
        exact told_steps _ named _ (.missesAlone missing) (.misses missing)

theorem looking_again_steps (found : c.stage? id = some (lookingAgain key reading))
    (reply : Except ClientError Reply) :
    c.StepsTo id key reading (lookingAgain key reading) [.heard reply] (c.reply id reply) := by
  cases count : Exchange.counted reply with
  | error e =>
      rw [reply_of_asked found (Exchange.resume_of_refused c.ns key count)]
      exact leave_steps c id _ (.failsAgain count)
  | ok n =>
      rw [reply_of_asked found (Exchange.resume_of_counted c.ns key count)]
      by_cases positive : 0 < n
      · simp only [settle, positive, decide_true]
        exact fetch_steps c id _ (.findsAgain ⟨n, count, positive⟩)
      · have missing : FillMark.Missing reply := ⟨n, count, Int.not_lt.mp positive⟩
        simp only [settle, positive, decide_false]
        rw [StepsTo, stage_of_note]
        exact .computes missing

theorem fetching_steps (found : c.stage? id = some (fetching key reading))
    (reply : Except ClientError Reply) :
    c.StepsTo id key reading (fetching key reading) [.heard reply] (c.reply id reply) := by
  cases resumed : (Exchange.get key reading).resume c.ns reply with
  | again next => cases (Exchange.writes_of_again resumed).1
  | finished outcome events =>
      rw [reply_of_asked found resumed]
      exact leave_steps c id events (.reads resumed)

theorem computed_steps (found : c.stage? id = some (.computing key reading))
    (failure : Option Cause) :
    c.StepsTo id key reading (.computing key reading) [.computed failure]
      (c.computed id failure) := by
  cases failure with
  | none =>
      simp only [computed, found]
      exact fetch_steps c id [] .done
  | some cause =>
      simp only [computed, found]
      exact leave_steps c id [] (.failsToCompute cause)

/-! ### What is seen of a fill -/

variable {marks : List FillMark}

theorem fills_of_rest (fills : Fills c.ns key reading marks (c.stage? id))
    {reaction : Reaction (NetworkedCache ι)} (rests : reaction = .quiet .waiting c) :
    Fills c.ns key reading (marks ++ FillMark.ofProgress reaction.progress)
      (reaction.state.stage? id) := by
  rw [rests]
  exact (List.append_nil marks).symm ▸ fills

theorem fills_of_turn (fills : Fills c.ns key reading marks (c.stage? id)) :
    Fills c.ns key reading (marks ++ FillMark.ofProgress (c.turn id).progress)
      ((c.turn id).state.stage? id) := by
  have stands := FillMark.Fills.stands fills
  generalize found : c.stage? id = stage at stands
  cases stands with
  | looks => exact fills_of_rest fills (by simp only [turn, found, looking])
  | waits =>
      rw [found] at fills
      exact FillMark.Fills.advance fills (turn_steps found)
  | looksAgain => exact fills_of_rest fills (by simp only [turn, found, lookingAgain])
  | computes => exact fills_of_rest fills (by simp only [turn, found])
  | reads => exact fills_of_rest fills (by simp only [turn, found, fetching])
  | done => exact fills_of_rest fills (by simp only [turn, found])

theorem fills_of_reply (fills : Fills c.ns key reading marks (c.stage? id))
    (reply : Except ClientError Reply) :
    Fills c.ns key reading
      (marks ++ if FillMark.awaitsReply marks then
        .heard reply :: FillMark.ofProgress (c.reply id reply).progress else [])
      ((c.reply id reply).state.stage? id) := by
  have awaits := FillMark.Fills.awaits_iff fills
  by_cases asked : FillMark.awaitsReply marks = true
  · rw [if_pos asked]
    obtain ⟨exchange, purpose, sent⟩ := awaits.mp asked
    rw [sent] at fills
    cases FillMark.Fills.stands fills with
    | looks => exact FillMark.Fills.advance fills (looking_steps sent reply)
    | looksAgain => exact FillMark.Fills.advance fills (looking_again_steps sent reply)
    | reads => exact FillMark.Fills.advance fills (fetching_steps sent reply)
  · rw [if_neg asked]
    have rests : c.reply id reply = .quiet .waiting c := by
      unfold NetworkedCache.reply
      split
      · next found => exact absurd (awaits.mpr ⟨_, _, found⟩) asked
      · rfl
    rw [rests, List.append_nil]
    exact fills

theorem fills_of_computed (fills : Fills c.ns key reading marks (c.stage? id))
    (failure : Option Cause) :
    Fills c.ns key reading
      (marks ++ if FillMark.runs marks then
        .computed failure :: FillMark.ofProgress (c.computed id failure).progress else [])
      ((c.computed id failure).state.stage? id) := by
  have computes := FillMark.Fills.runs_iff fills
  by_cases runs : FillMark.runs marks = true
  · rw [if_pos runs]
    obtain ⟨k, other, running⟩ := computes.mp runs
    rw [running] at fills
    cases FillMark.Fills.stands fills with
    | computes => exact FillMark.Fills.advance fills (computed_steps running failure)
  · rw [if_neg runs]
    have rests : c.computed id failure = .quiet .waiting c := by
      unfold computed
      split
      · next found => exact absurd (computes.mpr ⟨_, _, found⟩) runs
      · rfl
    rw [rests, List.append_nil]
    exact fills

theorem fills_of_leave (fills : Fills c.ns key reading marks (c.stage? id)) :
    Fills c.ns key reading (marks ++ if FillMark.underWay marks then [.left] else [])
      ((c.leave id).stage? id) := by
  have goesOn := FillMark.Fills.under_way_iff fills
  rw [stage_of_leave]
  cases found : c.stage? id with
  | none =>
      rw [if_neg fun underWay => goesOn.mp underWay found, List.append_nil, ← found]
      exact fills
  | some stage =>
      rw [found] at fills goesOn
      rw [if_pos (goesOn.mpr (Option.some_ne_none stage))]
      exact FillMark.Fills.advance fills (.leaves stage)

theorem fills_of_start (c : NetworkedCache ι) (id : ι) (key : String) (reading : Reading) :
    Fills c.ns key reading (FillMark.ofProgress (c.start id (.fill key reading)).progress)
      ((c.start id (.fill key reading)).state.stage? id) := by
  rw [start, send, stage_of_note]
  exact .asks

theorem rests_of_stranger (stranger : c.stage? id = none) :
    c.turn id = .quiet .waiting c ∧ (∀ reply, c.reply id reply = .quiet .waiting c) ∧
      ∀ failure, c.computed id failure = .quiet .waiting c := by
  simp [turn, NetworkedCache.reply, computed, stranger]

end NetworkedCache

end ExpiringCache
