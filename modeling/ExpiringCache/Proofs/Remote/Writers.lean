import ExpiringCache.Proofs.Cache.Moves
import ExpiringCache.Proofs.Line
/-!
The line of writers of a networked cache. A caller stands in it from its request to its end; it
sends commands only while it is first, and whatever other callers do leaves the line alone.
-/

namespace ExpiringCache

def Request.writes : Request → Bool
  | .operate operation => (Exchange.ofOperation operation).isWrite
  | .fill .. => false

/-- Whether a request can stand there. Only requests that write stand in line to write or send a
command that writes, and a read that was sent is the one that was asked for. -/
def RequestStage.Serves : RequestStage → Request → Prop
  | .toWrite exchange, .operate operation =>
    exchange = Exchange.ofOperation operation ∧ exchange.isWrite = true
  | .asked exchange .answer, .operate operation =>
    exchange.isWrite = (Exchange.ofOperation operation).isWrite ∧
      (exchange.isWrite = false → exchange = Exchange.ofOperation operation)
  | .asked exchange _, .fill .. => exchange.isWrite = false
  | .forKey .., .fill .. | .computing .., .fill .. => True
  | _, _ => False

theorem RequestStage.writes_of_asked {exchange : Exchange} {purpose : Purpose} {request : Request}
    (serves : (asked exchange purpose).Serves request) (writes : exchange.isWrite = true) :
    request.writes = true := by
  cases request with
  | operate operation =>
      cases purpose with
      | answer => exact serves.1.symm.trans writes
      | look key reading => exact serves.elim
      | lookAgain key reading => exact serves.elim
  | fill key reading =>
      have reads : exchange.isWrite = false := by cases purpose <;> exact serves
      cases reads.symm.trans writes

/-- Only writes take more than one command, and they stay writes. -/
theorem Exchange.writes_of_again {exchange next : Exchange} {ns : Namespace}
    {reply : Except ClientError Reply} (again : exchange.resume ns reply = .again next) :
    exchange.isWrite = true ∧ next.isWrite = true := by
  have paged : ∀ {cursor removed}, afterPage ns cursor removed = .again next →
      next.isWrite = true := by
    intro cursor removed more
    unfold afterPage at more
    split at more
    · cases more
    · cases more
      rfl
  cases exchange with
  | get key reading =>
      cases reading <;> simp only [resume, gotten] at again <;> split at again <;>
        first | cases again | (split at again <;> cases again)
  | «exists» key =>
      simp only [resume] at again
      split at again <;> cases again
  | set key payload ttl =>
      simp only [resume] at again
      split at again <;> cases again
  | setIfAbsent key payload ttl =>
      simp only [resume] at again
      split at again <;> cases again
  | delete key =>
      simp only [resume] at again
      split at again <;> cases again
  | page cursor removed =>
      simp only [resume] at again
      split at again
      · exact ⟨rfl, paged again⟩
      · cases again
        exact ⟨rfl, rfl⟩
      · cases again
  | deletePage keys cursor removed =>
      simp only [resume] at again
      split at again
      · exact ⟨rfl, paged again⟩
      · cases again

namespace NetworkedCache

variable {ι : Type} [DecidableEq ι]

/-- What is true of the line at all times, given what callers have asked for. -/
structure WritersInLine (asked : ι → Option Request) (c : NetworkedCache ι) : Prop where
  distinct : c.writers.callers.Nodup
  serves : ∀ {id stage}, c.stage? id = some stage →
    ∃ request, asked id = some request ∧ stage.Serves request
  standing : ∀ id, id ∈ c.writers.callers ↔
    (c.stage? id).isSome = true ∧ ∃ request, asked id = some request ∧ request.writes = true
  first : ∀ {id exchange purpose}, c.stage? id = some (.asked exchange purpose) →
    exchange.isWrite = true → c.writers.first? = some id

inductive WriteMove (asked : ι → Option Request) (c : NetworkedCache ι) (id : ι) :
    Progress → NetworkedCache ι → Prop where
  | idle : WriteMove asked c id .waiting c
  | aside {progress d request} (mine : asked id = some request) (reads : request.writes = false)
      (line : d.writers = c.writers) (others : ∀ j, j ≠ id → d.stage? j = c.stage? j)
      (serves : ∀ stage, d.stage? id = some stage → stage.Serves request) :
      WriteMove asked c id progress d
  | waits {operation} (mine : asked id = some (.operate operation))
      (writes : (Exchange.ofOperation operation).isWrite = true)
      (stands : c.stage? id = some (.toWrite (.ofOperation operation)))
      (later : c.writers.isFirst id = false) :
      WriteMove asked c id .waiting (c.note id (.toWrite (.ofOperation operation)))
  | sends {operation exchange} (mine : asked id = some (.operate operation))
      (writes : (Exchange.ofOperation operation).isWrite = true)
      (stands : (c.stage? id).isSome = true) (first : c.writers.first? = some id)
      (sent : exchange.isWrite = true) :
      WriteMove asked c id (.send (exchange.command c.ns)) (c.note id (.asked exchange .answer))
  | ends {operation outcome} (mine : asked id = some (.operate operation))
      (writes : (Exchange.ofOperation operation).isWrite = true)
      (stands : (c.stage? id).isSome = true) :
      WriteMove asked c id (.finished outcome) (c.leave id)

variable {asked : ι → Option Request} {c : NetworkedCache ι} {id : ι}

theorem stranger_of_read (inLine : c.WritersInLine asked) {request : Request}
    (mine : asked id = some request) (reads : request.writes = false) :
    id ∉ c.writers.callers := by
  intro member
  obtain ⟨_, other, same, writes⟩ := (inLine.standing id).mp member
  cases mine.symm.trans same
  cases reads.symm.trans writes

/-! ### What callers do -/

theorem note_aside {request : Request} (mine : asked id = some request)
    (reads : request.writes = false) {d : NetworkedCache ι} (line : d.writers = c.writers)
    (others : ∀ j, j ≠ id → d.stage? j = c.stage? j) {stage : RequestStage}
    (serves : stage.Serves request) (progress : Progress) :
    c.WriteMove asked id progress (d.note id stage) := by
  have kept : (d.note id stage).writers = c.writers := line
  apply WriteMove.aside mine reads kept
  · intro j other
    rw [stage_after_note, if_neg other]
    exact others j other
  · intro now there
    rw [stage_after_note, if_pos rfl] at there
    cases there
    exact serves

theorem leave_aside (inLine : c.WritersInLine asked) {request : Request}
    (mine : asked id = some request) (reads : request.writes = false) (progress : Progress) :
    c.WriteMove asked id progress (c.leave id) := by
  apply WriteMove.aside mine reads
  · exact Line.leave_of_stranger (stranger_of_read inLine mine reads)
  · intro j other
    rw [stage_after_leave, if_neg other]
  · intro stage there
    rw [stage_after_leave, if_pos rfl] at there
    cases there

section Fills

variable {key : String} {reading : Reading}

theorem told_aside (mine : asked id = some (.fill key reading)) (g : Flights ι) (k : String)
    (other : Reading) (turn : Turn) :
    c.WriteMove asked id (({ c with flights := g } : NetworkedCache ι).told id k other turn).progress
      (({ c with flights := g } : NetworkedCache ι).told id k other turn).state := by
  let d : NetworkedCache ι := { c with flights := g }
  have line : d.writers = c.writers := rfl
  have others : ∀ j, j ≠ id → d.stage? j = c.stage? j := fun _ _ => rfl
  have noted : ∀ {stage : RequestStage}, stage.Serves (.fill key reading) → ∀ progress,
      c.WriteMove asked id progress (d.note id stage) := note_aside mine rfl line others
  have looks : (RequestStage.asked (.exists k) (.lookAgain k other)).Serves (.fill key reading) := rfl
  have waits : (RequestStage.forKey k other).Serves (.fill key reading) := trivial
  cases turn with
  | held => exact noted looks _
  | waiting => exact noted waits _
  | gone => exact noted waits _

theorem fetch_aside (inLine : c.WritersInLine asked) (mine : asked id = some (.fill key reading))
    (k : String) (other : Reading) (events : List Event) :
    c.WriteMove asked id (c.fetch id k other events).progress
      (c.fetch id k other events).state := by
  apply note_aside mine rfl (Line.leave_of_stranger (stranger_of_read inLine mine rfl))
  · intro j differs
    rw [stage_after_leave, if_neg differs]
  · exact rfl

end Fills

theorem turn_moves_line (inLine : c.WritersInLine asked) (id : ι) :
    c.WriteMove asked id (c.turn id).progress (c.turn id).state := by
  unfold turn
  split
  · next exchange found =>
    obtain ⟨request, mine, serves⟩ := inLine.serves found
    cases request with
    | fill key reading => exact serves.elim
    | operate operation =>
        obtain ⟨rfl, writes⟩ := serves
        have stands : (c.stage? id).isSome = true := by rw [found]; rfl
        unfold write
        split
        · next first => exact .sends mine writes stands (beq_iff_eq.mp first) writes
        · next later => exact .waits mine writes found (Bool.eq_false_iff.mpr later)
  · next key reading found =>
    obtain ⟨request, mine, serves⟩ := inLine.serves found
    cases request with
    | operate operation => exact serves.elim
    | fill k other => exact told_aside mine _ key reading _
  · exact .idle

theorem settle_moves_line (inLine : c.WritersInLine asked) {exchange : Exchange}
    {purpose : Purpose} (found : c.stage? id = some (.asked exchange purpose)) (outcome : Outcome)
    (events : List Event) :
    c.WriteMove asked id (c.settle id outcome events purpose).progress
      (c.settle id outcome events purpose).state := by
  obtain ⟨request, mine, serves⟩ := inLine.serves found
  cases purpose with
  | answer =>
      cases writes : request.writes with
      | false => exact leave_aside inLine mine writes _
      | true =>
          cases request with
          | fill key reading => cases writes
          | operate operation => exact .ends mine writes (by rw [found]; rfl)
  | look key reading =>
      cases request with
      | operate operation => exact serves.elim
      | fill k other =>
          simp only [settle]
          split
          · exact fetch_aside inLine mine key reading events
          · exact told_aside mine _ key reading _
          · exact leave_aside inLine mine rfl _
  | lookAgain key reading =>
      cases request with
      | operate operation => exact serves.elim
      | fill k other =>
          simp only [settle]
          split
          · exact fetch_aside inLine mine key reading _
          · have serves : (RequestStage.computing key reading).Serves (.fill k other) := trivial
            exact note_aside mine rfl rfl (fun _ _ => rfl) serves _
          · exact leave_aside inLine mine rfl _

theorem reply_moves_line (inLine : c.WritersInLine asked) (id : ι)
    (reply : Except ClientError Reply) :
    c.WriteMove asked id (c.reply id reply).progress (c.reply id reply).state := by
  unfold NetworkedCache.reply
  split
  · next exchange purpose found =>
    obtain ⟨request, mine, serves⟩ := inLine.serves found
    split
    · next next resumed =>
      obtain ⟨writes, more⟩ := Exchange.writes_of_again resumed
      have first := inLine.first found writes
      have stands : (c.stage? id).isSome = true := by rw [found]; rfl
      have asks := RequestStage.writes_of_asked serves writes
      cases request with
      | fill key reading => cases asks
      | operate operation =>
          cases purpose with
          | look key reading => exact serves.elim
          | lookAgain key reading => exact serves.elim
          | answer => exact .sends mine asks stands first more
    · next outcome events _ => exact settle_moves_line inLine found outcome events
  · exact .idle

theorem computed_moves_line (inLine : c.WritersInLine asked) (id : ι) (failure : Option Cause) :
    c.WriteMove asked id (c.computed id failure).progress (c.computed id failure).state := by
  unfold computed
  split
  · next key reading found =>
    obtain ⟨request, mine, serves⟩ := inLine.serves found
    cases request with
    | operate operation => exact serves.elim
    | fill k other =>
        cases failure with
        | some cause => exact leave_aside inLine mine rfl _
        | none => exact fetch_aside inLine mine key reading []
  · exact .idle

/-! ### What that does to the line -/

/-- A caller that stands in line goes on to another stage of its write. -/
theorem note_keeps_line (inLine : c.WritersInLine asked) {operation : Operation}
    (mine : asked id = some (.operate operation)) (stands : (c.stage? id).isSome = true)
    {stage : RequestStage} (serves : stage.Serves (.operate operation))
    (first : ∀ {exchange purpose}, stage = .asked exchange purpose → exchange.isWrite = true →
      c.writers.first? = some id) : (c.note id stage).WritersInLine asked where
  distinct := inLine.distinct
  serves := by
    intro j now there
    rw [stage_after_note] at there
    split at there
    · next same =>
      cases there
      exact ⟨_, same ▸ mine, serves⟩
    · exact inLine.serves there
  standing := by
    intro j
    rw [stage_after_note]
    split
    · next same =>
      subst same
      have standing := inLine.standing j
      rw [stands] at standing
      exact standing
    · exact inLine.standing j
  first := by
    intro j exchange purpose there writes
    rw [stage_after_note] at there
    split at there
    · next same =>
      subst same
      exact first (Option.some.inj there) writes
    · exact inLine.first there writes

theorem leave_keeps_line (inLine : c.WritersInLine asked) (id : ι) :
    (c.leave id).WritersInLine asked where
  distinct := inLine.distinct.filter _
  serves := by
    intro j stage there
    rw [stage_after_leave] at there
    split at there
    · cases there
    · exact inLine.serves there
  standing := by
    intro j
    have standing := inLine.standing j
    rw [stage_after_leave]
    change j ∈ c.writers.callers.filter (· != id) ↔ _
    rw [List.mem_filter, standing, bne_iff_ne]
    split
    · next same => simp [same]
    · next other => simp [other]
  first := by
    intro j exchange purpose there writes
    rw [stage_after_leave] at there
    split at there
    · cases there
    · next other => exact Line.first_of_leave (inLine.first there writes) other

theorem move_keeps_line (inLine : c.WritersInLine asked) {progress : Progress}
    {d : NetworkedCache ι} (move : c.WriteMove asked id progress d) : d.WritersInLine asked := by
  cases move with
  | idle => exact inLine
  | aside mine reads line others serves =>
      have outside := stranger_of_read inLine mine reads
      refine ⟨line ▸ inLine.distinct, ?_, ?_, ?_⟩
      · intro j stage there
        by_cases same : j = id
        · subst same
          exact ⟨_, mine, serves stage there⟩
        · exact inLine.serves (others j same ▸ there)
      · intro j
        rw [line]
        by_cases same : j = id
        · subst same
          refine ⟨fun member => absurd member outside, ?_⟩
          rintro ⟨_, request, asks, writes⟩
          cases mine.symm.trans asks
          cases reads.symm.trans writes
        · rw [others j same]
          exact inLine.standing j
      · intro j exchange purpose there writes
        rw [line]
        by_cases same : j = id
        · subst same
          cases reads.symm.trans (RequestStage.writes_of_asked (serves _ there) writes)
        · exact inLine.first (others j same ▸ there) writes
  | @waits operation mine writes stands later =>
      have serves : (RequestStage.toWrite (.ofOperation operation)).Serves (.operate operation) :=
        ⟨rfl, writes⟩
      exact note_keeps_line inLine mine (by rw [stands]; rfl) serves nofun
  | @sends operation exchange mine writes stands first sent =>
      have serves : (RequestStage.asked exchange .answer).Serves (.operate operation) := by
        refine ⟨sent.trans writes.symm, fun reads => ?_⟩
        cases reads.symm.trans sent
      exact note_keeps_line inLine mine stands serves fun _ _ => first
  | ends mine writes stands => exact leave_keeps_line inLine id

/-! ### New callers -/

theorem asking_keeps_line (inLine : c.WritersInLine asked) (new : asked id = none)
    (request : Request) :
    c.WritersInLine fun j => if j = id then some request else asked j := by
  have before : ∀ {j other}, asked j = some other → j ≠ id := by
    rintro j other asks rfl
    cases new.symm.trans asks
  have absent : c.stage? id = none := by
    cases found : c.stage? id with
    | none => rfl
    | some stage =>
        obtain ⟨other, asks, _⟩ := inLine.serves found
        exact absurd rfl (before asks)
  refine ⟨inLine.distinct, ?_, ?_, inLine.first⟩
  · intro j stage there
    obtain ⟨other, asks, serves⟩ := inLine.serves there
    exact ⟨other, by rw [if_neg (before asks)]; exact asks, serves⟩
  · intro j
    rw [inLine.standing]
    by_cases same : j = id
    · simp [same, absent]
    · simp only [if_neg same]

def enlist (c : NetworkedCache ι) (id : ι) (exchange : Exchange) : NetworkedCache ι :=
  ({ c with writers := c.writers.join id } : NetworkedCache ι).note id (.toWrite exchange)

theorem stage_after_enlist (c : NetworkedCache ι) (id : ι) (exchange : Exchange) (j : ι) :
    (c.enlist id exchange).stage? j = if j = id then some (.toWrite exchange) else c.stage? j :=
  stage_after_note { c with writers := c.writers.join id } id (.toWrite exchange) j

theorem turn_of_writer {exchange : Exchange} (found : c.stage? id = some (.toWrite exchange)) :
    c.turn id = c.write id exchange := by
  simp only [turn, found]

theorem write_after_note (c : NetworkedCache ι) (id : ι) (stage : RequestStage)
    (exchange : Exchange) : (c.note id stage).write id exchange = c.write id exchange := by
  simp only [write, send, note_after_note]
  rfl

/-- A new writer sends its command at once if nobody is in its way. -/
theorem start_of_write (c : NetworkedCache ι) (id : ι) {operation : Operation}
    (writes : (Exchange.ofOperation operation).isWrite = true) :
    c.start id (.operate operation) = (c.enlist id (.ofOperation operation)).turn id := by
  have found : (c.enlist id (.ofOperation operation)).stage? id =
      some (.toWrite (.ofOperation operation)) := by
    rw [stage_after_enlist, if_pos rfl]
  have turned := turn_of_writer found
  rw [enlist, write_after_note] at turned
  rw [enlist, turned]
  simp only [start, writes, if_true]

theorem enlist_keeps_line (inLine : c.WritersInLine asked) {operation : Operation}
    (mine : asked id = some (.operate operation))
    (writes : (Exchange.ofOperation operation).isWrite = true) (new : c.stage? id = none) :
    (c.enlist id (.ofOperation operation)).WritersInLine asked := by
  have outside : id ∉ c.writers.callers := by
    intro member
    have stands := ((inLine.standing id).mp member).1
    rw [new] at stands
    cases stands
  refine ⟨?_, ?_, ?_, ?_⟩
  · exact Line.nodup_of_join inLine.distinct outside
  · intro j stage there
    rw [stage_after_enlist] at there
    split at there
    · next same =>
      cases there
      exact ⟨.operate operation, same ▸ mine, rfl, writes⟩
    · exact inLine.serves there
  · intro j
    change j ∈ c.writers.callers ++ [id] ↔ _
    rw [List.mem_append, List.mem_singleton, inLine.standing, stage_after_enlist]
    by_cases same : j = id
    · subst same
      rw [if_pos rfl]
      exact ⟨fun _ => ⟨rfl, _, mine, writes⟩, fun _ => .inr rfl⟩
    · rw [if_neg same]
      exact or_iff_left same
  · intro j exchange purpose there sends
    rw [stage_after_enlist] at there
    split at there
    · cases there
    · exact Line.first_of_join (inLine.first there sends)

theorem start_aside (c : NetworkedCache ι) {request : Request} (mine : asked id = some request)
    (reads : request.writes = false) :
    c.WriteMove asked id (c.start id request).progress (c.start id request).state := by
  have same : ∀ j, j ≠ id → c.stage? j = c.stage? j := fun _ _ => rfl
  cases request with
  | fill key reading =>
      have serves : (RequestStage.asked (.exists key) (.look key reading)).Serves
          (.fill key reading) := rfl
      exact note_aside mine reads rfl same serves _
  | operate operation =>
      have serves : (RequestStage.asked (.ofOperation operation) .answer).Serves
          (.operate operation) := ⟨rfl, fun _ => rfl⟩
      have started : c.start id (.operate operation) =
          c.send id (.ofOperation operation) .answer [] := by
        simp only [start]
        rw [if_neg]
        intro writes
        cases reads.symm.trans writes
      rw [started]
      exact note_aside mine reads rfl same serves _

end NetworkedCache

end ExpiringCache
