import Mathlib.Data.List.Basic
import ExpiringCache.Cache.Networked
/-!
Fills of a networked cache, as seen from outside. A fill asks whether its key is there, asks again
once it holds the key, computes if both answers were no, and reads the key at last; an answer that
is a failure, a computation that fails and a caller that gives up cut this short. Each way that a
fill can go is a sequence of marks, and what callers rely on is read off the sequences.
-/

namespace ExpiringCache

inductive FillMark where
  | sent (command : Command)
  | heard (reply : Except ClientError Reply)
  | begun
  | computed (failure : Option Cause)
  | finished (outcome : Outcome)
  | left

def Exchange.counted (reply : Except ClientError Reply) : Except ClientError Int :=
  convert (Reply.toWhole (.signed 64)) reply

namespace FillMark

def isEnd : FillMark → Bool
  | .finished _ | .left => true
  | _ => false

def awaitsReply (marks : List FillMark) : Bool :=
  match marks.getLast? with
  | some (.sent _) => true
  | _ => false

def runs (marks : List FillMark) : Bool :=
  match marks.getLast? with
  | some .begun => true
  | _ => false

def isOver (marks : List FillMark) : Bool := marks.any isEnd

def underWay (marks : List FillMark) : Bool := !marks.isEmpty && !isOver marks

def command? : FillMark → Option Command
  | .sent command => some command
  | _ => none

def commands (marks : List FillMark) : List Command := marks.filterMap command?

theorem commands_of_sent (command : Command) (marks : List FillMark) :
    commands (.sent command :: marks) = command :: commands marks := rfl

theorem commands_of_other {mark : FillMark} (other : mark.command? = none)
    (marks : List FillMark) : commands (mark :: marks) = commands marks :=
  List.filterMap_cons_none other

def counts (command : Command) : List FillMark → List (Except ClientError Int)
  | .sent other :: .heard reply :: rest =>
    if other = command then Exchange.counted reply :: counts command rest else counts command rest
  | _ :: rest => counts command rest
  | [] => []

/-- What holds at all times of a caller that has asked for a key to be filled. It asks whether the
key is there, and once more if it is not; it computes if the key was missing both times, and reads
the key if it was there or has been computed. A failure of the server or of the computation is the
end. -/
structure Kept (ns : Namespace) (key : String) (marks : List FillMark) : Prop where
  opens : (commands marks).head? = some (.probe ns key)
  found : ∀ {n rest}, counts (.probe ns key) marks = .ok n :: rest → 0 < n →
    commands marks = [.probe ns key, .get ns key]
  missed : ∀ {n rest}, counts (.probe ns key) marks = .ok n :: rest → n ≤ 0 →
    commands marks <+: [.probe ns key, .probe ns key, .get ns key]
  computes : .begun ∈ marks ↔
    ∃ m n, counts (.probe ns key) marks = [.ok m, .ok n] ∧ m ≤ 0 ∧ n ≤ 0
  reads : .get ns key ∈ commands marks ↔
    (∃ n, .ok n ∈ counts (.probe ns key) marks ∧ 0 < n) ∨ .computed none ∈ marks
  refused : ∀ {e}, .error e ∈ counts (.probe ns key) marks → .begun ∉ marks ∧
    marks.getLast? = some (.finished (.error (.backend ("Redis EXISTS failed: " ++ e.message))))
  failed : ∀ {cause}, .computed (some cause) ∈ marks →
    marks.getLast? = some (.finished (.error (.compute cause)))
  ends : ∀ mark ∈ marks.dropLast, mark.isEnd = false

end FillMark

/-! ### The ways of a fill -/

namespace RequestStage

def looking (key : String) (reading : Reading) : RequestStage :=
  .asked (.exists key) (.look key reading)

def lookingAgain (key : String) (reading : Reading) : RequestStage :=
  .asked (.exists key) (.lookAgain key reading)

def fetching (key : String) (reading : Reading) : RequestStage := .asked (.get key reading) .answer

end RequestStage

namespace FillMark

open Exchange (counted)
open RequestStage (looking lookingAgain fetching)

def Present (reply : Except ClientError Reply) : Prop := ∃ n, counted reply = .ok n ∧ 0 < n

def Missing (reply : Except ClientError Reply) : Prop := ∃ n, counted reply = .ok n ∧ n ≤ 0

def refusal (e : ClientError) : FillMark :=
  .finished (.error (.backend ("Redis EXISTS failed: " ++ e.message)))

section Ways

variable (ns : Namespace) (key : String) (reading : Reading)

/-- Reading the key at last. With the marks goes the stage that they lead to. -/
inductive Reads : List FillMark → Option RequestStage → Prop where
  | asks : Reads [.sent (.get ns key)] (some (fetching key reading))
  | ends {reply outcome events}
      (gotten : Exchange.gotten key reply reading = .finished outcome events) :
      Reads [.sent (.get ns key), .heard reply, .finished outcome] none
  | leaves : Reads [.sent (.get ns key), .left] none

inductive Computes : List FillMark → Option RequestStage → Prop where
  | runs : Computes [.begun] (some (.computing key reading))
  | done {marks stage} (reads : Reads ns key reading marks stage) :
      Computes (.begun :: .computed none :: marks) stage
  | fails (cause : Cause) :
      Computes [.begun, .computed (some cause), .finished (.error (.compute cause))] none
  | leaves : Computes [.begun, .left] none

/-- Asking whether the key is there, and reading it if it is. If it is not, the fill goes on
otherwise. -/
inductive Asks (asking : RequestStage) (Onward : List FillMark → Option RequestStage → Prop) :
    List FillMark → Option RequestStage → Prop where
  | asks : Asks asking Onward [.sent (.probe ns key)] (some asking)
  | finds {reply marks stage} (present : Present reply) (reads : Reads ns key reading marks stage) :
      Asks asking Onward (.sent (.probe ns key) :: .heard reply :: marks) stage
  | misses {reply marks stage} (missing : Missing reply) (onward : Onward marks stage) :
      Asks asking Onward (.sent (.probe ns key) :: .heard reply :: marks) stage
  | fails {reply e} (refused : counted reply = .error e) :
      Asks asking Onward [.sent (.probe ns key), .heard reply, refusal e] none
  | leaves : Asks asking Onward [.sent (.probe ns key), .left] none

abbrev LooksAgain : List FillMark → Option RequestStage → Prop :=
  Asks ns key reading (lookingAgain key reading) (Computes ns key reading)

inductive Waits : List FillMark → Option RequestStage → Prop where
  | stands : Waits [] (some (.forKey key reading))
  | holds {marks stage} (looks : LooksAgain ns key reading marks stage) : Waits marks stage
  | leaves : Waits [.left] none

abbrev Fills : List FillMark → Option RequestStage → Prop :=
  Asks ns key reading (looking key reading) (Waits ns key reading)

/-- What a fill can do at a stage: what is seen then, and the stage after it. -/
inductive Advance : RequestStage → List FillMark → Option RequestStage → Prop where
  | rests (stage : RequestStage) : Advance stage [] (some stage)
  | leaves (stage : RequestStage) : Advance stage [.left] none
  | finds {reply} (present : Present reply) :
      Advance (looking key reading) [.heard reply, .sent (.get ns key)]
        (some (fetching key reading))
  | misses {reply} (missing : Missing reply) :
      Advance (looking key reading) [.heard reply] (some (.forKey key reading))
  | missesAlone {reply} (missing : Missing reply) :
      Advance (looking key reading) [.heard reply, .sent (.probe ns key)]
        (some (lookingAgain key reading))
  | fails {reply e} (refused : counted reply = .error e) :
      Advance (looking key reading) [.heard reply, refusal e] none
  | holds : Advance (.forKey key reading) [.sent (.probe ns key)] (some (lookingAgain key reading))
  | findsAgain {reply} (present : Present reply) :
      Advance (lookingAgain key reading) [.heard reply, .sent (.get ns key)]
        (some (fetching key reading))
  | computes {reply} (missing : Missing reply) :
      Advance (lookingAgain key reading) [.heard reply, .begun] (some (.computing key reading))
  | failsAgain {reply e} (refused : counted reply = .error e) :
      Advance (lookingAgain key reading) [.heard reply, refusal e] none
  | done : Advance (.computing key reading) [.computed none, .sent (.get ns key)]
        (some (fetching key reading))
  | failsToCompute (cause : Cause) :
      Advance (.computing key reading)
        [.computed (some cause), .finished (.error (.compute cause))] none
  | reads {reply outcome events}
      (gotten : Exchange.gotten key reply reading = .finished outcome events) :
      Advance (fetching key reading) [.heard reply, .finished outcome] none

end Ways

variable {ns : Namespace} {key : String} {reading : Reading} {marks new : List FillMark}
  {stage : RequestStage} {after : Option RequestStage}

/-! ### Whatever a fill does, it stays on one of the ways -/

theorem Reads.advance (reads : Reads ns key reading marks (some stage))
    (advance : Advance ns key reading stage new after) :
    Reads ns key reading (marks ++ new) after := by
  cases reads with
  | asks =>
      cases advance with
      | rests => exact .asks
      | leaves => exact .leaves
      | reads gotten => exact .ends gotten

theorem Computes.advance (computes : Computes ns key reading marks (some stage))
    (advance : Advance ns key reading stage new after) :
    Computes ns key reading (marks ++ new) after := by
  cases computes with
  | done reads => exact .done (reads.advance advance)
  | runs =>
      cases advance with
      | rests => exact .runs
      | leaves => exact .leaves
      | done => exact .done .asks
      | failsToCompute cause => exact .fails cause

theorem LooksAgain.advance (looks : LooksAgain ns key reading marks (some stage))
    (advance : Advance ns key reading stage new after) :
    LooksAgain ns key reading (marks ++ new) after := by
  cases looks with
  | finds present reads => exact .finds present (reads.advance advance)
  | misses missing computes => exact .misses missing (computes.advance advance)
  | asks =>
      cases advance with
      | rests => exact .asks
      | leaves => exact .leaves
      | findsAgain present => exact .finds present .asks
      | computes missing => exact .misses missing .runs
      | failsAgain refused => exact .fails refused

theorem Waits.advance (waits : Waits ns key reading marks (some stage))
    (advance : Advance ns key reading stage new after) :
    Waits ns key reading (marks ++ new) after := by
  cases waits with
  | holds looks => exact .holds (LooksAgain.advance looks advance)
  | stands =>
      cases advance with
      | rests => exact .stands
      | leaves => exact .leaves
      | holds => exact .holds .asks

theorem Fills.advance (fills : Fills ns key reading marks (some stage))
    (advance : Advance ns key reading stage new after) :
    Fills ns key reading (marks ++ new) after := by
  cases fills with
  | finds present reads => exact .finds present (reads.advance advance)
  | misses missing waits => exact .misses missing (waits.advance advance)
  | asks =>
      cases advance with
      | rests => exact .asks
      | leaves => exact .leaves
      | finds present => exact .finds present .asks
      | misses missing => exact .misses missing .stands
      | missesAlone missing => exact .misses missing (.holds .asks)
      | fails refused => exact .fails refused

/-! ### What is seen on the way -/

theorem get_ne_probe (ns : Namespace) (key : String) : Command.get ns key ≠ .probe ns key := by
  intro same
  have verbs : Command.word "GET" = Command.word "EXISTS" := (List.cons.inj same).1
  revert verbs
  decide

theorem last_of_cons {first mark : FillMark} (last : marks.getLast? = some mark) :
    (first :: marks).getLast? = some mark := by
  rw [List.getLast?_cons, last]
  rfl

theorem ends_of_cons {first : FillMark} (goesOn : first.isEnd = false)
    (ends : ∀ mark ∈ marks.dropLast, mark.isEnd = false) :
    ∀ mark ∈ (first :: marks).dropLast, mark.isEnd = false := by
  cases marks with
  | nil => exact nofun
  | cons second rest =>
      rw [List.dropLast_cons_cons]
      exact List.forall_mem_cons.mpr ⟨goesOn, ends⟩

theorem counts_of_asked (command : Command) (reply : Except ClientError Reply)
    (marks : List FillMark) :
    counts command (.sent command :: .heard reply :: marks) =
      counted reply :: counts command marks := if_pos rfl

/-- What is true of any part of a way that reaches to its end, `rounds` being how many times the
server is still to be asked whether the key is there. -/
structure Keeps (ns : Namespace) (key : String) (rounds : Nat) (marks : List FillMark) : Prop where
  computes : .begun ∈ marks ↔ (counts (.probe ns key) marks).length = rounds ∧
    ∀ count ∈ counts (.probe ns key) marks, ∃ n, count = .ok n ∧ n ≤ 0
  reads : .get ns key ∈ commands marks ↔
    (∃ n, .ok n ∈ counts (.probe ns key) marks ∧ 0 < n) ∨ .computed none ∈ marks
  refused : ∀ {e}, .error e ∈ counts (.probe ns key) marks → .begun ∉ marks ∧
    marks.getLast? = some (refusal e)
  failed : ∀ {cause}, .computed (some cause) ∈ marks →
    marks.getLast? = some (.finished (.error (.compute cause)))
  ends : ∀ mark ∈ marks.dropLast, mark.isEnd = false

section Reads

variable (reads : Reads ns key reading marks after)

include reads

theorem Reads.commands : commands marks = [.get ns key] := by
  cases reads <;> rfl

theorem Reads.counts : counts (.probe ns key) marks = [] := by
  cases reads with
  | asks => rfl
  | ends => simp [FillMark.counts, get_ne_probe]
  | leaves => simp [FillMark.counts]

theorem Reads.no_computation : .begun ∉ marks ∧ ∀ failure, .computed failure ∉ marks := by
  cases reads with
  | asks => simp
  | ends => simp
  | leaves => simp

theorem Reads.no_end_inside : ∀ mark ∈ marks.dropLast, mark.isEnd = false := by
  cases reads with
  | asks => exact nofun
  | ends => simp [isEnd]
  | leaves => simp [isEnd]

end Reads

theorem keeps_of_uncounted {rounds : Nat} (uncounted : counts (.probe ns key) marks = [])
    (computes : .begun ∈ marks ↔ rounds = 0)
    (reads : .get ns key ∈ commands marks ↔ .computed none ∈ marks)
    (failed : ∀ {cause}, .computed (some cause) ∈ marks →
      marks.getLast? = some (.finished (.error (.compute cause))))
    (ends : ∀ mark ∈ marks.dropLast, mark.isEnd = false) : Keeps ns key rounds marks where
  computes := by simp [uncounted, computes, eq_comm]
  reads := by simp [uncounted, reads]
  refused := by
    intro e member
    rw [uncounted] at member
    cases member
  failed := failed
  ends := ends

theorem Computes.keeps (computes : Computes ns key reading marks after) :
    Keeps ns key 0 marks := by
  have begun : ∀ {rest : List FillMark}, .begun ∈ .begun :: rest ↔ 0 = 0 := by simp
  cases computes with
  | runs => exact keeps_of_uncounted rfl begun (by simp [commands, command?]) (by simp) nofun
  | leaves =>
      exact keeps_of_uncounted rfl begun (by simp [commands, command?]) (by simp) (by simp [isEnd])
  | fails cause =>
      refine keeps_of_uncounted rfl begun (by simp [commands, command?]) ?_ (by simp [isEnd])
      intro other member
      have same : other = cause := by simpa using member
      rw [same]
      rfl
  | @done rest stage reads =>
      have fetched : commands (.begun :: .computed none :: rest) = [.get ns key] := reads.commands
      refine keeps_of_uncounted reads.counts begun (by simp [fetched]) ?_ ?_
      · intro cause failed
        exact absurd (by simpa using failed) (reads.no_computation.2 (some cause))
      · exact ends_of_cons rfl (ends_of_cons rfl reads.no_end_inside)

/-! Each time that the server is asked, a round is over. -/

section Round

variable {rounds : Nat} {reply : Except ClientError Reply}

theorem keeps_of_refused {e : ClientError} (refused : counted reply = .error e) :
    Keeps ns key (rounds + 1) [.sent (.probe ns key), .heard reply, refusal e] := by
  have told : counts (.probe ns key) [.sent (.probe ns key), .heard reply, refusal e] =
      [.error e] := by
    rw [counts_of_asked, refused]
    rfl
  constructor
  case computes =>
    rw [told]
    simp [refusal]
  case reads =>
    rw [told]
    simp [refusal, commands, command?, get_ne_probe]
  case refused =>
    intro other member
    rw [told] at member
    cases List.mem_singleton.mp member
    exact ⟨by simp [refusal], rfl⟩
  case failed => simp [refusal]
  case ends => simp [isEnd]

theorem keeps_of_present (present : Present reply) (reads : Reads ns key reading marks after) :
    Keeps ns key rounds (.sent (.probe ns key) :: .heard reply :: marks) := by
  obtain ⟨n, count, positive⟩ := present
  obtain ⟨unbegun, uncomputed⟩ := reads.no_computation
  have told : counts (.probe ns key) (.sent (.probe ns key) :: .heard reply :: marks) =
      [.ok n] := by
    rw [counts_of_asked, count, reads.counts]
  have sent : commands (.sent (.probe ns key) :: .heard reply :: marks) =
      [.probe ns key, .get ns key] := by
    rw [commands_of_sent, commands_of_other rfl, reads.commands]
  constructor
  case computes => simp [told, unbegun, positive]
  case reads => simp [told, sent, positive]
  case refused => simp [told]
  case failed =>
    intro cause member
    exact absurd (by simpa using member) (uncomputed (some cause))
  case ends => exact ends_of_cons rfl (ends_of_cons rfl reads.no_end_inside)

theorem keeps_of_missing (missing : Missing reply) (keeps : Keeps ns key rounds marks) :
    Keeps ns key (rounds + 1) (.sent (.probe ns key) :: .heard reply :: marks) := by
  obtain ⟨n, count, missing⟩ := missing
  have told : counts (.probe ns key) (.sent (.probe ns key) :: .heard reply :: marks) =
      .ok n :: counts (.probe ns key) marks := by
    rw [counts_of_asked, count]
  have sent : commands (.sent (.probe ns key) :: .heard reply :: marks) =
      .probe ns key :: commands marks := by
    rw [commands_of_sent, commands_of_other rfl]
  constructor
  case computes => simp [told, keeps.computes, missing]
  case reads =>
    simp [told, sent, get_ne_probe, keeps.reads, or_and_right, exists_or, Int.not_lt.mpr missing]
  case refused =>
    intro e member
    rw [told] at member
    obtain ⟨unbegun, last⟩ := keeps.refused (by simpa using member)
    exact ⟨by simpa using unbegun, last_of_cons (last_of_cons last)⟩
  case failed =>
    intro cause member
    exact last_of_cons (last_of_cons (keeps.failed (by simpa using member)))
  case ends => exact ends_of_cons rfl (ends_of_cons rfl keeps.ends)

theorem Asks.keeps {asking : RequestStage} {Onward : List FillMark → Option RequestStage → Prop}
    (onward : ∀ {marks after}, Onward marks after → Keeps ns key rounds marks)
    (way : Asks ns key reading asking Onward marks after) : Keeps ns key (rounds + 1) marks := by
  have unread : .get ns key ∈ [Command.probe ns key] ↔ False := by simp [get_ne_probe]
  cases way with
  | asks => exact keeps_of_uncounted rfl (by simp) (unread.trans (by simp)) (by simp) nofun
  | leaves =>
      exact keeps_of_uncounted rfl (by simp) (unread.trans (by simp)) (by simp) (by simp [isEnd])
  | fails refused => exact keeps_of_refused refused
  | finds present reads => exact keeps_of_present present reads
  | misses missing goes => exact keeps_of_missing missing (onward goes)

end Round

theorem LooksAgain.keeps (looks : LooksAgain ns key reading marks after) :
    Keeps ns key 1 marks := Asks.keeps Computes.keeps looks

theorem Waits.keeps (waits : Waits ns key reading marks after) : Keeps ns key 1 marks := by
  cases waits with
  | stands => exact keeps_of_uncounted rfl (by simp) (by simp [commands]) (by simp) nofun
  | holds looks => exact LooksAgain.keeps looks
  | leaves =>
      exact keeps_of_uncounted rfl (by simp) (by simp [commands, command?]) (by simp) nofun

theorem Fills.keeps (fills : Fills ns key reading marks after) : Keeps ns key 2 marks :=
  Asks.keeps Waits.keeps fills

theorem LooksAgain.commands (looks : LooksAgain ns key reading marks after) :
    commands marks <+: [.probe ns key, .get ns key] := by
  have asked : [Command.probe ns key] <+: [.probe ns key, .get ns key] := ⟨[.get ns key], rfl⟩
  have all : ∀ {rest : List Command}, rest = [.get ns key] →
      .probe ns key :: rest <+: [.probe ns key, .get ns key] :=
    fun read => ⟨[], congrArg (fun sent => .probe ns key :: sent ++ []) read⟩
  cases looks with
  | asks => exact asked
  | leaves => exact asked
  | fails => exact asked
  | finds _ reads => exact all reads.commands
  | misses _ computes =>
      cases computes with
      | runs => exact asked
      | leaves => exact asked
      | fails => exact asked
      | done reads => exact all reads.commands

theorem Waits.commands (waits : Waits ns key reading marks after) :
    commands marks <+: [.probe ns key, .get ns key] := by
  cases waits with
  | stands => exact List.nil_prefix
  | holds looks => exact LooksAgain.commands looks
  | leaves => exact List.nil_prefix

theorem Fills.after_first (fills : Fills ns key reading marks after) {n : Int}
    {rest : List (Except ClientError Int)}
    (told : counts (.probe ns key) marks = .ok n :: rest) :
    0 < n ∧ FillMark.commands marks = [.probe ns key, .get ns key] ∨
      n ≤ 0 ∧ FillMark.commands marks <+: [.probe ns key, .probe ns key, .get ns key] := by
  cases fills with
  | asks => cases told
  | leaves => simp [counts] at told
  | fails refused =>
      rw [counts_of_asked, refused] at told
      cases told
  | finds present reads =>
      obtain ⟨m, count, positive⟩ := present
      rw [counts_of_asked, count] at told
      cases told
      exact .inl ⟨positive, by rw [commands_of_sent, commands_of_other rfl, reads.commands]⟩
  | misses missing waits =>
      obtain ⟨m, count, missing⟩ := missing
      rw [counts_of_asked, count] at told
      cases told
      refine .inr ⟨missing, ?_⟩
      rw [commands_of_sent, commands_of_other rfl]
      exact (List.prefix_cons_inj _).mpr waits.commands

theorem Fills.kept (fills : Fills ns key reading marks after) : Kept ns key marks := by
  have keeps := Fills.keeps fills
  constructor
  case opens => cases fills <;> rfl
  case found =>
    intro n rest told positive
    rcases Fills.after_first fills told with ⟨_, sent⟩ | ⟨missing, _⟩
    · exact sent
    · exact absurd positive (Int.not_lt.mpr missing)
  case missed =>
    intro n rest told missing
    rcases Fills.after_first fills told with ⟨positive, _⟩ | ⟨_, sent⟩
    · exact absurd positive (Int.not_lt.mpr missing)
    · exact sent
  case computes =>
    rw [keeps.computes]
    constructor
    · rintro ⟨two, missing⟩
      obtain ⟨first, second, both⟩ := List.length_eq_two.mp two
      rw [both] at missing ⊢
      obtain ⟨m, rfl, low⟩ := missing first List.mem_cons_self
      obtain ⟨n, rfl, lower⟩ := missing second (List.mem_cons_of_mem _ List.mem_cons_self)
      exact ⟨m, n, rfl, low, lower⟩
    · rintro ⟨m, n, both, low, lower⟩
      rw [both]
      refine ⟨rfl, ?_⟩
      simp [low, lower]
  case reads => exact keeps.reads
  case refused => exact keeps.refused
  case failed => exact keeps.failed
  case ends => exact keeps.ends

/-! ### Where a fill stands -/

def Waiting (ns : Namespace) (key : String) (marks : List FillMark) : Prop :=
  FillMark.commands marks = [.probe ns key] ∧ counts (.probe ns key) marks ≠ [] ∧ isOver marks = false

def Holding (ns : Namespace) (key : String) (marks : List FillMark) : Prop :=
  FillMark.commands marks = [.probe ns key, .probe ns key] ∧ isOver marks = false

def LetGo (ns : Namespace) (key : String) (marks : List FillMark) : Prop :=
  .get ns key ∈ FillMark.commands marks ∨ isOver marks = true

theorem let_go_of_append (front : List FillMark) (gone : LetGo ns key marks) :
    LetGo ns key (front ++ marks) := by
  refine gone.imp (fun sent => ?_) (fun ended => ?_)
  · exact ((List.sublist_append_right front marks).filterMap command?).subset sent
  · rw [isOver, List.any_append, ← isOver, ← isOver, ended, Bool.or_true]

/-- The end of a way on which the key is held at first, `asked` being the commands until it is let
go. -/
inductive StandsLate (ns : Namespace) (key : String) (reading : Reading) (asked : List Command)
    (marks : List FillMark) : Option RequestStage → Prop where
  | looksAgain (sent : commands marks = asked) (goesOn : isOver marks = false) :
      StandsLate ns key reading asked marks (some (lookingAgain key reading))
  | computes (sent : commands marks = asked) (goesOn : isOver marks = false) :
      StandsLate ns key reading asked marks (some (.computing key reading))
  | reads (gone : LetGo ns key marks) :
      StandsLate ns key reading asked marks (some (fetching key reading))
  | done (gone : LetGo ns key marks) : StandsLate ns key reading asked marks none

/-- The stages of a fill, each with what is seen then. -/
inductive Stands (ns : Namespace) (key : String) (reading : Reading) (marks : List FillMark) :
    Option RequestStage → Prop where
  | looks (asked : marks = [.sent (.probe ns key)]) :
      Stands ns key reading marks (some (looking key reading))
  | waits (waiting : Waiting ns key marks) :
      Stands ns key reading marks (some (.forKey key reading))
  | looksAgain (holding : Holding ns key marks) :
      Stands ns key reading marks (some (lookingAgain key reading))
  | computes (holding : Holding ns key marks) :
      Stands ns key reading marks (some (.computing key reading))
  | reads (gone : LetGo ns key marks) :
      Stands ns key reading marks (some (fetching key reading))
  | done (gone : LetGo ns key marks) : Stands ns key reading marks none

theorem StandsLate.stands
    (late : StandsLate ns key reading [.probe ns key, .probe ns key] marks after) :
    Stands ns key reading marks after := by
  cases late with
  | looksAgain sent goesOn => exact .looksAgain ⟨sent, goesOn⟩
  | computes sent goesOn => exact .computes ⟨sent, goesOn⟩
  | reads gone => exact .reads gone
  | done gone => exact .done gone

theorem StandsLate.asked {asked : List Command} (late : StandsLate ns key reading asked marks after)
    (command : Command) (reply : Except ClientError Reply) :
    StandsLate ns key reading (command :: asked) (.sent command :: .heard reply :: marks) after := by
  cases late with
  | looksAgain sent goesOn => exact .looksAgain (congrArg (List.cons command) sent) goesOn
  | computes sent goesOn => exact .computes (congrArg (List.cons command) sent) goesOn
  | reads gone => exact .reads (let_go_of_append [_, _] gone)
  | done gone => exact .done (let_go_of_append [_, _] gone)

theorem Reads.stands_late (reads : Reads ns key reading marks after) (asked : List Command)
    (front : List FillMark) : StandsLate ns key reading asked (front ++ marks) after := by
  have gone : LetGo ns key (front ++ marks) := by
    apply let_go_of_append
    exact .inl (by rw [reads.commands]; exact List.mem_cons_self)
  cases reads with
  | asks => exact .reads gone
  | ends => exact .done gone
  | leaves => exact .done gone

theorem Computes.stands_late (computes : Computes ns key reading marks after) :
    StandsLate ns key reading [] marks after := by
  cases computes with
  | runs => exact .computes rfl rfl
  | done reads => exact reads.stands_late [] [_, _]
  | fails => exact .done (.inr rfl)
  | leaves => exact .done (.inr rfl)

theorem LooksAgain.stands_late (looks : LooksAgain ns key reading marks after) :
    StandsLate ns key reading [.probe ns key] marks after := by
  cases looks with
  | asks => exact .looksAgain rfl rfl
  | leaves => exact .done (.inr rfl)
  | fails => exact .done (.inr rfl)
  | finds _ reads => exact reads.stands_late _ [_, _]
  | misses _ computes => exact computes.stands_late.asked _ _

theorem Fills.stands (fills : Fills ns key reading marks after) :
    Stands ns key reading marks after := by
  cases fills with
  | asks => exact .looks rfl
  | leaves => exact .done (.inr rfl)
  | fails => exact .done (.inr rfl)
  | finds _ reads => exact (reads.stands_late _ [_, _]).stands
  | misses _ waits =>
      cases waits with
      | leaves => exact .done (.inr rfl)
      | holds looks => exact ((LooksAgain.stands_late looks).asked _ _).stands
      | stands =>
          refine .waits ⟨rfl, ?_, rfl⟩
          rw [counts_of_asked]
          exact List.cons_ne_nil _ _

theorem not_let_go_of_waiting (waiting : Waiting ns key marks) : ¬LetGo ns key marks := by
  obtain ⟨sent, _, goesOn⟩ := waiting
  simp [LetGo, sent, goesOn, get_ne_probe]

theorem not_let_go_of_holding (holding : Holding ns key marks) : ¬LetGo ns key marks := by
  obtain ⟨sent, goesOn⟩ := holding
  simp [LetGo, sent, goesOn, get_ne_probe]

theorem not_holding_of_waiting (waiting : Waiting ns key marks) : ¬Holding ns key marks := by
  rintro ⟨twice, _⟩
  cases waiting.1.symm.trans twice

theorem Fills.stage_of_waiting (fills : Fills ns key reading marks after)
    (waiting : Waiting ns key marks) : after = some (.forKey key reading) := by
  cases Fills.stands fills with
  | looks asked =>
      subst asked
      exact absurd rfl waiting.2.1
  | waits => rfl
  | looksAgain holding => exact absurd holding (not_holding_of_waiting waiting)
  | computes holding => exact absurd holding (not_holding_of_waiting waiting)
  | reads gone => exact absurd gone (not_let_go_of_waiting waiting)
  | done gone => exact absurd gone (not_let_go_of_waiting waiting)

theorem Fills.stage_of_holding (fills : Fills ns key reading marks after)
    (holding : Holding ns key marks) :
    after = some (lookingAgain key reading) ∨ after = some (.computing key reading) := by
  cases Fills.stands fills with
  | looks asked =>
      subst asked
      cases holding.1
  | waits waiting => exact absurd holding (not_holding_of_waiting waiting)
  | looksAgain => exact .inl rfl
  | computes => exact .inr rfl
  | reads gone => exact absurd gone (not_let_go_of_holding holding)
  | done gone => exact absurd gone (not_let_go_of_holding holding)

theorem Fills.stage_of_let_go (fills : Fills ns key reading marks after)
    (gone : LetGo ns key marks) : after = some (fetching key reading) ∨ after = none := by
  cases Fills.stands fills with
  | looks asked =>
      subst asked
      simp [LetGo, FillMark.commands, command?, get_ne_probe, isOver, isEnd] at gone
  | waits waiting => exact absurd gone (not_let_go_of_waiting waiting)
  | looksAgain holding => exact absurd gone (not_let_go_of_holding holding)
  | computes holding => exact absurd gone (not_let_go_of_holding holding)
  | reads => exact .inl rfl
  | done => exact .inr rfl

inductive LeadsTo : FillMark → Option RequestStage → Prop where
  | sent (command : Command) (exchange : Exchange) (purpose : Purpose) :
      LeadsTo (.sent command) (some (.asked exchange purpose))
  | heard (reply : Except ClientError Reply) (key : String) (reading : Reading) :
      LeadsTo (.heard reply) (some (.forKey key reading))
  | begun (key : String) (reading : Reading) : LeadsTo .begun (some (.computing key reading))
  | finished (outcome : Outcome) : LeadsTo (.finished outcome) none
  | left : LeadsTo .left none

theorem Reads.last (reads : Reads ns key reading marks after) (first : FillMark) :
    ∃ mark, (first :: marks).getLast? = some mark ∧ mark.LeadsTo after := by
  cases reads with
  | asks => exact ⟨_, rfl, .sent _ _ _⟩
  | ends => exact ⟨_, rfl, .finished _⟩
  | leaves => exact ⟨_, rfl, .left⟩

theorem Computes.last (computes : Computes ns key reading marks after) (first : FillMark) :
    ∃ mark, (first :: marks).getLast? = some mark ∧ mark.LeadsTo after := by
  cases computes with
  | runs => exact ⟨_, rfl, .begun _ _⟩
  | fails => exact ⟨_, rfl, .finished _⟩
  | leaves => exact ⟨_, rfl, .left⟩
  | done reads =>
      obtain ⟨mark, last, leads⟩ := reads.last (.computed none)
      exact ⟨mark, last_of_cons (last_of_cons last), leads⟩

theorem Asks.last {asking : RequestStage} {Onward : List FillMark → Option RequestStage → Prop}
    (onward : ∀ {marks after}, Onward marks after → ∀ reply,
      ∃ mark, (heard reply :: marks).getLast? = some mark ∧ mark.LeadsTo after)
    (asked : (sent (.probe ns key)).LeadsTo (some asking))
    (way : Asks ns key reading asking Onward marks after) (first : FillMark) :
    ∃ mark, (first :: marks).getLast? = some mark ∧ mark.LeadsTo after := by
  cases way with
  | asks => exact ⟨_, rfl, asked⟩
  | fails => exact ⟨_, rfl, .finished _⟩
  | leaves => exact ⟨_, rfl, .left⟩
  | finds _ reads =>
      obtain ⟨mark, last, leads⟩ := reads.last (.heard _)
      exact ⟨mark, last_of_cons (last_of_cons last), leads⟩
  | misses _ goes =>
      obtain ⟨mark, last, leads⟩ := onward goes _
      exact ⟨mark, last_of_cons (last_of_cons last), leads⟩

theorem Waits.last (waits : Waits ns key reading marks after) (reply : Except ClientError Reply) :
    ∃ mark, (heard reply :: marks).getLast? = some mark ∧ mark.LeadsTo after := by
  cases waits with
  | stands => exact ⟨_, rfl, .heard _ _ _⟩
  | leaves => exact ⟨_, rfl, .left⟩
  | holds looks =>
      exact Asks.last (fun computes reply => computes.last (.heard reply)) (.sent _ _ _) looks
        (.heard reply)

theorem Fills.last (fills : Fills ns key reading marks after) :
    ∃ front mark, marks = front ++ [mark] ∧ mark.LeadsTo after := by
  obtain ⟨mark, last, leads⟩ := Asks.last Waits.last (.sent _ _ _) fills .left
  have filled : marks ≠ [] := by cases fills <;> exact List.cons_ne_nil _ _
  rw [List.getLast?_cons_of_ne_nil filled] at last
  obtain ⟨front, whole⟩ := List.getLast?_eq_some_iff.mp last
  exact ⟨front, mark, whole, leads⟩

theorem Fills.awaits_iff (fills : Fills ns key reading marks after) :
    awaitsReply marks = true ↔ ∃ exchange purpose, after = some (.asked exchange purpose) := by
  obtain ⟨front, mark, rfl, leads⟩ := Fills.last fills
  rw [awaitsReply, List.getLast?_concat]
  cases leads <;> simp

theorem Fills.runs_iff (fills : Fills ns key reading marks after) :
    runs marks = true ↔ ∃ k other, after = some (.computing k other) := by
  obtain ⟨front, mark, rfl, leads⟩ := Fills.last fills
  rw [runs, List.getLast?_concat]
  cases leads <;> simp

theorem Fills.under_way_iff (fills : Fills ns key reading marks after) :
    underWay marks = true ↔ after ≠ none := by
  have ends := (Fills.keeps fills).ends
  obtain ⟨front, mark, rfl, leads⟩ := Fills.last fills
  rw [List.dropLast_concat] at ends
  have quiet : front.any isEnd = false :=
    List.any_eq_false.mpr fun other member => by simp [ends other member]
  rw [underWay, isOver, List.any_append, quiet]
  cases leads <;> simp [isEnd]

end FillMark

end ExpiringCache
