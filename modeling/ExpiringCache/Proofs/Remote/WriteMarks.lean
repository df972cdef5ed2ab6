import Mathlib.Data.List.Induction
import ExpiringCache.Line
import ExpiringCache.Remote.Command
/-!
Callers that write one at a time, as seen from outside. Each asks for its turn, sends its commands
and comes to its end; whose turn it is follows from who has asked and who has ended. If every
command is sent by the caller whose turn it is, then no two callers write at once, and nobody is
overtaken.
-/

namespace ExpiringCache

namespace Line

variable {ι : Type}

/-- A caller stands in line, and another one nowhere before it. -/
def Ahead (line : Line ι) (a b : ι) : Prop :=
  ∃ front back, line.callers = front ++ a :: back ∧ b ∉ front

theorem ahead_of_first {line : Line ι} {a : ι} (first : line.first? = some a) (b : ι) :
    line.Ahead a b := by
  obtain ⟨back, callers⟩ := List.head?_eq_some_iff.mp first
  exact ⟨[], back, callers, List.not_mem_nil⟩

theorem first_of_ahead {line : Line ι} {a b : ι} (ahead : line.Ahead a b)
    (first : line.first? = some b) : a = b := by
  obtain ⟨front, back, callers, behind⟩ := ahead
  rw [Line.first?, callers] at first
  cases front with
  | nil => exact Option.some.inj first
  | cons c front =>
      cases Option.some.inj first
      exact absurd List.mem_cons_self behind

end Line

inductive WriteMark (ι : Type) where
  | asked (id : ι)
  | sent (id : ι) (command : Command)
  | ended (id : ι)

namespace WriteMark

variable {ι : Type}

def caller : WriteMark ι → ι
  | .asked id | .sent id _ | .ended id => id

variable [DecidableEq ι]

def enter (line : Line ι) : WriteMark ι → Line ι
  | .asked id => line.join id
  | .sent .. => line
  | .ended id => line.leave id

/-- The callers that have asked and not ended, in the order in which they have asked. -/
def line (marks : List (WriteMark ι)) : Line ι := marks.foldl enter .empty

/-- Whether something may be seen after all else: callers have names of their own, and commands come
from the caller whose turn it is. -/
def Fits (marks : List (WriteMark ι)) : WriteMark ι → Prop
  | .asked id => ∀ mark ∈ marks, mark.caller ≠ id
  | .sent id _ => (line marks).first? = some id
  | .ended id => .asked id ∈ marks

def Turnwise (marks : List (WriteMark ι)) : Prop :=
  ∀ before mark after, marks = before ++ mark :: after → Fits before mark

/-- Commands of one writer are between its asking and its end, and between commands of two writers
the one that has asked first has come to its end. -/
structure TurnsTaken (marks : List (WriteMark ι)) : Prop where
  alone : ∀ {before a one between b other after},
    marks = before ++ .sent a one :: (between ++ .sent b other :: after) → a ≠ b →
      .ended a ∈ between
  inOrder : ∀ {before a between b command after},
    marks = before ++ .asked a :: (between ++ .sent b command :: after) → a ≠ b →
      .asked b ∉ before → .ended a ∈ between
  within : ∀ {before id command after}, marks = before ++ .sent id command :: after →
    .asked id ∈ before ∧ .ended id ∉ before
  once : ∀ {before id after}, marks = before ++ .asked id :: after →
    .asked id ∉ before ∧ .ended id ∉ before

variable {marks : List (WriteMark ι)}

theorem line_append (front back : List (WriteMark ι)) :
    line (front ++ back) = back.foldl enter (line front) := List.foldl_append

theorem line_snoc (marks : List (WriteMark ι)) (mark : WriteMark ι) :
    line (marks ++ [mark]) = enter (line marks) mark := line_append marks [mark]

theorem turnwise_none : Turnwise ([] : List (WriteMark ι)) := by
  intro before mark after split
  cases before <;> cases split

theorem turnwise_snoc (turnwise : Turnwise marks) {mark : WriteMark ι} (fits : Fits marks mark) :
    Turnwise (marks ++ [mark]) := by
  intro before other after split
  rcases List.eq_nil_or_concat after with rfl | ⟨rest, last, rfl⟩
  · obtain ⟨rfl, same⟩ := List.append_inj' split rfl
    cases same
    exact fits
  · rw [List.concat_eq_append, ← List.cons_append, ← List.append_assoc] at split
    exact turnwise before other rest (List.append_inj' split rfl).1

theorem turnwise_front {front back : List (WriteMark ι)} (turnwise : Turnwise (front ++ back)) :
    Turnwise front := by
  intro before mark after split
  apply turnwise before mark (after ++ back)
  rw [split, List.append_assoc, List.cons_append]

theorem asked_of_member {id : ι} (member : id ∈ (line marks).callers) : .asked id ∈ marks := by
  induction marks using List.reverseRecOn with
  | nil => cases member
  | append_singleton marks mark ih =>
      rw [line_snoc] at member
      cases mark with
      | asked j =>
          rcases List.mem_append.mp member with before | new
          · exact List.mem_append_left _ (ih before)
          · cases List.mem_singleton.mp new
            exact List.mem_append_right _ List.mem_cons_self
      | sent j command => exact List.mem_append_left _ (ih member)
      | ended j => exact List.mem_append_left _ (ih ((List.mem_filter.mp member).1))

theorem unended_of_member (turnwise : Turnwise marks) {id : ι}
    (member : id ∈ (line marks).callers) : .ended id ∉ marks := by
  induction marks using List.reverseRecOn with
  | nil => exact List.not_mem_nil
  | append_singleton marks mark ih =>
      have fits : Fits marks mark := turnwise marks mark [] rfl
      have before := ih (turnwise_front turnwise)
      rw [line_snoc] at member
      intro ended
      rcases List.mem_append.mp ended with earlier | last
      · cases mark with
        | asked j =>
            rcases List.mem_append.mp member with stood | new
            · exact before stood earlier
            · cases List.mem_singleton.mp new
              exact fits _ earlier rfl
        | sent j command => exact before member earlier
        | ended j => exact before ((List.mem_filter.mp member).1) earlier
      · cases List.mem_singleton.mp last
        exact absurd rfl (bne_iff_ne.mp (List.mem_filter.mp member).2)

/-! ### Who is ahead of whom -/

theorem enter_ahead {line : Line ι} {a b : ι} (ahead : line.Ahead a b) {mark : WriteMark ι}
    (stays : mark ≠ .ended a) : (enter line mark).Ahead a b := by
  obtain ⟨front, back, callers, behind⟩ := ahead
  cases mark with
  | asked id =>
      refine ⟨front, back ++ [id], ?_, behind⟩
      simp only [enter, Line.join, callers, List.append_assoc, List.cons_append]
  | sent id command => exact ⟨front, back, callers, behind⟩
  | ended id =>
      have other : (a != id) = true := by
        apply bne_iff_ne.mpr
        rintro rfl
        exact stays rfl
      refine ⟨front.filter (· != id), back.filter (· != id), ?_, ?_⟩
      · simp only [enter, Line.leave, callers, List.filter_append, List.filter_cons, other, if_true]
      · intro member
        exact behind ((List.mem_filter.mp member).1)

theorem ahead_later {front back : List (WriteMark ι)} {a b : ι} (ahead : (line front).Ahead a b)
    (stays : .ended a ∉ back) : (line (front ++ back)).Ahead a b := by
  induction back using List.reverseRecOn with
  | nil => rwa [List.append_nil]
  | append_singleton back mark ih =>
      rw [← List.append_assoc, line_snoc]
      apply enter_ahead
      · exact ih fun ended => stays (List.mem_append_left _ ended)
      · rintro rfl
        exact stays (List.mem_append_right _ List.mem_cons_self)

theorem ended_of_sent (turnwise : Turnwise marks) {front between after : List (WriteMark ι)}
    {a b : ι} {command : Command} (split : marks = front ++ between ++ .sent b command :: after)
    (ahead : (line front).Ahead a b) (differs : a ≠ b) : .ended a ∈ between := by
  have first : (line (front ++ between)).first? = some b := turnwise _ _ _ split
  apply Classical.byContradiction
  intro stays
  exact differs (Line.first_of_ahead (ahead_later ahead stays) first)

theorem turns_of_turnwise (turnwise : Turnwise marks) : TurnsTaken marks where
  alone := by
    intro before a one between b other after split differs
    have first : (line before).first? = some a := turnwise _ _ _ split
    have ahead : (line (before ++ [.sent a one])).Ahead a b := by
      rw [line_snoc]
      exact Line.ahead_of_first first b
    have parted : marks = (before ++ [.sent a one]) ++ between ++ .sent b other :: after := by
      rw [split, List.append_assoc, List.append_assoc]
      rfl
    exact ended_of_sent turnwise parted ahead differs
  inOrder := by
    intro before a between b command after split differs later
    have ahead : (line (before ++ [.asked a])).Ahead a b := by
      rw [line_snoc]
      refine ⟨(line before).callers, [], rfl, ?_⟩
      intro member
      exact later (asked_of_member member)
    have parted : marks = (before ++ [.asked a]) ++ between ++ .sent b command :: after := by
      rw [split, List.append_assoc, List.append_assoc]
      rfl
    exact ended_of_sent turnwise parted ahead differs
  within := by
    intro before id command after split
    have first : (line before).first? = some id := turnwise _ _ _ split
    have member : id ∈ (line before).callers := List.mem_of_head? first
    have earlier : Turnwise before := turnwise_front (split ▸ turnwise)
    exact ⟨asked_of_member member, unended_of_member earlier member⟩
  once := by
    intro before id after split
    have new : ∀ mark ∈ before, mark.caller ≠ id := turnwise _ _ _ split
    exact ⟨fun there => new _ there rfl, fun there => new _ there rfl⟩

end WriteMark

end ExpiringCache
