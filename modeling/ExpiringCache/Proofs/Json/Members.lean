import ExpiringCache.Json.Shape
import ExpiringCache.Proofs.Json.Numbers
/-!
What readers do with the members of a list or object. A reader may go so deep and no deeper; a text
that is faithfully read is taken to its end and no further, or refused if it lies too deep. Lists,
objects and records are all read by one loop, which is faithful if each of its steps is.
-/

namespace ExpiringCache.Json

/-! ### What a reader does with a text -/

/-- A reader takes a text, whatever follows that does not go on with a number, and gives a value. -/
def Reads {α : Type} (reader : Reader α) (text : List UInt8) (value : α) : Prop :=
  ∀ (rest : List UInt8) (taken : Nat), EndsNumber rest →
    reader ⟨text ++ rest, taken⟩ = .ok (value, ⟨rest, taken + text.length⟩)

def Refuses {α : Type} (reader : Reader α) (text : List UInt8) : Prop :=
  ∀ (rest : List UInt8) (taken : Nat), EndsNumber rest →
    ∃ offset, reader ⟨text ++ rest, taken⟩ = .error ⟨.tooDeep, offset⟩

/-- A reader that may go so deep takes a text that lies `deep`, or else refuses it. -/
structure Faithful {α : Type} (reader : Nat → Reader α) (text : List UInt8) (value : α)
    (deep : Nat) : Prop where
  reads : ∀ {depth}, deep < depth → Reads (reader depth) text value
  refuses : ∀ {depth}, 0 < depth → depth ≤ deep → Refuses (reader depth) text

def Begins (opens : UInt8 → Prop) (text : List UInt8) : Prop :=
  ∃ b rest, text = b :: rest ∧ opens b

theorem skip_space_of_solid {b : UInt8} (solid : isSpace b = false) (rest : List UInt8)
    (taken : Nat) : Cursor.skipSpace ⟨b :: rest, taken⟩ = ⟨b :: rest, taken⟩ := by
  simp only [Cursor.skipSpace, Cursor.skipWhile, List.dropWhile_cons, List.takeWhile_cons, solid,
    Bool.false_eq_true, if_false, List.length_nil, Nat.add_zero]

/-! ### The loop -/

section Loop

variable {α β σ : Type}

def collect (next : Bool → Cursor → Except Fault (Option Cursor)) (cut : Problem)
    (step : σ → Reader σ) (got : σ) (first : Bool) (c : Cursor) : Nat → Except Fault (Parsed σ)
  | 0 => .error (c.fault cut)
  | fuel + 1 => do
    match ← next first c with
    | none => return (got, c.skipSpace)
    | some c =>
      let (got, c) ← step got c
      collect next cut step got false c fuel

def append (member : Reader α) (got : List α) : Reader (List α) := fun c =>
  (member c).map fun p => (got ++ [p.1], p.2)

def readMembers (next : Bool → Cursor → Except Fault (Option Cursor)) (cut : Problem)
    (spare : Nat) (step : List α → Reader (List α)) (finish : List α → Reader β) (c : Cursor) :
    Except Fault (Parsed β) := do
  let (got, c) ← collect next cut step [] true c (c.rest.length + 1 + spare)
  finish got c

/-- A loop that puts each member before those to come collects them in the same order. -/
theorem collect_append {next : Bool → Cursor → Except Fault (Option Cursor)} {cut : Problem}
    {member : Reader α} {membersFrom : Bool → Cursor → Nat → Except Fault (Parsed (List α))}
    (stops : ∀ first c, membersFrom first c 0 = .error (c.fault cut))
    (goesOn : ∀ first c fuel, membersFrom first c (fuel + 1) = do
      match ← next first c with
      | none => return ([], c.skipSpace)
      | some c =>
        let (head, c) ← member c
        let (tail, c) ← membersFrom false c fuel
        return (head :: tail, c))
    (got : List α) (first : Bool) (c : Cursor) (fuel : Nat) :
    collect next cut (append member) got first c fuel =
      (membersFrom first c fuel).map fun p => (got ++ p.1, p.2) := by
  -- One loop puts a member before those to come, the other one behind those that were got.
  induction fuel generalizing got first c with
  | zero =>
      rw [stops]
      rfl
  | succ fuel ih =>
      rw [collect, goesOn]
      cases next first c with
      | error fault => rfl
      | ok found =>
          cases found with
          | none =>
              exact congrArg (fun got => Except.ok (got, c.skipSpace)) (List.append_nil got).symm
          | some c =>
              simp only [bind, Except.bind, append]
              cases member c with
              | error fault => rfl
              | ok read =>
                  simp only [Except.map, ih]
                  cases membersFrom false read.2 fuel with
                  | error fault => rfl
                  | ok later =>
                      exact congrArg (fun got => Except.ok (got, later.2)) (List.append_assoc _ _ _)

theorem collect_items (item : Reader α) (got : List α) (first : Bool) (c : Cursor) (fuel : Nat) :
    collect nextItem .endInList (append item) got first c fuel =
      (itemsFrom item first c fuel).map fun p => (got ++ p.1, p.2) :=
  collect_append (fun _ _ => rfl) (fun _ _ _ => rfl) got first c fuel

theorem collect_entries (entry : Reader α) (got : List α) (first : Bool) (c : Cursor) (fuel : Nat) :
    collect nextKey .endInObject (append entry) got first c fuel =
      (entriesFrom entry first c fuel).map fun p => (got ++ p.1, p.2) :=
  collect_append (fun _ _ => rfl) (fun _ _ _ => rfl) got first c fuel

def closed (shut : Cursor → Except Fault Cursor) (got : List α) : Reader (List α) := fun c =>
  (shut c).map fun c => (got, c)

theorem read_items_eq (item : Reader α) :
    readItems item = readMembers nextItem .endInList 0 (append item) (closed closeList) := by
  funext c
  rw [readItems, readMembers, Nat.add_zero, collect_items]
  simp only [bind, Except.bind]
  cases itemsFrom item true c (c.rest.length + 1) with
  | error fault => rfl
  | ok read =>
      simp only [Except.map, closed, List.nil_append]
      cases closeList read.2 <;> rfl

theorem read_entries_eq (entry : Reader α) :
    readEntries entry = readMembers nextKey .endInObject 0 (append entry) (closed closeObject) := by
  funext c
  rw [readEntries, readMembers, Nat.add_zero, collect_entries]
  simp only [bind, Except.bind]
  cases entriesFrom entry true c (c.rest.length + 1) with
  | error fault => rfl
  | ok read =>
      simp only [Except.map, closed, List.nil_append]
      cases closeObject read.2 <;> rfl

/-! ### Where members are found -/

/-- What is found in lists, or in objects, whose members open with some bytes. -/
structure Marks (next : Bool → Cursor → Except Fault (Option Cursor)) (close : UInt8)
    (opens : UInt8 → Prop) : Prop where
  closing : close ∈ [commaByte, closeListByte, closeObjectByte]
  ends : ∀ first rest taken, next first ⟨close :: rest, taken⟩ = .ok none
  begins : ∀ {b}, opens b → ∀ rest taken,
    next true ⟨b :: rest, taken⟩ = .ok (some ⟨b :: rest, taken⟩)
  goesOn : ∀ {b}, opens b → ∀ rest taken,
    next false ⟨commaByte :: b :: rest, taken⟩ = .ok (some ⟨b :: rest, taken + 1⟩)

structure OpensItem (b : UInt8) : Prop where
  solid : isSpace b = false
  noEnd : b ≠ closeListByte

theorem item_marks : Marks nextItem closeListByte OpensItem where
  closing := by decide
  ends := fun _ rest taken => rfl
  begins := by
    intro b opens rest taken
    rw [nextItem, skip_space_of_solid opens.solid]
    simp only [Cursor.peek, List.head?_cons, opens.noEnd, if_false, Bool.not_true,
      Bool.false_eq_true, and_false, if_true]
  goesOn := by
    intro b opens rest taken
    have noEnd : commaByte ≠ closeListByte := by decide
    rw [nextItem, skip_space_of_solid (by decide)]
    simp only [Cursor.peek, Cursor.advance, List.head?_cons, noEnd, if_false, Bool.not_false,
      and_self, if_true, skip_space_of_solid opens.solid, opens.noEnd]

theorem key_marks : Marks nextKey closeObjectByte (· = quoteByte) where
  closing := by decide
  ends := fun _ rest taken => rfl
  begins := by
    rintro b rfl rest taken
    rfl
  goesOn := by
    rintro b rfl rest taken
    rfl

def separator (first : Bool) : List UInt8 := if first then [] else [commaByte]

def joined (first : Bool) : List (List UInt8) → List UInt8
  | [] => []
  | head :: rest => separator first ++ head ++ joined false rest

theorem length_le_joined {texts : List (List UInt8)} (begun : ∀ head ∈ texts, head ≠ [])
    (first : Bool) : texts.length ≤ (joined first texts).length := by
  induction texts generalizing first with
  | nil => exact Nat.zero_le _
  | cons head rest ih =>
      have here := List.length_pos_iff.mpr (begun head List.mem_cons_self)
      have later := ih (fun text member => begun text (List.mem_cons_of_mem _ member)) false
      rw [joined, List.length_cons, List.length_append, List.length_append]
      omega

/-! ### Steps of the loop -/

variable {next : Bool → Cursor → Except Fault (Option Cursor)} {cut : Problem} {close : UInt8}
  {opens : UInt8 → Prop} {step : σ → Reader σ} {first : Bool} {c c' : Cursor} {fuel : Nat}

theorem ends_before_others (marks : Marks next close opens) (texts : List (List UInt8))
    (rest : List UInt8) : EndsNumber (joined false texts ++ close :: rest) := by
  cases texts with
  | nil => exact ends_number_of_byte rest marks.closing
  | cons head texts => exact ends_number_of_byte _ (by decide)

theorem collect_at_end (marks : Marks next close opens) (got : σ) (first : Bool)
    (rest : List UInt8) (taken : Nat) :
    collect next cut step got first ⟨close :: rest, taken⟩ (fuel + 1) =
      .ok (got, ⟨close :: rest, taken⟩) := by
  have solid : isSpace close = false := by
    have closing := marks.closing
    simp only [List.mem_cons, List.not_mem_nil, or_false] at closing
    rcases closing with rfl | rfl | rfl <;> decide
  have ended : (Cursor.skipSpace ⟨close :: rest, taken⟩) = ⟨close :: rest, taken⟩ :=
    skip_space_of_solid solid rest taken
  rw [collect, marks.ends]
  exact congrArg (fun c => Except.ok (got, c)) ended

theorem collect_found (found : next first c = .ok (some c')) (got : σ) :
    collect next cut step got first c (fuel + 1) =
      (step got c').bind fun p => collect next cut step p.1 false p.2 fuel := by
  rw [collect, found]
  rfl

/-- A member is looked for at its own text, behind a comma or without one. -/
theorem member_found (marks : Marks next close opens) (first : Bool) {text : List UInt8}
    (begins : Begins opens text) (rest : List UInt8) (taken : Nat) :
    next first ⟨separator first ++ text ++ rest, taken⟩ =
      .ok (some ⟨text ++ rest, taken + (separator first).length⟩) := by
  obtain ⟨b, text, rfl, opens⟩ := begins
  cases first with
  | true => exact marks.begins opens _ _
  | false => exact marks.goesOn opens _ _

end Loop

/-! ### Runs of the loop -/

section Runs

variable {α β : Type} {next : Bool → Cursor → Except Fault (Option Cursor)} {cut : Problem}
  {close : UInt8} {opens : UInt8 → Prop} {step : Nat → List α → Reader (List α)}
  {text : α → List UInt8} {deep : α → Nat} {values : List α}

def deepest (deep : α → Nat) : List α → Nat
  | [] => 0
  | v :: rest => max (deep v) (deepest deep rest)

def EachFaithful (opens : UInt8 → Prop) (step : Nat → List α → Reader (List α))
    (text : α → List UInt8) (deep : α → Nat) (values : List α) : Prop :=
  ∀ {got v later}, values = got ++ v :: later → Begins opens (text v) ∧
    Faithful (fun depth => step depth got) (text v) (got ++ [v]) (deep v)

theorem collect_member (cut : Problem) (marks : Marks next close opens)
    (each : EachFaithful opens step text deep values) {got later : List α} {v : α}
    (all : values = got ++ v :: later) (first : Bool) (rest : List UInt8) (taken depth fuel : Nat) :
    ∃ taken', collect next cut (step depth) got first
        ⟨joined first ((v :: later).map text) ++ close :: rest, taken⟩ (fuel + 1) =
      ((step depth got ⟨text v ++ (joined false (later.map text) ++ close :: rest), taken'⟩).bind
        fun p => collect next cut (step depth) p.1 false p.2 fuel) ∧
      taken' + (text v).length + (joined false (later.map text)).length =
        taken + (joined first ((v :: later).map text)).length := by
  have split : joined first ((v :: later).map text) ++ close :: rest =
      separator first ++ text v ++ (joined false (later.map text) ++ close :: rest) :=
    List.append_assoc _ _ _
  refine ⟨taken + (separator first).length, ?_, ?_⟩
  · rw [split]
    exact collect_found (member_found marks first (each all).1 _ taken) got
  · rw [List.map_cons, joined, List.length_append, List.length_append]
    omega

theorem collect_read (marks : Marks next close opens)
    (each : EachFaithful opens step text deep values) (rest : List UInt8) {depth : Nat} :
    ∀ (later got : List α) (first : Bool) (taken : Nat) {fuel : Nat}, values = got ++ later →
      deepest deep later < depth → later.length < fuel →
      collect next cut (step depth) got first
        ⟨joined first (later.map text) ++ close :: rest, taken⟩ fuel =
        .ok (values, ⟨close :: rest, taken + (joined first (later.map text)).length⟩) := by
  intro later
  induction later with
  | nil =>
      intro got first taken fuel all _ enough
      obtain ⟨left, rfl⟩ := Nat.exists_eq_add_of_le' (Nat.succ_le_of_lt enough)
      rw [all, List.append_nil]
      exact collect_at_end marks got first rest taken
  | cons v later ih =>
      intro got first taken fuel all shallow enough
      obtain ⟨left, rfl⟩ := Nat.exists_eq_add_of_le' (Nat.succ_le_of_lt (Nat.zero_lt_of_lt enough))
      rw [deepest] at shallow
      have head : deep v < depth := Nat.lt_of_le_of_lt (Nat.le_max_left _ _) shallow
      have tail : deepest deep later < depth := Nat.lt_of_le_of_lt (Nat.le_max_right _ _) shallow
      obtain ⟨taken', step, place⟩ := collect_member cut marks each all first rest taken
        depth left
      rw [step, (each all).2.reads head _ _ (ends_before_others marks _ rest), ← place]
      exact ih (got ++ [v]) false _ (by rw [all, List.append_cons]) tail
        (Nat.lt_of_succ_lt_succ enough)

theorem collect_refused (cut : Problem) (marks : Marks next close opens)
    (each : EachFaithful opens step text deep values) (rest : List UInt8) {depth : Nat}
    (positive : 0 < depth) :
    ∀ (later got : List α) (first : Bool) (taken : Nat) {fuel : Nat}, values = got ++ later →
      depth ≤ deepest deep later → later.length < fuel →
      ∃ offset, collect next cut (step depth) got first
        ⟨joined first (later.map text) ++ close :: rest, taken⟩ fuel =
          .error ⟨.tooDeep, offset⟩ := by
  intro later
  induction later with
  | nil => exact fun _ _ _ _ _ deeper _ => absurd deeper (Nat.not_le.mpr positive)
  | cons v later ih =>
      intro got first taken fuel all deeper enough
      obtain ⟨left, rfl⟩ := Nat.exists_eq_add_of_le' (Nat.succ_le_of_lt (Nat.zero_lt_of_lt enough))
      have ends := ends_before_others marks (later.map text) rest
      obtain ⟨taken', step, _⟩ := collect_member cut marks each all first rest taken
        depth left
      rw [step]
      by_cases here : depth ≤ deep v
      · obtain ⟨offset, refused⟩ := (each all).2.refuses positive here _ taken' ends
        exact ⟨offset, by rw [refused]; rfl⟩
      · have tail : depth ≤ deepest deep later := by
          rw [deepest] at deeper
          omega
        rw [(each all).2.reads (Nat.lt_of_not_le here) _ _ ends]
        exact ih (got ++ [v]) false _ (by rw [all, List.append_cons]) tail
          (Nat.lt_of_succ_lt_succ enough)

/-- Members are faithfully read, with their end, if each of them is. -/
theorem members_faithful (marks : Marks next close opens)
    (each : EachFaithful opens step text deep values) (cut : Problem) (spare : Nat)
    (finish : List α → Reader β) (result : β)
    (finishes : ∀ rest taken,
      finish values ⟨close :: rest, taken⟩ = .ok (result, ⟨rest, taken + 1⟩)) :
    Faithful (fun depth => readMembers next cut spare (step depth) finish)
      (joined true (values.map text) ++ [close]) result (deepest deep values) := by
  have begun : ∀ head ∈ values.map text, head ≠ [] := by
    intro head member
    obtain ⟨v, there, rfl⟩ := List.mem_map.mp member
    obtain ⟨got, later, all⟩ := List.append_of_mem there
    obtain ⟨⟨b, rest, written, _⟩, _⟩ := each all
    rw [written]
    exact List.cons_ne_nil b rest
  have split : ∀ rest, joined true (values.map text) ++ [close] ++ rest =
      joined true (values.map text) ++ close :: rest := fun rest => List.append_assoc _ _ _
  have enough : ∀ rest,
      values.length < (joined true (values.map text) ++ close :: rest).length + 1 + spare := by
    intro rest
    have short := length_le_joined begun true
    rw [List.length_map] at short
    rw [List.length_append]
    omega
  constructor
  · intro depth shallow rest taken _
    rw [split, readMembers, collect_read marks each rest values [] true taken rfl shallow
      (enough rest), List.length_append]
    exact finishes rest _
  · intro depth positive deeper rest taken _
    obtain ⟨offset, refused⟩ := collect_refused cut marks each rest positive values [] true
      taken rfl deeper (enough rest)
    refine ⟨offset, ?_⟩
    rw [split, readMembers, refused]
    rfl

end Runs

end ExpiringCache.Json
