import ExpiringCache.Proofs.Json.Values
import ExpiringCache.Proofs.Named
/-!
Values of a given shape read back. A record is an object whose fields stand in the order of its
declaration, each name once; its reader finds every field by name and puts them into that order
again.
-/

namespace ExpiringCache.Json

open Text.Utf8 (encodeChars)

/-- The values that a shape stands for: values of any form, whole numbers of a range, texts, lists,
and records, of which each field has a value of its own shape. -/
inductive Shape.Holds : Shape → Json → Prop where
  | any {v : Json} (plain : v.Plain) : Holds .any v
  | whole (name : String) {range : Number.Range} {n : Int} (within : range.contains n = true)
    (fits : Fits n) : Holds (.whole name range) (.whole n)
  | text (s : String) : Holds .text (.text s)
  | list {item : Shape} {items : List Json} (each : ∀ v ∈ items, Holds item v) :
    Holds (.list item) (.list items)
  | record (name : String) {fields : List (String × Shape × Option Json)}
    {entries : List (String × Json)} (named : entries.map (·.1) = fields.map (·.1))
    (distinct : (fields.map (·.1)).Nodup)
    (each : ∀ pair ∈ fields.zip entries, Holds pair.1.2.1 pair.2.2) :
    Holds (.record name fields) (.object entries)

/-- Every number of an unsigned width that 64 bits hold is a value of that width. -/
theorem Shape.Holds.unsigned (name : String) {bits n : Nat} (width : bits ≤ 64)
    (fits : n < 2 ^ bits) :
    (Shape.whole name (.unsigned bits)).Holds (.whole n) := by
  have within : n < 2 ^ 64 := Nat.lt_of_lt_of_le fits (Nat.pow_le_pow_right (by decide) width)
  have high : (n : Int) ≤ 2 ^ bits - 1 := by
    have cast : ((n : Nat) : Int) < ((2 ^ bits : Nat) : Int) := Int.ofNat_lt.mpr fits
    rw [Int.natCast_pow] at cast
    exact Int.le_sub_one_of_lt cast
  refine .whole name ?_ ⟨by omega, by omega⟩
  rw [Number.Range.contains, Bool.and_eq_true]
  exact ⟨decide_eq_true (Int.natCast_nonneg n), decide_eq_true high⟩

/-! ### Readers of single values -/

section Shapes

variable (depth : Nat) (rest : List UInt8) (taken : Nat)

theorem read_shape_number (name : String) (range : Number.Range) {b : UInt8}
    (opens : OpensNumber b) :
    (Shape.whole name range).reader depth ⟨b :: rest, taken⟩ =
      (readSigned ⟨b :: rest, taken⟩).bind fun p =>
        (wholeWithin name range p.1 p.2).map fun p => (.whole p.1, p.2) := by
  have first : Cursor.peek ⟨b :: rest, taken⟩ = some b := rfl
  simp only [Shape.reader, readWholeAs, atValue, skip_space_of_solid opens.solid, first, opens.sign,
    if_true, bind, Except.bind]
  cases readSigned ⟨b :: rest, taken⟩ with
  | error fault => rfl
  | ok read => cases wholeWithin name range read.1 read.2 <;> rfl

theorem read_shape_text : Shape.text.reader depth ⟨quoteByte :: rest, taken⟩ =
    (readText ⟨rest, taken + 1⟩).map fun p => (.text p.1, p.2) := by
  rw [Shape.reader]
  change (readText ⟨rest, taken + 1⟩).bind _ = _
  cases readText ⟨rest, taken + 1⟩ <;> rfl

theorem read_shape_list (item : Shape) :
    (Shape.list item).reader (depth + 2) ⟨openListByte :: rest, taken⟩ =
      (readItems (item.reader (depth + 1)) ⟨rest, taken + 1⟩).map fun p => (.list p.1, p.2) := by
  rw [Shape.reader]
  change (readItems (item.reader (depth + 1)) ⟨rest, taken + 1⟩).bind _ = _
  cases readItems (item.reader (depth + 1)) ⟨rest, taken + 1⟩ <;> rfl

theorem read_shape_list_too_deep (item : Shape) :
    (Shape.list item).reader 1 ⟨openListByte :: rest, taken⟩ = .error ⟨.tooDeep, taken + 1⟩ := by
  rw [Shape.reader]
  rfl

end Shapes

/-! ### Fields of records -/

def fieldStep (fields : List FieldReader) (depth : Nat) (got : List (String × Json)) :
    Reader (List (String × Json)) := fun c => do
  let (name, c) ← readText c.advance
  match fields.find? (·.name == name) with
  | none =>
    let c ← readColon c
    let c ← skipValue c
    return (got, c)
  | some field =>
    if got.any (·.1 == name) then .error ⟨.duplicateField name, afterObject c⟩
    else
      let c ← readColon c
      let (value, c) ← field.reader depth c
      return (got ++ [(name, value)], c)

theorem collect_fields (fields : List FieldReader) (depth : Nat) (got : List (String × Json))
    (first : Bool) (c : Cursor) (fuel : Nat) :
    fieldsFrom fields depth got first c fuel =
      collect nextKey .endInObject (fieldStep fields depth) got first c fuel := by
  induction fuel generalizing got first c with
  | zero => rfl
  | succ fuel ih =>
      rw [collect, fieldsFrom]
      cases nextKey first c with
      | error fault => rfl
      | ok found =>
          cases found with
          | none => rfl
          | some c =>
              simp only [bind, Except.bind, fieldStep]
              cases readText c.advance with
              | error fault => rfl
              | ok key =>
                  simp only
                  cases fields.find? (·.name == key.1) with
                  | none =>
                      simp only
                      cases readColon key.2 with
                      | error fault => rfl
                      | ok c =>
                          simp only
                          cases skipValue c with
                          | error fault => rfl
                          | ok c => exact ih got false c
                  | some field =>
                      simp only
                      split
                      · rfl
                      · cases readColon key.2 with
                        | error fault => rfl
                        | ok c =>
                            simp only
                            cases field.reader depth c with
                            | error fault => rfl
                            | ok read => exact ih _ false read.2

theorem step_of_known {fields : List FieldReader} {field : FieldReader} {entry : String × Json}
    (known : fields.find? (·.name == entry.1) = some field) {got : List (String × Json)}
    (new : got.any (·.1 == entry.1) = false) (depth : Nat) (rest : List UInt8) (taken : Nat) :
    fieldStep fields depth got ⟨fieldBytes entry ++ rest, taken⟩ =
      append (readField (field.reader depth)) got ⟨fieldBytes entry ++ rest, taken⟩ := by
  have key := text_reads entry.1 (colonByte :: entry.2.bytes ++ rest) (taken + 1)
  have text : fieldBytes entry ++ rest =
      quoteByte :: (afterQuote entry.1 ++ (colonByte :: entry.2.bytes ++ rest)) :=
    congrArg _ (List.append_assoc _ _ _)
  rw [text]
  simp only [fieldStep, append, readField, Cursor.advance, bind, Except.bind, key, known, new,
    Bool.false_eq_true, if_false]
  cases readColon ⟨colonByte :: entry.2.bytes ++ rest, taken + 1 + (afterQuote entry.1).length⟩ with
  | error fault => rfl
  | ok c =>
      simp only
      cases field.reader depth c <;> rfl

theorem step_faithful {fields : List FieldReader} {field : FieldReader} {entry : String × Json}
    (known : fields.find? (·.name == entry.1) = some field) {got : List (String × Json)}
    (new : got.any (·.1 == entry.1) = false) (recovers : Recovers field.reader entry.2) :
    Faithful (fun depth => fieldStep fields depth got) (fieldBytes entry) (got ++ [entry])
      entry.2.depth := by
  have faithful := append_faithful (field_faithful recovers) got
  constructor
  · intro depth shallow rest taken ends
    rw [step_of_known known new]
    exact faithful.reads shallow rest taken ends
  · intro depth positive tooDeep rest taken ends
    rw [step_of_known known new]
    exact faithful.refuses positive tooDeep rest taken ends

/-! ### Records -/

def finishRecord (fields : List FieldReader) (got : List (String × Json)) :
    Reader (List (String × Json)) := fun c => do
  let all ← completed got c fields
  let c ← closeObject c
  return (all, c)

theorem read_shape_record (name : String) (fields : List (String × Shape × Option Json))
    (depth : Nat) (rest : List UInt8) (taken : Nat) :
    (Shape.record name fields).reader (depth + 2) ⟨openObjectByte :: rest, taken⟩ =
      (readMembers nextKey .endInObject 1 (fieldStep (fieldReaders fields) (depth + 1))
        (finishRecord (fieldReaders fields)) ⟨rest, taken + 1⟩).map
          fun p => (.object p.1, p.2) := by
  rw [readMembers, ← collect_fields, Shape.reader, readRecord]
  change (fieldsFrom (fieldReaders fields) (depth + 1) [] true ⟨rest, taken + 1⟩
    (rest.length + 1 + 1)).bind _ = Except.map _ (Except.bind (fieldsFrom _ _ _ _ _ _) _)
  cases fieldsFrom (fieldReaders fields) (depth + 1) [] true ⟨rest, taken + 1⟩
      (rest.length + 1 + 1) with
  | error fault => rfl
  | ok read =>
      simp only [Except.bind, finishRecord, bind]
      cases completed read.1 read.2 (fieldReaders fields) with
      | error fault => rfl
      | ok all =>
          simp only
          cases closeObject read.2 <;> rfl

theorem read_shape_record_too_deep (name : String) (fields : List (String × Shape × Option Json))
    (rest : List UInt8) (taken : Nat) :
    (Shape.record name fields).reader 1 ⟨openObjectByte :: rest, taken⟩ =
      .error ⟨.tooDeep, taken + 1⟩ := by
  rw [Shape.reader]
  rfl

theorem field_readers_eq (fields : List (String × Shape × Option Json)) :
    fieldReaders fields = fields.map fun f => ⟨f.1, f.2.1.reader, f.2.2⟩ := by
  induction fields with
  | nil => rfl
  | cons field rest ih =>
      obtain ⟨name, shape, fallback⟩ := field
      rw [fieldReaders, ih, List.map_cons]

theorem names_of_readers (fields : List (String × Shape × Option Json)) :
    (fieldReaders fields).map (·.name) = fields.map (·.1) := by
  rw [field_readers_eq, List.map_map]
  rfl

theorem field_of_entry {fields : List (String × Shape × Option Json)} :
    ∀ {entries : List (String × Json)}, entries.map (·.1) = fields.map (·.1) →
      ∀ {entry : String × Json}, entry ∈ entries →
        ∃ field, (field, entry) ∈ fields.zip entries ∧ field.1 = entry.1 := by
  induction fields with
  | nil =>
      intro entries named entry there
      rw [List.map_eq_nil_iff.mp named] at there
      cases there
  | cons field rest ih =>
      intro entries named entry there
      cases entries with
      | nil => cases there
      | cons first entries =>
          obtain ⟨same, others⟩ := List.cons.inj named
          rcases List.mem_cons.mp there with rfl | later
          · exact ⟨field, List.mem_cons_self, same.symm⟩
          · obtain ⟨other, paired, same⟩ := ih others later
            exact ⟨other, List.mem_cons_of_mem _ paired, same⟩

/-- Fields that are all there are put into their own order, in which they are already. -/
theorem completed_of_all {got : List (String × Json)} (c : Cursor) :
    ∀ {fields : List FieldReader} {entries : List (String × Json)},
      entries.map (·.1) = fields.map (·.name) →
      (∀ entry ∈ entries, got.find? (·.1 == entry.1) = some entry) →
      completed got c fields = .ok entries := by
  intro fields
  induction fields with
  | nil =>
      intro entries named _
      rw [List.map_eq_nil_iff.mp named]
      rfl
  | cons field rest ih =>
      intro entries named found
      cases entries with
      | nil => cases named
      | cons entry entries =>
          obtain ⟨name, value⟩ := entry
          obtain ⟨same, others⟩ := List.cons.inj named
          have same : field.name = name := same.symm
          have here := found (name, value) List.mem_cons_self
          have later := ih others fun entry there => found entry (List.mem_cons_of_mem _ there)
          simp only [completed, here, later, bind, Except.bind, pure, Except.pure, same]

/-- A record's reader gives back a record, if those of its fields do. -/
theorem recovers_record (name : String) {fields : List (String × Shape × Option Json)}
    {entries : List (String × Json)} (named : entries.map (·.1) = fields.map (·.1))
    (distinct : (fields.map (·.1)).Nodup)
    (each : ∀ pair ∈ fields.zip entries, Recovers pair.1.2.1.reader pair.2.2) :
    Recovers (Shape.record name fields).reader (.object entries) := by
  have apart : (entries.map (·.1)).Nodup := named ▸ distinct
  have members : EachFaithful (· = quoteByte) (fun depth => fieldStep (fieldReaders fields) depth)
      fieldBytes (fun f => f.2.depth) entries := by
    intro got entry later all
    have there : entry ∈ entries := all ▸ List.mem_append_right _ List.mem_cons_self
    obtain ⟨field, paired, same⟩ := field_of_entry named there
    have read : FieldReader.mk field.1 field.2.1.reader field.2.2 ∈ fieldReaders fields :=
      field_readers_eq fields ▸ List.mem_map_of_mem (List.of_mem_zip paired).1
    have known := find_of_member FieldReader.name (names_of_readers fields ▸ distinct) read
    rw [same] at known
    have new : got.any (·.1 == entry.1) = false := by
      rw [all, List.map_append, List.map_cons] at apart
      rw [List.any_eq_false]
      intro before member equal
      exact (List.nodup_append.mp apart).2.2 _ (List.mem_map_of_mem member) _ List.mem_cons_self
        (beq_iff_eq.mp equal)
    exact ⟨⟨_, _, rfl, rfl⟩, step_faithful known new (each _ paired)⟩
  have finishes : ∀ rest taken, finishRecord (fieldReaders fields) entries
      ⟨closeObjectByte :: rest, taken⟩ = .ok (entries, ⟨rest, taken + 1⟩) := by
    intro rest taken
    have complete : completed entries ⟨closeObjectByte :: rest, taken⟩ (fieldReaders fields) =
        .ok entries := by
      apply completed_of_all
      · exact named.trans (names_of_readers fields).symm
      · exact fun entry there => find_of_member Prod.fst apart there
    rw [finishRecord, complete]
    rfl
  have faithful := members_faithful key_marks members .endInObject 1
    (finishRecord (fieldReaders fields)) entries finishes
  rw [← fields_depth_eq] at faithful
  exact recovers_brackets faithful .object ⟨by decide, by decide⟩
    (fun rest taken => ⟨_, read_shape_record_too_deep name fields rest taken⟩)
    (read_shape_record name fields) (bytes_of_object entries) rfl

/-! ### Values of a shape -/

theorem recovers_held {shape : Shape} {v : Json} (holds : shape.Holds v) :
    Recovers shape.reader v := by
  induction holds with
  | any plain => exact recovers_any plain
  | @whole name range n within fits =>
      obtain ⟨b, text, written, opens⟩ := whole_begins n
      refine recovers_scalar ⟨b, text, written, opens.toOpensItem⟩ rfl ?_
      intro depth rest taken ends
      have read := whole_reads fits ends taken
      have same : encodeChars (toString n).toList = b :: text := written
      rw [same] at read
      rw [written, List.cons_append, read_shape_number depth _ taken name range opens,
        ← List.cons_append, read]
      simp only [Except.bind, wholeWithin, within, if_true]
      rfl
  | text s =>
      refine recovers_scalar (text_begins s) rfl ?_
      intro depth rest taken _
      rw [text_bytes, List.cons_append, read_shape_text, text_reads, List.length_cons,
        Nat.add_assoc, Nat.add_comm 1]
      rfl
  | @list item items _ ih =>
      exact recovers_brackets (items_faithful ih) .list ⟨by decide, by decide⟩
        (fun rest taken => ⟨_, read_shape_list_too_deep rest taken item⟩)
        (fun depth rest taken => read_shape_list depth rest taken item) (bytes_of_list items) rfl
  | record name named distinct _ ih => exact recovers_record name named distinct ih

/-- What is written for a value of a shape is read as that value, unless it lies 128 deep or
deeper. -/
theorem read_of_held {shape : Shape} {v : Json} (holds : shape.Holds v) :
    (v.depth < depthLimit → shape.read v.bytes = .ok v) ∧
      (depthLimit ≤ v.depth → ∃ offset, shape.read v.bytes = .error ⟨.tooDeep, offset⟩) := by
  have recovers := recovers_held holds
  have text : v.bytes ++ [] = v.bytes := List.append_nil _
  constructor
  · intro shallow
    have read := recovers.faithful.reads shallow [] 0 ends_number_of_none
    rw [text] at read
    rw [Shape.read, readAll]
    change (shape.reader depthLimit ⟨v.bytes, 0⟩).bind _ = _
    rw [read]
    rfl
  · intro deep
    obtain ⟨offset, refused⟩ := recovers.faithful.refuses (by decide) deep [] 0 ends_number_of_none
    rw [text] at refused
    refine ⟨offset, ?_⟩
    rw [Shape.read, readAll]
    change (shape.reader depthLimit ⟨v.bytes, 0⟩).bind _ = _
    rw [refused]
    rfl

end ExpiringCache.Json
