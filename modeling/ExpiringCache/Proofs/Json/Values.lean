import ExpiringCache.Proofs.Json.Members
/-!
JSON values read back. What is written for a value is read as that value by a reader that may go as
deep as it lies; a reader that may not go so deep refuses the bracket that lies too deep, and with
it the whole text.
-/

namespace ExpiringCache.Json

open Text.Utf8 (encodeChars)

def bytes (v : Json) : List UInt8 := encodeChars v.print

/-! ### Depth -/

mutual

def depth : Json → Nat
  | .list items => itemsDepth items + 1
  | .object fields => fieldsDepth fields + 1
  | _ => 0

def itemsDepth : List Json → Nat
  | [] => 0
  | item :: rest => max (depth item) (itemsDepth rest)

def fieldsDepth : List (String × Json) → Nat
  | [] => 0
  | (_, value) :: rest => max (depth value) (fieldsDepth rest)

end

theorem items_depth_eq (items : List Json) : itemsDepth items = deepest depth items := by
  induction items with
  | nil => rfl
  | cons item rest ih => rw [itemsDepth, deepest, ih]

theorem fields_depth_eq (fields : List (String × Json)) :
    fieldsDepth fields = deepest (fun f => f.2.depth) fields := by
  induction fields with
  | nil => rfl
  | cons field rest ih => rw [fieldsDepth, deepest, ih]

/-! ### Texts -/

def fieldBytes (field : String × Json) : List UInt8 :=
  quoteByte :: (afterQuote field.1 ++ colonByte :: field.2.bytes)

theorem bytes_of_list (items : List Json) :
    (list items).bytes = openListByte :: (joined true (items.map bytes) ++ [closeListByte]) := by
  have others : ∀ items : List Json,
      encodeChars (printItems items) = joined false (items.map bytes) ++ [closeListByte] := by
    intro items
    induction items with
    | nil => rfl
    | cons item rest ih =>
        rw [printItems, List.cons_append, encode_cons, encode_append, ih, ← List.append_assoc,
          ← List.append_assoc]
        rfl
  cases items with
  | nil => rfl
  | cons item rest =>
      have split : joined true ((item :: rest).map bytes) =
          item.bytes ++ joined false (rest.map bytes) := rfl
      rw [bytes, print, List.cons_append, encode_cons, encode_append, others, split,
        List.append_assoc]
      rfl

theorem bytes_of_object (fields : List (String × Json)) :
    (object fields).bytes =
      openObjectByte :: (joined true (fields.map fieldBytes) ++ [closeObjectByte]) := by
  have field : ∀ (f : String × Json) (rest : List Char),
      encodeChars (printText f.1 ++ ':' :: print f.2 ++ rest) =
        fieldBytes f ++ encodeChars rest := by
    intro f rest
    rw [encode_append, encode_append, encode_text]
    rfl
  have others : ∀ fields : List (String × Json),
      encodeChars (printFields fields) =
        joined false (fields.map fieldBytes) ++ [closeObjectByte] := by
    intro fields
    induction fields with
    | nil => rfl
    | cons head rest ih =>
        rw [printFields, List.cons_append, List.cons_append, encode_cons, field head, ih,
          ← List.append_assoc, ← List.append_assoc]
        rfl
  cases fields with
  | nil => rfl
  | cons head rest =>
      have split : joined true ((head :: rest).map fieldBytes) =
          fieldBytes head ++ joined false (rest.map fieldBytes) := rfl
      rw [bytes, print, List.cons_append, List.cons_append, encode_cons, field head, others, split,
        List.append_assoc]
      rfl

structure OpensNumber (b : UInt8) : Prop extends OpensItem b where
  sign : b = minusByte ∨ isDigit b = true
  noLiteral : b ≠ 0x6E ∧ b ≠ 0x74 ∧ b ≠ 0x66

theorem opens_number {b : UInt8} (sign : b = minusByte ∨ isDigit b = true) : OpensNumber b := by
  have other : ∀ {d : UInt8}, ¬(d = minusByte ∨ isDigit d = true) → b ≠ d := by
    rintro d never rfl
    exact never sign
  have solid : isSpace b = false := by
    simp only [isSpace, Bool.or_eq_false_iff, beq_eq_false_iff_ne]
    exact ⟨⟨⟨other (by decide), other (by decide)⟩, other (by decide)⟩, other (by decide)⟩
  exact ⟨⟨solid, other (by decide)⟩, sign, other (by decide), other (by decide), other (by decide)⟩

theorem whole_begins (n : Int) : Begins OpensNumber (whole n).bytes := by
  have text : (whole n).bytes = encodeChars (toString n).toList := rfl
  rw [text, encode_whole]
  by_cases negative : n < 0
  · rw [if_pos negative]
    exact ⟨minusByte, _, rfl, opens_number (.inl rfl)⟩
  · obtain ⟨b, rest, written, digit, _⟩ := decimal_begins n.natAbs
    rw [if_neg negative]
    exact ⟨b, rest, written, opens_number (.inr digit)⟩

theorem text_bytes (s : String) : (text s).bytes = quoteByte :: afterQuote s := encode_text s

theorem text_begins (s : String) : Begins OpensItem (text s).bytes :=
  ⟨quoteByte, afterQuote s, text_bytes s, by decide, by decide⟩

/-! ### Faithful readers -/

/-- A reader gives back a value of which it has the text, unless that lies deeper than it may go. -/
structure Recovers (reader : DeepReader) (v : Json) : Prop where
  begins : Begins OpensItem v.bytes
  faithful : Faithful reader v.bytes v v.depth

section Recovery

variable {reader : DeepReader}

theorem recovers_scalar {v : Json} (begins : Begins OpensItem v.bytes) (scalar : v.depth = 0)
    (reads : ∀ depth, Reads (reader depth) v.bytes v) : Recovers reader v := by
  refine ⟨begins, fun _ => reads _, ?_⟩
  intro depth positive deep
  omega

/-- Whatever lies in brackets is one deeper than what reads the inside of them. -/
theorem recovers_brackets {β : Type} {inside : Nat → Reader β} {members : β} {text : List UInt8}
    {deep : Nat} (faithful : Faithful inside text members deep) (wrap : β → Json) {opening : UInt8}
    (opens : OpensItem opening)
    (stops : ∀ rest taken, ∃ offset,
      reader 1 ⟨opening :: rest, taken⟩ = .error ⟨.tooDeep, offset⟩)
    (enters : ∀ depth rest taken, reader (depth + 2) ⟨opening :: rest, taken⟩ =
      (inside (depth + 1) ⟨rest, taken + 1⟩).map fun p => (wrap p.1, p.2))
    (written : (wrap members).bytes = opening :: text)
    (deeper : (wrap members).depth = deep + 1) : Recovers reader (wrap members) := by
  refine ⟨⟨opening, text, written, opens⟩, ?_, ?_⟩
  · intro depth shallow rest taken ends
    rw [deeper] at shallow
    obtain ⟨depth, rfl⟩ := Nat.exists_eq_add_of_le' (Nat.le_trans (Nat.le_add_left 2 _) shallow)
    rw [written, List.cons_append, enters, faithful.reads (by omega) rest _ ends, List.length_cons,
      Nat.add_right_comm]
    rfl
  · intro depth positive tooDeep rest taken ends
    rw [deeper] at tooDeep
    rw [written, List.cons_append]
    -- The bracket itself is refused if it opens the last level, and else something inside it.
    by_cases last : depth = 1
    · subst last
      exact stops _ taken
    · obtain ⟨depth, rfl⟩ : ∃ d, depth = d + 2 := ⟨depth - 2, by omega⟩
      obtain ⟨offset, refused⟩ := faithful.refuses (Nat.succ_pos depth)
        (Nat.le_of_succ_le_succ tooDeep) rest (taken + 1) ends
      refine ⟨offset, ?_⟩
      rw [enters, refused]
      rfl

theorem append_faithful {α : Type} {member : Nat → Reader α} {text : List UInt8} {v : α}
    {deep : Nat}
    (faithful : Faithful member text v deep) (got : List α) :
    Faithful (fun depth => append (member depth) got) text (got ++ [v]) deep := by
  constructor
  · intro depth shallow rest taken ends
    simp only [append, faithful.reads shallow rest taken ends]
    rfl
  · intro depth positive tooDeep rest taken ends
    obtain ⟨offset, refused⟩ := faithful.refuses positive tooDeep rest taken ends
    refine ⟨offset, ?_⟩
    simp only [append, refused]
    rfl

theorem items_faithful {items : List Json} (each : ∀ v ∈ items, Recovers reader v) :
    Faithful (fun depth => readItems (reader depth))
      (joined true (items.map bytes) ++ [closeListByte]) items (itemsDepth items) := by
  have members : EachFaithful OpensItem (fun depth => append (reader depth)) bytes depth items := by
    intro got v later all
    have recovers := each v (by rw [all]; exact List.mem_append_right _ List.mem_cons_self)
    exact ⟨recovers.begins, append_faithful recovers.faithful got⟩
  have faithful := members_faithful item_marks members .endInList 0 (closed closeList) items
    fun _ _ => rfl
  rw [items_depth_eq]
  simpa only [read_items_eq] using faithful

/-- A field's key is read, and the colon, and then what the reader makes of its value. -/
theorem field_key_read (value : Reader Json) (field : String × Json) (rest : List UInt8)
    (taken : Nat) :
    readField value ⟨fieldBytes field ++ rest, taken⟩ =
      (value ⟨field.2.bytes ++ rest, taken + (afterQuote field.1).length + 2⟩).map
        fun p => ((field.1, p.1), p.2) := by
  have text : fieldBytes field ++ rest =
      quoteByte :: (afterQuote field.1 ++ (colonByte :: field.2.bytes ++ rest)) :=
    congrArg _ (List.append_assoc _ _ _)
  have key := text_reads field.1 (colonByte :: field.2.bytes ++ rest) (taken + 1)
  have place : taken + 1 + (afterQuote field.1).length + 1 =
      taken + (afterQuote field.1).length + 2 := by omega
  have colon : readColon ⟨colonByte :: field.2.bytes ++ rest,
      taken + 1 + (afterQuote field.1).length⟩ =
      .ok ⟨field.2.bytes ++ rest, taken + (afterQuote field.1).length + 2⟩ := by
    rw [← place]
    rfl
  rw [text, readField]
  simp only [Cursor.advance, bind, Except.bind, key, colon]
  cases value ⟨field.2.bytes ++ rest, taken + (afterQuote field.1).length + 2⟩ <;> rfl

theorem length_of_field (field : String × Json) :
    (fieldBytes field).length = (afterQuote field.1).length + 2 + field.2.bytes.length := by
  rw [fieldBytes, List.length_cons, List.length_append, List.length_cons]
  omega

theorem field_faithful {field : String × Json} (recovers : Recovers reader field.2) :
    Faithful (fun depth => readField (reader depth)) (fieldBytes field) field field.2.depth := by
  constructor
  · intro depth shallow rest taken ends
    rw [field_key_read, recovers.faithful.reads shallow rest _ ends, length_of_field,
      ← Nat.add_assoc, ← Nat.add_assoc]
    rfl
  · intro depth positive tooDeep rest taken ends
    obtain ⟨offset, refused⟩ := recovers.faithful.refuses positive tooDeep rest
      (taken + (afterQuote field.1).length + 2) ends
    refine ⟨offset, ?_⟩
    rw [field_key_read, refused]
    rfl

theorem fields_faithful {fields : List (String × Json)} (each : ∀ f ∈ fields, Recovers reader f.2) :
    Faithful (fun depth => readEntries (readField (reader depth)))
      (joined true (fields.map fieldBytes) ++ [closeObjectByte]) fields (fieldsDepth fields) := by
  have members : EachFaithful (· = quoteByte) (fun depth => append (readField (reader depth)))
      fieldBytes (fun f => f.2.depth) fields := by
    intro got f later all
    have recovers := each f (by rw [all]; exact List.mem_append_right _ List.mem_cons_self)
    exact ⟨⟨_, _, rfl, rfl⟩, append_faithful (field_faithful recovers) got⟩
  have faithful := members_faithful key_marks members .endInObject 0 (closed closeObject)
    fields fun _ _ => rfl
  rw [fields_depth_eq]
  simpa only [read_entries_eq] using faithful

end Recovery

/-! ### Values of any form -/

section Any

variable (depth : Nat) (rest : List UInt8) (taken : Nat)

theorem read_any_null :
    readAny depth ⟨null.bytes ++ rest, taken⟩ = .ok (null, ⟨rest, taken + 4⟩) := by
  unfold readAny
  rfl

theorem read_any_flag (b : Bool) : readAny depth ⟨(flag b).bytes ++ rest, taken⟩ =
    .ok (flag b, ⟨rest, taken + (flag b).bytes.length⟩) := by
  unfold readAny
  cases b <;> rfl

theorem read_any_text : readAny depth ⟨quoteByte :: rest, taken⟩ =
    (readText ⟨rest, taken + 1⟩).map fun p => (.text p.1, p.2) := by
  unfold readAny
  change (readText ⟨rest, taken + 1⟩).bind _ = _
  cases readText ⟨rest, taken + 1⟩ <;> rfl

theorem read_any_number {b : UInt8} (opens : OpensNumber b) :
    readAny depth ⟨b :: rest, taken⟩ = (readSigned ⟨b :: rest, taken⟩).bind fun p =>
      match p.1 with
      | .whole n => .ok (.whole n, p.2)
      | .real x => .ok (.real x, p.2) := by
  obtain ⟨noNull, noTrue, noFalse⟩ := opens.noLiteral
  unfold readAny
  rw [skip_space_of_solid opens.solid]
  simp only [Cursor.peek, List.head?_cons, noNull, noTrue, noFalse, if_false, opens.sign, if_true]
  rfl

theorem read_any_list : readAny (depth + 2) ⟨openListByte :: rest, taken⟩ =
    (readItems (readAny (depth + 1)) ⟨rest, taken + 1⟩).map fun p => (.list p.1, p.2) := by
  rw [readAny]
  · change (readItems (readAny (depth + 1)) ⟨rest, taken + 1⟩).bind _ = _
    cases readItems (readAny (depth + 1)) ⟨rest, taken + 1⟩ <;> rfl
  · exact Nat.succ_ne_zero depth

theorem read_any_object : readAny (depth + 2) ⟨openObjectByte :: rest, taken⟩ =
    (readEntries (readField (readAny (depth + 1))) ⟨rest, taken + 1⟩).map
      fun p => (.ofFields p.1, p.2) := by
  rw [readAny]
  · change (readEntries (readField (readAny (depth + 1))) ⟨rest, taken + 1⟩).bind _ = _
    cases readEntries (readField (readAny (depth + 1))) ⟨rest, taken + 1⟩ <;> rfl
  · exact Nat.succ_ne_zero depth

theorem read_any_too_deep {b : UInt8} (bracket : b = openListByte ∨ b = openObjectByte) :
    readAny 1 ⟨b :: rest, taken⟩ = .error ⟨.tooDeep, taken + 1⟩ := by
  rw [readAny]
  rcases bracket with rfl | rfl <;> rfl

end Any

/-- Values without doubles, with whole numbers of at most 64 bits, and with the fields of each
object in the order of their names. -/
inductive Plain : Json → Prop where
  | null : Plain .null
  | flag (b : Bool) : Plain (.flag b)
  | whole {n : Int} (fits : Fits n) : Plain (.whole n)
  | text (s : String) : Plain (.text s)
  | list {items : List Json} (each : ∀ v ∈ items, Plain v) : Plain (.list items)
  | object {fields : List (String × Json)} (sorted : fields.Pairwise (·.1 < ·.1))
    (each : ∀ f ∈ fields, Plain f.2) : Plain (.object fields)

theorem put_field_last {name : String} {sorted : List (String × Json)} (value : Json)
    (last : ∀ f ∈ sorted, f.1 < name) : putField name value sorted = sorted ++ [(name, value)] := by
  induction sorted with
  | nil => rfl
  | cons first rest ih =>
      have before : first.1 < name := last first List.mem_cons_self
      have notBefore : ¬name < first.1 := String.lt_asymm before
      have other : name ≠ first.1 := by
        rintro rfl
        exact notBefore before
      rw [putField, if_neg notBefore, if_neg other,
        ih fun f there => last f (List.mem_cons_of_mem _ there)]
      rfl

/-- Fields that stand in the order of their names are an object as they are. -/
theorem object_of_sorted {fields : List (String × Json)} (sorted : fields.Pairwise (·.1 < ·.1)) :
    ofFields fields = .object fields := by
  have onwards : ∀ (front : List (String × Json)), (front ++ fields).Pairwise (·.1 < ·.1) →
      fields.foldl (fun sorted field => putField field.1 field.2 sorted) front =
        front ++ fields := by
    clear sorted
    induction fields with
    | nil => exact fun front _ => (List.append_nil front).symm
    | cons field rest ih =>
        intro front sorted
        have last : ∀ f ∈ front, f.1 < field.1 := fun f there =>
          (List.pairwise_append.mp sorted).2.2 f there field List.mem_cons_self
        rw [List.append_cons] at sorted ⊢
        rw [List.foldl_cons, put_field_last field.2 last, ih _ sorted]
  exact congrArg Json.object (onwards [] sorted)

theorem recovers_any {v : Json} (plain : v.Plain) : Recovers readAny v := by
  induction plain with
  | null =>
      refine recovers_scalar ⟨0x6E, _, rfl, by decide, by decide⟩ rfl ?_
      intro depth rest taken _
      exact read_any_null depth rest taken
  | flag b =>
      refine recovers_scalar ?_ rfl fun depth rest taken _ => read_any_flag depth rest taken b
      cases b
      · exact ⟨0x66, _, rfl, by decide, by decide⟩
      · exact ⟨0x74, _, rfl, by decide, by decide⟩
  | @whole n fits =>
      obtain ⟨b, text, written, opens⟩ := whole_begins n
      refine recovers_scalar ⟨b, text, written, opens.toOpensItem⟩ rfl ?_
      intro depth rest taken ends
      have read := whole_reads fits ends taken
      have same : encodeChars (toString n).toList = b :: text := written
      rw [same] at read
      rw [written, List.cons_append, read_any_number depth _ taken opens, ← List.cons_append, read]
      rfl
  | text s =>
      refine recovers_scalar (text_begins s) rfl ?_
      intro depth rest taken _
      rw [text_bytes, List.cons_append, read_any_text, text_reads, List.length_cons, Nat.add_assoc,
        Nat.add_comm 1]
      rfl
  | @list items _ ih =>
      exact recovers_brackets (items_faithful ih) .list ⟨by decide, by decide⟩
        (fun rest taken => ⟨_, read_any_too_deep rest taken (.inl rfl)⟩) read_any_list
        (bytes_of_list items) rfl
  | @object fields sorted _ ih =>
      have inOrder := object_of_sorted sorted
      have recovers := recovers_brackets (fields_faithful ih) ofFields ⟨by decide, by decide⟩
        (fun rest taken => ⟨_, read_any_too_deep rest taken (.inr rfl)⟩) read_any_object
        ((congrArg bytes inOrder).trans (bytes_of_object fields)) (congrArg depth inOrder)
      rwa [inOrder] at recovers

end ExpiringCache.Json
