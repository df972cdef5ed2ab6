import ExpiringCache.Proofs.Number.Whole
import ExpiringCache.Proofs.Remote.Clearing
import ExpiringCache.Proofs.Text.Blank
/-!
Whole numbers, as caches of both kinds read them. An embedded cache reads the bytes of a value
itself and passes over the blanks around a number; a networked cache leaves the reading to its
client, which takes a number without blanks or none at all. So callers are told the same by both,
unless the value is a number with blanks around it.
-/

namespace ExpiringCache

namespace Payload

/-- Bytes that are the text of a whole number of 64 bits and nothing else. -/
def IsWhole (bytes : Payload) (n : Int) : Prop :=
  ∃ s, Text.Utf8.decode bytes = .ok s ∧ Number.readWhole (.signed 64) s.toList = .ok n

/-- Bytes that are the text of a whole number of 64 bits, with a blank before or after it. -/
def IsPaddedWhole (bytes : Payload) (n : Int) : Prop :=
  ∃ s front digits back, Text.Utf8.decode bytes = .ok s ∧ s.toList = front ++ digits ++ back ∧
    front ++ back ≠ [] ∧ (∀ c ∈ front ++ back, Text.isBlank c = true) ∧
    Number.readWhole (.signed 64) digits = .ok n

variable {bytes : Payload} {n : Int}

theorem padded_is_not_whole (padded : bytes.IsPaddedWhole n) (m : Int) : ¬ bytes.IsWhole m := by
  rintro ⟨s, decoded, read⟩
  obtain ⟨s', front, digits, back, decoded', split, some, blank, _⟩ := padded
  cases decoded.symm.trans decoded'
  obtain ⟨c, member⟩ := List.exists_mem_of_ne_nil _ some
  have inText : c ∈ s.toList := by
    rw [split]
    rcases List.mem_append.mp member with inFront | inBack
    · exact List.mem_append_left _ (List.mem_append_left _ inFront)
    · exact List.mem_append_right _ inBack
  have whole : Text.isBlank c = false := Number.read_whole_has_no_blank read c inText
  rw [blank c member] at whole
  cases whole

/-! ### Bytes read from a store -/

theorem as_int64_of_whole (key : String) (whole : bytes.IsWhole n) : bytes.asInt64 key = .ok n := by
  obtain ⟨s, decoded, read⟩ := whole
  have unblank : ∀ c ∈ s.toList, Text.isBlank c = false := Number.read_whole_has_no_blank read
  have unpadded : ∀ c ∈ ([] ++ [] : List Char), Text.isBlank c = true := nofun
  have trimmed : Text.trim ([] ++ s.toList ++ []) = s.toList := Text.trim_of_padding unpadded unblank
  rw [List.nil_append, List.append_nil] at trimmed
  simp only [asInt64, decoded, trimmed, read]

theorem as_int64_of_padded (key : String) (padded : bytes.IsPaddedWhole n) :
    bytes.asInt64 key = .ok n := by
  obtain ⟨s, front, digits, back, decoded, split, _, blank, read⟩ := padded
  have trimmed : Text.trim s.toList = digits := by
    rw [split]
    exact Text.trim_of_padding blank (Number.read_whole_has_no_blank read)
  simp only [asInt64, decoded, trimmed, read]

/-- Bytes that are no number, with or without blanks around it, do not decode. -/
theorem as_int64_of_other (key : String) (unpadded : ∀ n, ¬ bytes.IsPaddedWhole n)
    (other : ∀ n, ¬ bytes.IsWhole n) : ∃ why, bytes.asInt64 key = .error (.decode key why) := by
  unfold asInt64
  cases decoded : Text.Utf8.decode bytes with
  | error fault => exact ⟨fault.message, rfl⟩
  | ok s =>
      cases read : Number.readWhole (.signed 64) (Text.trim s.toList) with
      | error fault => exact ⟨fault.message, by simp only [read]⟩
      | ok n =>
          obtain ⟨front, back, split, blank⟩ := Text.trim_splits s.toList
          by_cases nothing : front ++ back = []
          · obtain ⟨rfl, rfl⟩ := List.append_eq_nil_iff.mp nothing
            rw [List.nil_append, List.append_nil] at split
            exact absurd ⟨s, decoded, split ▸ read⟩ (other n)
          · exact absurd ⟨s, front, _, back, decoded, split, nothing, blank, read⟩ (unpadded n)

end Payload

/-! ### Bytes converted by a client -/

namespace Exchange

variable {bytes : Payload} {n : Int}

theorem gotten_of_whole (key : String) (whole : bytes.IsWhole n) :
    gotten key (.ok (.bulk bytes)) .whole = .finished (.ok (.whole n)) [] := by
  obtain ⟨s, decoded, read⟩ := whole
  have number : (Reply.bulk bytes).toWhole (.signed 64) = .ok n := by
    simp only [Reply.toWhole, decoded, Reply.parseWhole, read]
  have converted : convert (Reply.toOption (Reply.toWhole (.signed 64))) (.ok (.bulk bytes)) =
      .ok (some n) := by
    change Except.map some ((Reply.bulk bytes).toWhole (.signed 64)) = _
    rw [number]
    rfl
  simp only [gotten, converted]

theorem gotten_of_other (key : String) (other : ∀ n, ¬ bytes.IsWhole n) :
    ∃ why, gotten key (.ok (.bulk bytes)) .whole =
      .finished (.error (.decode key why)) [] := by
  have mismatched : ∃ description detail, (Reply.bulk bytes).toWhole (.signed 64) =
      .error (.known .typeError description detail) := by
    simp only [Reply.toWhole]
    cases decoded : Text.Utf8.decode bytes with
    | error fault => exact ⟨_, _, rfl⟩
    | ok s =>
        simp only [Reply.parseWhole]
        cases read : Number.readWhole (.signed 64) s.toList with
        | error fault => exact ⟨_, _, rfl⟩
        | ok n => exact absurd ⟨s, decoded, read⟩ (other n)
  obtain ⟨description, detail, mismatched⟩ := mismatched
  have converted : convert (Reply.toOption (Reply.toWhole (.signed 64))) (.ok (.bulk bytes)) =
      .error (.known .typeError description detail) := by
    change Except.map some ((Reply.bulk bytes).toWhole (.signed 64)) = _
    rw [mismatched]
    rfl
  refine ⟨(ClientError.known .typeError description detail).message, ?_⟩
  simp only [gotten, converted, ClientError.isTypeError, if_true]

end Exchange

/-! ### Both kinds -/

/-- Two callers were told one number, or both that the value of the key does not decode. -/
def AgreeOnWhole (key : String) (here there : Progress) : Prop :=
  (∃ n, here = .finished (.ok (.whole n)) ∧ there = .finished (.ok (.whole n))) ∨
    ∃ why why', here = .finished (.error (.decode key why)) ∧
      there = .finished (.error (.decode key why'))

variable {ι κ : Type} [DecidableEq ι] [DecidableEq κ]

theorem EmbeddedCache.told_whole (c : EmbeddedCache ι) (id : ι) {now : Instant} {key : String}
    {e : Entry} (held : c.store.live? now key = some e) :
    (c.start now id (.operate (.get key .whole))).progress =
      .finished ((e.payload.asInt64 key).map .whole) :=
  congrArg Progress.finished (Store.fetch_of_live c.store now held .whole)

theorem NetworkedCache.told_whole (c : NetworkedCache κ) (id : κ) {key : String}
    {reply : Except ClientError Reply} {outcome : Outcome} {events : List Event}
    (gotten : Exchange.gotten key reply .whole = .finished outcome events) :
    NetworkedCache.converse id (c.start id (.operate (.get key .whole))) [reply] =
      ⟨[(.get c.ns key, reply)], .finished outcome⟩ := by
  have resumes : (Exchange.get key .whole).resume c.ns reply = .finished outcome events := gotten
  change NetworkedCache.converse id (c.send id (.get key .whole) .answer []) [reply] = _
  rw [NetworkedCache.converse_after_send, resumes]
  rfl

/-- Both kinds of cache tell a caller the same of bytes that are to be a whole number, unless the
bytes are a number with blanks around it: then the embedded cache gives the number, and the
networked one says that the value does not decode. -/
theorem whole_numbers_agree_iff_unpadded (c : EmbeddedCache ι) (c' : NetworkedCache κ) (id : ι)
    (id' : κ) {now : Instant} {key : String} {e : Entry}
    (held : c.store.live? now key = some e) :
    let here := (c.start now id (.operate (.get key .whole))).progress
    let dialogue := NetworkedCache.converse id' (c'.start id' (.operate (.get key .whole)))
      [.ok (.bulk e.payload)]
    dialogue.rounds = [(.get c'.ns key, .ok (.bulk e.payload))] ∧
      (AgreeOnWhole key here dialogue.progress ↔ ∀ n, ¬ e.payload.IsPaddedWhole n) ∧
      ∀ n, e.payload.IsPaddedWhole n →
        here = .finished (.ok (.whole n)) ∧
          ∃ why, dialogue.progress = .finished (.error (.decode key why)) := by
  intro here dialogue
  have hereTold : here = .finished ((e.payload.asInt64 key).map .whole) := c.told_whole id held
  by_cases whole : ∃ n, e.payload.IsWhole n
  · obtain ⟨n, whole⟩ := whole
    have unpadded : ∀ m, ¬ e.payload.IsPaddedWhole m :=
      fun m padded => Payload.padded_is_not_whole padded n whole
    have there := c'.told_whole id' (Exchange.gotten_of_whole key whole)
    rw [Payload.as_int64_of_whole key whole] at hereTold
    refine ⟨congrArg Dialogue.rounds there, ⟨fun _ => unpadded, fun _ => ?_⟩, ?_⟩
    · exact .inl ⟨n, hereTold, congrArg Dialogue.progress there⟩
    · intro m padded
      exact absurd padded (unpadded m)
  · have other : ∀ n, ¬ e.payload.IsWhole n := fun n number => whole ⟨n, number⟩
    obtain ⟨why', gotten⟩ := Exchange.gotten_of_other key other
    have there := c'.told_whole id' gotten
    have refused : dialogue.progress = .finished (.error (.decode key why')) :=
      congrArg Dialogue.progress there
    have divided : ∀ n, e.payload.IsPaddedWhole n → here = .finished (.ok (.whole n)) := by
      intro n padded
      rw [hereTold, Payload.as_int64_of_padded key padded]
      rfl
    refine ⟨congrArg Dialogue.rounds there, ⟨?_, ?_⟩, ?_⟩
    · rintro (⟨m, _, told⟩ | ⟨why, _, told, _⟩) n padded
      · cases refused.symm.trans told
      · cases (divided n padded).symm.trans told
    · intro unpadded
      obtain ⟨why, undecoded⟩ := Payload.as_int64_of_other key unpadded other
      rw [undecoded] at hereTold
      exact .inr ⟨why, why', hereTold, refused⟩
    · intro n padded
      exact ⟨divided n padded, why', refused⟩

/-- The bytes of `+7` are the number to both kinds. -/
theorem seven_is_agreed :
    let e : Entry := ⟨[0x2B, 0x37], .start, none⟩
    let c : EmbeddedCache Nat := { EmbeddedCache.empty with store.entries := ⟨[("n", e)], by decide⟩ }
    let c' : NetworkedCache Nat := .opened ⟨['a', 'p', 'p']⟩
    c.store.live? .start "n" = some e ∧
      AgreeOnWhole "n" (c.start .start 0 (.operate (.get "n" .whole))).progress
        (NetworkedCache.converse 0 (c'.start 0 (.operate (.get "n" .whole)))
          [.ok (.bulk e.payload)]).progress := by
  intro e c c'
  have held : c.store.live? .start "n" = some e := by rfl
  have whole : e.payload.IsWhole 7 := ⟨"+7", by rfl, by rfl⟩
  obtain ⟨_, agreement, _⟩ := whole_numbers_agree_iff_unpadded c c' 0 0 held
  exact ⟨held, agreement.mpr fun n padded => Payload.padded_is_not_whole padded 7 whole⟩

/-- The bytes of 42 after a blank are the number to one kind, and do not decode to the other. -/
theorem blank_before_number_divides :
    let e : Entry := ⟨[0x20, 0x34, 0x32], .start, none⟩
    let c : EmbeddedCache Nat := { EmbeddedCache.empty with store.entries := ⟨[("n", e)], by decide⟩ }
    let c' : NetworkedCache Nat := .opened ⟨['a', 'p', 'p']⟩
    c.store.live? .start "n" = some e ∧
      ¬AgreeOnWhole "n" (c.start .start 0 (.operate (.get "n" .whole))).progress
        (NetworkedCache.converse 0 (c'.start 0 (.operate (.get "n" .whole)))
          [.ok (.bulk e.payload)]).progress := by
  intro e c c'
  have held : c.store.live? .start "n" = some e := by rfl
  have blank : ∀ char ∈ [' '], Text.isBlank char = true := by
    intro char member
    rw [List.mem_singleton.mp member]
    rfl
  have padded : e.payload.IsPaddedWhole 42 :=
    ⟨" 42", [' '], ['4', '2'], [], by rfl, by rfl, List.cons_ne_nil _ _, blank, by rfl⟩
  have here : (c.start .start 0 (.operate (.get "n" .whole))).progress =
      .finished (.ok (.whole 42)) := by
    rw [c.told_whole 0 held, Payload.as_int64_of_padded "n" padded]
    rfl
  obtain ⟨why, gotten⟩ := Exchange.gotten_of_other "n" (Payload.padded_is_not_whole padded)
  refine ⟨held, ?_⟩
  rw [here, c'.told_whole 0 gotten]
  rintro (⟨n, _, there⟩ | ⟨_, _, there, _⟩)
  · cases there
  · cases there

end ExpiringCache
