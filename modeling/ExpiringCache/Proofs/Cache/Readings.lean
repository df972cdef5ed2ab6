import ExpiringCache.Operation
import ExpiringCache.Proofs.Json.Shapes
import ExpiringCache.Proofs.Number.Numeral
import ExpiringCache.Proofs.Text.Blank
import ExpiringCache.Proofs.Text.Utf8Texts
/-!
What bytes stand for. Bytes stand for a text if they are its encoding, for a whole number if they
are a text of digits with blanks around it or none, and for a value of a shape if the JSON library
reads it from them. Reading gives what the bytes stand for, and otherwise names the key and says
why.
-/

namespace ExpiringCache

/-! ### What fits -/

namespace Reading

variable {reading : Reading} {payload : Payload}

def words {α ε : Type} (message : ε → String) : Except ε α → String
  | .ok _ => ""
  | .error fault => message fault

/-- Why bytes do not stand for anything, in the words of whatever library has to read them. -/
def wording (payload : Payload) : Reading → String
  | .bytes => ""
  | .text => words Text.Utf8.Fault.message (Text.Utf8.decode payload)
  | .whole =>
    match Text.Utf8.decode payload with
    | .ok s => words Number.WholeFault.message (Number.readWhole (.signed 64) (Text.trim s.toList))
    | .error fault => fault.message
  | .json shape => words (Json.Fault.message · payload) (shape.read payload)

/-- Whether a reading fits, and if it does not, why, has nothing to do with the key. -/
theorem fits_or_not (reading : Reading) (payload : Payload) :
    (∃ value, ∀ key, reading.of key payload = .ok value) ∨
      reading ≠ .bytes ∧
        ∀ key, reading.of key payload = .error (.decode key (reading.wording payload)) := by
  cases reading with
  | bytes => exact .inl ⟨_, fun _ => rfl⟩
  | text =>
      simp only [Reading.of, Payload.asText, wording]
      cases Text.Utf8.decode payload with
      | ok s => exact .inl ⟨_, fun _ => rfl⟩
      | error fault => exact .inr ⟨by simp, fun _ => rfl⟩
  | whole =>
      simp only [Reading.of, Payload.asInt64, wording]
      cases Text.Utf8.decode payload with
      | error fault => exact .inr ⟨by simp, fun _ => rfl⟩
      | ok s =>
          dsimp only
          cases Number.readWhole (.signed 64) (Text.trim s.toList) with
          | ok n => exact .inl ⟨_, fun _ => rfl⟩
          | error fault => exact .inr ⟨by simp, fun _ => rfl⟩
  | json shape =>
      simp only [Reading.of, Payload.asJson, wording]
      cases shape.read payload with
      | ok v => exact .inl ⟨_, fun _ => rfl⟩
      | error fault => exact .inr ⟨by simp, fun _ => rfl⟩

/-- A reading that does not fit the bytes found names the key; bytes fit as they are. -/
theorem error_of_of {key : String} {e : CacheError} (failed : reading.of key payload = .error e) :
    reading ≠ .bytes ∧ ∃ why, e = .decode key why := by
  rcases fits_or_not reading payload with ⟨value, fits⟩ | ⟨other, refused⟩
  · cases (fits key).symm.trans failed
  · cases (refused key).symm.trans failed
    exact ⟨other, _, rfl⟩

end Reading

/-! ### Texts -/

theorem Payload.of_text_eq (s : String) : Payload.ofText s = s.toUTF8.data.toList := by
  rw [String.toUTF8, ← String.utf8Encode_toList, List.utf8Encode, List.data_toByteArray]
  rfl

theorem Payload.as_text_eq_ok_iff (key : String) (bytes : Payload) (s : String) :
    bytes.asText key = .ok s ↔ bytes = s.toUTF8.data.toList := by
  rw [← of_text_eq]
  change _ ↔ bytes = Text.Utf8.encode s
  rw [← Text.Utf8.decode_eq_ok_iff, asText]
  cases Text.Utf8.decode bytes with
  | ok read => simp only [Except.ok.injEq]
  | error fault => exact ⟨nofun, nofun⟩

/-! ### Whole numbers -/

/-- Bytes of a text that is a whole number of 64 bits, with blanks around it or without. -/
def Payload.Holds (bytes : Payload) (n : Int) : Prop :=
  ∃ front numeral back, bytes = Text.Utf8.encodeChars (front ++ numeral ++ back) ∧
    (∀ c ∈ front ++ back, Text.isBlank c = true) ∧ Number.Numeral numeral n ∧
    -9223372036854775808 ≤ n ∧ n ≤ 9223372036854775807

namespace Payload

open Number

theorem denotes_int64_iff (text : List Char) (n : Int) :
    Denotes (.signed 64) text n ↔
      Numeral text n ∧ -9223372036854775808 ≤ n ∧ n ≤ 9223372036854775807 := by
  have low : (Range.signed 64).low = -9223372036854775808 := rfl
  have high : (Range.signed 64).high = 9223372036854775807 := rfl
  constructor
  · rintro ⟨numeral, within, _⟩
    rw [contains_iff, low, high] at within
    exact ⟨numeral, within⟩
  · rintro ⟨numeral, within⟩
    refine ⟨numeral, ?_, fun _ => by decide⟩
    rwa [contains_iff, low, high]

theorem as_int64_eq_ok_iff (key : String) (bytes : Payload) (n : Int) :
    bytes.asInt64 key = .ok n ↔ bytes.Holds n := by
  have zero : (Range.signed 64).contains 0 = true := by decide
  constructor
  · intro read
    unfold asInt64 at read
    cases decoded : Text.Utf8.decode bytes with
    | error fault =>
        rw [decoded] at read
        cases read
    | ok s =>
        rw [decoded] at read
        simp only at read
        cases number : readWhole (.signed 64) (Text.trim s.toList) with
        | error fault =>
            rw [number] at read
            cases read
        | ok m =>
            rw [number] at read
            cases read
            obtain ⟨front, back, split, blank⟩ := Text.trim_splits s.toList
            refine ⟨front, Text.trim s.toList, back, ?_, blank, ?_⟩
            · rw [← split]
              exact (Text.Utf8.decode_eq_ok_iff bytes s).mp decoded
            · exact (denotes_int64_iff _ n).mp ((read_whole_eq_ok_iff zero _ n).mp number)
  · rintro ⟨front, numeral, back, rfl, blank, isNumeral⟩
    have number := (read_whole_eq_ok_iff zero _ n).mpr ((denotes_int64_iff _ n).mpr isNumeral)
    have trimmed : Text.trim (front ++ numeral ++ back) = numeral :=
      Text.trim_of_padding blank (read_whole_has_no_blank number)
    have encoded : Text.Utf8.encodeChars (front ++ numeral ++ back) =
        Text.Utf8.encode (String.ofList (front ++ numeral ++ back)) := by
      rw [Text.Utf8.encode, String.toList_ofList]
    rw [encoded, asInt64, Text.Utf8.decode_encode]
    simp only [String.toList_ofList, trimmed, number]

theorem whole_holds {n : Int} (least : -9223372036854775808 ≤ n)
    (most : n ≤ 9223372036854775807) : (ofWhole n).Holds n := by
  have within : (Range.signed 64).contains n = true := (contains_iff _ n).mpr ⟨least, most⟩
  refine ⟨[], (toString n).toList, [], ?_, nofun, (denotes_int64_iff _ n).mp ?_⟩
  · rw [List.nil_append, List.append_nil]
    rfl
  · exact denotes_decimal within

end Payload

/-! ### Objects -/

/-- What a caller is told that binds a value which was stored under a key. -/
structure Json.Bound (v : Json) (key : String) (outcome : Outcome) : Prop where
  returned : outcome = .ok (.json v) ↔ v.depth ≤ 127
  refused : 127 < v.depth → ∃ why, outcome = .error (.decode key why)

/-- The bytes that are stored for a value are read back, or refused for lying too deep. -/
theorem Json.bound_of_held {shape : Json.Shape} {v : Json} (holds : shape.Holds v) (key : String) :
    v.Bound key (Reading.of (.json shape) key v.bytes) := by
  obtain ⟨reads, refuses⟩ := Json.read_of_held holds
  simp only [Reading.of, Payload.asJson]
  by_cases shallow : v.depth ≤ 127
  · rw [reads (Nat.lt_succ_of_le shallow)]
    exact ⟨⟨fun _ => shallow, fun _ => rfl⟩, fun deep => absurd shallow (Nat.not_le.mpr deep)⟩
  · obtain ⟨offset, refused⟩ := refuses (Nat.lt_of_not_le shallow)
    rw [refused]
    refine ⟨⟨?_, fun fits => absurd fits shallow⟩, fun _ => ⟨_, rfl⟩⟩
    intro returned
    cases returned

/-! ### All readings -/

/-- The bytes stand for a value in the form that was asked for. -/
inductive Reading.Stands : Reading → Payload → Value → Prop where
  | bytes (payload : Payload) : Stands .bytes payload (.bytes payload)
  | text (s : String) : Stands .text s.toUTF8.data.toList (.text s)
  | whole {payload : Payload} {n : Int} (holds : payload.Holds n) :
      Stands .whole payload (.whole n)
  | json {shape : Json.Shape} {payload : Payload} {v : Json} (read : shape.read payload = .ok v) :
      Stands (.json shape) payload (.json v)

namespace Reading

variable {reading : Reading} {payload : Payload}

theorem map_eq_ok_iff {α β ε : Type} {f : α → β} {result : Except ε α} {b : β} :
    result.map f = .ok b ↔ ∃ a, result = .ok a ∧ f a = b := by
  cases result with
  | ok a =>
      constructor
      · exact fun same => ⟨a, rfl, Except.ok.inj same⟩
      · rintro ⟨a, ⟨rfl⟩, rfl⟩
        rfl
  | error e => exact ⟨nofun, nofun⟩

theorem as_json_eq_ok_iff (key : String) (shape : Json.Shape) (v : Json) :
    payload.asJson shape key = .ok v ↔ shape.read payload = .ok v := by
  rw [Payload.asJson]
  cases shape.read payload with
  | ok read => simp only [Except.ok.injEq]
  | error fault => exact ⟨nofun, nofun⟩

theorem of_eq_ok_iff (key : String) (value : Value) :
    reading.of key payload = .ok value ↔ reading.Stands payload value := by
  constructor
  · intro read
    cases reading with
    | bytes =>
        cases read
        exact .bytes payload
    | text =>
        obtain ⟨s, fits, rfl⟩ := map_eq_ok_iff.mp read
        cases (Payload.as_text_eq_ok_iff key payload s).mp fits
        exact .text s
    | whole =>
        obtain ⟨n, fits, rfl⟩ := map_eq_ok_iff.mp read
        exact .whole ((Payload.as_int64_eq_ok_iff key payload n).mp fits)
    | json shape =>
        obtain ⟨v, fits, rfl⟩ := map_eq_ok_iff.mp read
        exact .json ((as_json_eq_ok_iff key shape v).mp fits)
  · intro stands
    cases stands with
    | bytes => rfl
    | text s => exact map_eq_ok_iff.mpr ⟨s, (Payload.as_text_eq_ok_iff key _ s).mpr rfl, rfl⟩
    | @whole _ n holds =>
        exact map_eq_ok_iff.mpr ⟨n, (Payload.as_int64_eq_ok_iff key payload n).mpr holds, rfl⟩
    | @json shape _ v read =>
        exact map_eq_ok_iff.mpr ⟨v, (as_json_eq_ok_iff key shape v).mpr read, rfl⟩

theorem Stands.unique {a b : Value} (first : reading.Stands payload a)
    (second : reading.Stands payload b) : a = b := by
  have one := (of_eq_ok_iff "" a).mpr first
  have two := (of_eq_ok_iff "" b).mpr second
  exact Except.ok.inj (one.symm.trans two)

theorem of_nothing (key : String) (nothing : ∀ value, ¬reading.Stands payload value) :
    reading.of key payload = .error (.decode key (reading.wording payload)) := by
  rcases fits_or_not reading payload with ⟨value, fits⟩ | ⟨_, refused⟩
  · exact absurd ((of_eq_ok_iff key value).mp (fits key)) (nothing value)
  · exact refused key

end Reading

end ExpiringCache
