import ExpiringCache.Proofs.Text.Utf8
/-!
Bytes that are text. What is read as text is the encoding of what was read, so that bytes are text
in one way only: a character has one encoding, as the bounds on its second byte leave out the
numbers that need fewer bytes and those that are no characters.
-/

namespace ExpiringCache.Text.Utf8

/-! ### Encodings by their bits -/

theorem to_nat_of_char {v : Nat} (valid : v < 0xD800 ∨ 0xDFFF < v ∧ v < 0x110000) :
    (Char.ofNat v).val.toNat = v := by
  have isChar : v.isValidChar := valid
  have char : Char.ofNat v = Char.ofNatAux v isChar := dif_pos isChar
  rw [char]
  rfl

theorem encode_one {v : Nat} (bound : v < 0x80) :
    String.utf8EncodeChar (Char.ofNat v) = [UInt8.ofNat v] := by
  have number := to_nat_of_char (v := v) (by omega)
  unfold String.utf8EncodeChar
  simp only [number]
  rw [if_pos (by omega)]

theorem encode_two {top low : Nat} (least : 2 ≤ top) (most : top < 32) (lowBound : low < 64) :
    String.utf8EncodeChar (Char.ofNat (top * 64 + low)) =
      [UInt8.ofNat (top + 0xC0), UInt8.ofNat (low + 0x80)] := by
  have number := to_nat_of_char (v := top * 64 + low) (by omega)
  have first : (top * 64 + low) / 64 % 0x20 = top := by omega
  have second : (top * 64 + low) % 0x40 = low := by omega
  unfold String.utf8EncodeChar
  simp only [number]
  rw [if_neg (by omega), if_pos (by omega), first, second]

theorem encode_three {top middle low : Nat} (most : top < 16) (middleBound : middle < 64)
    (lowBound : low < 64) (long : top = 0 → 0x20 ≤ middle) (char : top = 0xD → middle < 0x20) :
    String.utf8EncodeChar (Char.ofNat ((top * 64 + middle) * 64 + low)) =
      [UInt8.ofNat (top + 0xE0), UInt8.ofNat (middle + 0x80), UInt8.ofNat (low + 0x80)] := by
  have number := to_nat_of_char (v := (top * 64 + middle) * 64 + low) (by omega)
  have first : ((top * 64 + middle) * 64 + low) / 4096 % 0x10 = top := by omega
  have second : ((top * 64 + middle) * 64 + low) / 64 % 0x40 = middle := by omega
  have third : ((top * 64 + middle) * 64 + low) % 0x40 = low := by omega
  unfold String.utf8EncodeChar
  simp only [number]
  rw [if_neg (by omega), if_neg (by omega), if_pos (by omega), first, second, third]

theorem encode_four {top high middle low : Nat} (most : top ≤ 4) (highBound : high < 64)
    (middleBound : middle < 64) (lowBound : low < 64) (long : top = 0 → 0x10 ≤ high)
    (char : top = 4 → high < 0x10) :
    String.utf8EncodeChar (Char.ofNat (((top * 64 + high) * 64 + middle) * 64 + low)) =
      [UInt8.ofNat (top + 0xF0), UInt8.ofNat (high + 0x80), UInt8.ofNat (middle + 0x80),
        UInt8.ofNat (low + 0x80)] := by
  have number := to_nat_of_char (v := ((top * 64 + high) * 64 + middle) * 64 + low) (by omega)
  have first : (((top * 64 + high) * 64 + middle) * 64 + low) / 262144 % 0x08 = top := by omega
  have second : (((top * 64 + high) * 64 + middle) * 64 + low) / 4096 % 0x40 = high := by omega
  have third : (((top * 64 + high) * 64 + middle) * 64 + low) / 64 % 0x40 = middle := by omega
  have fourth : (((top * 64 + high) * 64 + middle) * 64 + low) % 0x40 = low := by omega
  unfold String.utf8EncodeChar
  simp only [number]
  rw [if_neg (by omega), if_neg (by omega), if_neg (by omega), first, second, third, fourth]

/-! ### Bytes that go on with a character -/

theorem byte_of_to_nat {b : UInt8} {n : Nat} (value : b.toNat = n) : b = UInt8.ofNat n := by
  rw [← value, UInt8.ofNat_toNat]

/-- A begun character goes on with six bits, within the bounds of its next byte. -/
theorem next_of_decode {good : Nat} {state : Begun} {bytes : List UInt8} {cs : List Char}
    (least : 0x80 ≤ state.low) (most : state.high ≤ 0xBF)
    (read : decodeFrom good (some state) bytes = .ok cs) :
    ∃ bits rest, bytes = UInt8.ofNat (bits + 0x80) :: rest ∧ bits < 64 ∧
      state.low ≤ bits + 0x80 ∧ bits + 0x80 ≤ state.high ∧
      decodeFrom good (some state) (UInt8.ofNat (bits + 0x80) :: rest) = .ok cs := by
  cases bytes with
  | nil => cases read
  | cons b rest =>
      by_cases within : state.low ≤ b.toNat ∧ b.toNat ≤ state.high
      · have byte : b = UInt8.ofNat (b.toNat - 0x80 + 0x80) := byte_of_to_nat (by omega)
        refine ⟨b.toNat - 0x80, rest, ?_, by omega, by omega, by omega, ?_⟩
        · rw [← byte]
        · rwa [← byte]
      · rw [decodeFrom, if_neg within] at read
        cases read

theorem rest_of_ok {c : Char} {cs : List Char} {rest : Except Fault (List Char)}
    (read : rest.map (c :: ·) = .ok cs) : ∃ cs', cs = c :: cs' ∧ rest = .ok cs' := by
  cases rest with
  | error fault => cases read
  | ok cs' =>
      cases read
      exact ⟨cs', rfl, rfl⟩

theorem last_of_decode {good : Nat} {state : Begun} {bytes : List UInt8} {cs : List Char}
    (least : 0x80 ≤ state.low) (most : state.high ≤ 0xBF) (owed : state.owed = 1)
    (read : decodeFrom good (some state) bytes = .ok cs) :
    ∃ bits rest later cs', bytes = UInt8.ofNat (bits + 0x80) :: rest ∧ bits < 64 ∧
      cs = Char.ofNat (state.number * 64 + bits) :: cs' ∧ decodeFrom later none rest = .ok cs' := by
  obtain ⟨bits, rest, rfl, bound, low, high, read⟩ := next_of_decode least most read
  rw [decode_next good state bound low high, if_pos (Nat.le_of_eq owed)] at read
  obtain ⟨cs', whole, after⟩ := rest_of_ok read
  exact ⟨bits, rest, _, cs', rfl, bound, whole, after⟩

theorem middle_of_decode {good : Nat} {state : Begun} {bytes : List UInt8} {cs : List Char}
    (least : 0x80 ≤ state.low) (most : state.high ≤ 0xBF) (owed : 1 < state.owed)
    (read : decodeFrom good (some state) bytes = .ok cs) :
    ∃ bits rest, bytes = UInt8.ofNat (bits + 0x80) :: rest ∧ bits < 64 ∧
      state.low ≤ bits + 0x80 ∧ bits + 0x80 ≤ state.high ∧
      decodeFrom good
        (some ⟨state.number * 64 + bits, state.owed - 1, 0x80, 0xBF, state.read + 1⟩) rest =
        .ok cs := by
  obtain ⟨bits, rest, rfl, bound, low, high, read⟩ := next_of_decode least most read
  rw [decode_next good state bound low high, if_neg (Nat.not_le.mpr owed)] at read
  exact ⟨bits, rest, rfl, bound, low, high, read⟩

/-! ### First bytes -/

/-- What a first byte can begin: characters of two, three or four bytes, with its own bits on top
and bounds on the next byte. -/
theorem begun_of_lead {b : UInt8} {state : Begun} (led : lead b = .begun state) :
    0x80 ≤ state.low ∧ state.high ≤ 0xBF ∧
      (state.owed = 1 ∧ b.toNat = state.number + 0xC0 ∧ 2 ≤ state.number ∧ state.number < 32 ∨
        state.owed = 2 ∧ b.toNat = state.number + 0xE0 ∧ state.number < 16 ∧
          (state.number = 0 → 0xA0 ≤ state.low) ∧ (state.number = 0xD → state.high ≤ 0x9F) ∨
        state.owed = 3 ∧ b.toNat = state.number + 0xF0 ∧ state.number ≤ 4 ∧
          (state.number = 0 → 0x90 ≤ state.low) ∧ (state.number = 4 → state.high ≤ 0x8F)) := by
  unfold lead at led
  simp only at led
  split at led
  · exact nomatch led
  split at led
  · obtain rfl := Lead.begun.inj led
    refine ⟨Nat.le_refl _, Nat.le_refl _, .inl ⟨rfl, ?_, ?_, ?_⟩⟩ <;> simp only <;> omega
  split at led
  · next first =>
    obtain rfl := Lead.begun.inj led
    exact ⟨by decide, Nat.le_refl _, .inr (.inl ⟨rfl, first, by decide, by decide, nofun⟩)⟩
  split at led
  · next first =>
    obtain rfl := Lead.begun.inj led
    exact ⟨Nat.le_refl _, by decide, .inr (.inl ⟨rfl, first, by decide, nofun, by decide⟩)⟩
  split at led
  · obtain rfl := Lead.begun.inj led
    refine ⟨Nat.le_refl _, Nat.le_refl _, .inr (.inl ⟨rfl, ?_, ?_, ?_, ?_⟩)⟩ <;> simp only <;> omega
  split at led
  · next first =>
    obtain rfl := Lead.begun.inj led
    exact ⟨by decide, Nat.le_refl _, .inr (.inr ⟨rfl, first, by decide, by decide, nofun⟩)⟩
  split at led
  · obtain rfl := Lead.begun.inj led
    refine ⟨Nat.le_refl _, Nat.le_refl _, .inr (.inr ⟨rfl, ?_, ?_, ?_, ?_⟩)⟩ <;> simp only <;> omega
  split at led
  · next first =>
    obtain rfl := Lead.begun.inj led
    exact ⟨Nat.le_refl _, by decide, .inr (.inr ⟨rfl, first, by decide, nofun, by decide⟩)⟩
  · exact nomatch led

theorem whole_of_lead {b : UInt8} {c : Char} (led : lead b = .whole c) :
    b.toNat < 0x80 ∧ c = Char.ofNat b.toNat := by
  unfold lead at led
  simp only at led
  split at led
  · next bound => exact ⟨bound, (Lead.whole.inj led).symm⟩
  repeat' split at led
  all_goals exact nomatch led

/-! ### Characters -/

/-- What is read next is a character, from the bytes that encode it. -/
theorem char_of_decode {good : Nat} {b : UInt8} {rest : List UInt8} {cs : List Char}
    (read : decodeFrom good none (b :: rest) = .ok cs) :
    ∃ c more later cs', b :: rest = String.utf8EncodeChar c ++ more ∧ cs = c :: cs' ∧
      decodeFrom later none more = .ok cs' := by
  rw [decodeFrom] at read
  cases led : lead b with
  | wrong =>
      rw [led] at read
      cases read
  | whole c =>
      rw [led] at read
      obtain ⟨bound, rfl⟩ := whole_of_lead led
      obtain ⟨cs', whole, after⟩ := rest_of_ok read
      refine ⟨_, rest, _, cs', ?_, whole, after⟩
      rw [encode_one bound, UInt8.ofNat_toNat]
      rfl
  | begun state =>
      rw [led] at read
      simp only at read
      obtain ⟨least, most, ⟨owed, first, bound, bound'⟩ | ⟨owed, first, bound, long, char⟩ |
        ⟨owed, first, bound, long, char⟩⟩ := begun_of_lead led
      · obtain ⟨low, rest, later, cs', rfl, lowBound, rfl, after⟩ :=
          last_of_decode least most owed read
        refine ⟨_, rest, later, cs', ?_, rfl, after⟩
        rw [encode_two bound bound' lowBound, byte_of_to_nat first]
        rfl
      · obtain ⟨middle, rest, rfl, middleBound, above, below, next⟩ :=
          middle_of_decode least most (by omega) read
        obtain ⟨low, rest, later, cs', rfl, lowBound, rfl, after⟩ :=
          last_of_decode (Nat.le_refl _) (Nat.le_refl _) (by simp only; omega) next
        refine ⟨_, rest, later, cs', ?_, rfl, after⟩
        rw [encode_three bound middleBound lowBound (by omega) (by omega), byte_of_to_nat first]
        rfl
      · obtain ⟨high, rest, rfl, highBound, above, below, next⟩ :=
          middle_of_decode least most (by omega) read
        obtain ⟨middle, rest, rfl, middleBound, _, _, next⟩ :=
          middle_of_decode (Nat.le_refl _) (Nat.le_refl _) (by simp only; omega) next
        obtain ⟨low, rest, later, cs', rfl, lowBound, rfl, after⟩ :=
          last_of_decode (Nat.le_refl _) (Nat.le_refl _) (by simp only; omega) next
        refine ⟨_, rest, later, cs', ?_, rfl, after⟩
        rw [encode_four bound highBound middleBound lowBound (by omega) (by omega),
          byte_of_to_nat first]
        rfl

/-- The characters that are read are those that the bytes encode. The induction is on the number of
bytes, as each character takes more than one step of the reading. -/
theorem encode_of_decode_from (count : Nat) {good : Nat} {bytes : List UInt8} {cs : List Char}
    (shorter : bytes.length ≤ count) (read : decodeFrom good none bytes = .ok cs) :
    bytes = encodeChars cs := by
  induction count generalizing good bytes cs with
  | zero =>
      obtain rfl := List.eq_nil_of_length_eq_zero (Nat.le_zero.mp shorter)
      cases read
      rfl
  | succ count ih =>
      cases bytes with
      | nil =>
          cases read
          rfl
      | cons b rest =>
          obtain ⟨c, more, later, cs', split, rfl, after⟩ := char_of_decode read
          have size : 0 < (String.utf8EncodeChar c).length :=
            List.length_pos_iff.mpr String.utf8EncodeChar_ne_nil
          have fewer : more.length ≤ count := by
            rw [split, List.length_append] at shorter
            omega
          rw [split, ih fewer after]
          rfl

/-- Bytes are read as a text if and only if they are its encoding. -/
theorem decode_eq_ok_iff (bytes : List UInt8) (s : String) :
    decode bytes = .ok s ↔ bytes = encode s := by
  constructor
  · intro read
    unfold decode at read
    cases chars : decodeFrom 0 none bytes with
    | error fault =>
        rw [chars] at read
        cases read
    | ok cs =>
        rw [chars] at read
        cases read
        rw [encode, String.toList_ofList]
        exact encode_of_decode_from bytes.length (Nat.le_refl _) chars
  · rintro rfl
    exact decode_encode s

end ExpiringCache.Text.Utf8
