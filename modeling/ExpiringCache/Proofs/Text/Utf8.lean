import ExpiringCache.Text.Utf8
/-!
Text survives its encoding. A character is one to four bytes; the first tells how many follow and
bounds the second, which is why characters of three and four bytes have more than one case.
-/

namespace ExpiringCache.Text.Utf8

theorem to_nat_of_byte {n : Nat} (bound : n < 256) : (UInt8.ofNat n).toNat = n := by
  simp only [UInt8.toNat_ofNat']
  exact Nat.mod_eq_of_lt bound

/-- A byte that goes on with a begun character adds six bits to it. -/
theorem decode_next (good : Nat) (state : Begun) {bits : Nat} (bound : bits < 64)
    (low : state.low ≤ bits + 0x80) (high : bits + 0x80 ≤ state.high) (rest : List UInt8) :
    decodeFrom good (some state) (UInt8.ofNat (bits + 0x80) :: rest) =
      if state.owed ≤ 1 then
        (decodeFrom (good + state.read + 1) none rest).map
          (Char.ofNat (state.number * 64 + bits) :: ·)
      else
        decodeFrom good
          (some ⟨state.number * 64 + bits, state.owed - 1, 0x80, 0xBF, state.read + 1⟩) rest := by
  have byte : (UInt8.ofNat (bits + 0x80)).toNat = bits + 0x80 := to_nat_of_byte (by omega)
  rw [decodeFrom, byte, if_pos ⟨low, high⟩, Nat.add_sub_cancel]
  rfl

theorem lead_of_one {v : Nat} (bound : v ≤ 0x7F) : lead (UInt8.ofNat v) = .whole (Char.ofNat v) := by
  have byte : (UInt8.ofNat v).toNat = v := to_nat_of_byte (by omega)
  unfold lead
  simp only [byte]
  rw [if_pos (by omega)]

theorem lead_of_two {v : Nat} (low : 0x7F < v) (high : v ≤ 0x7FF) :
    lead (UInt8.ofNat (v / 64 % 0x20 + 0xC0)) = .begun ⟨v / 64, 1, 0x80, 0xBF, 1⟩ := by
  have byte : (UInt8.ofNat (v / 64 % 0x20 + 0xC0)).toNat = v / 64 + 0xC0 := by
    rw [to_nat_of_byte (by omega)]
    omega
  unfold lead
  simp only [byte]
  rw [if_neg (by omega), if_pos (by omega), Nat.add_sub_cancel]

theorem lead_of_three {v : Nat} (low : 0x7FF < v) (high : v ≤ 0xFFFF) :
    ∃ least most, lead (UInt8.ofNat (v / 4096 % 0x10 + 0xE0)) =
        .begun ⟨v / 4096, 2, least, most, 1⟩ ∧
      least ≤ v / 64 % 64 + 0x80 ∧
      (v < 0xD800 ∨ 0xDFFF < v → v / 64 % 64 + 0x80 ≤ most) := by
  have byte : (UInt8.ofNat (v / 4096 % 0x10 + 0xE0)).toNat = v / 4096 + 0xE0 := by
    rw [to_nat_of_byte (by omega)]
    omega
  unfold lead
  simp only [byte]
  rw [if_neg (by omega), if_neg (by omega)]
  by_cases least : v / 4096 = 0
  · refine ⟨0xA0, 0xBF, ?_, by omega, by omega⟩
    rw [if_pos (by omega), least]
  · by_cases surrogate : v / 4096 = 0xD
    · refine ⟨0x80, 0x9F, ?_, by omega, by omega⟩
      rw [if_neg (by omega), if_pos (by omega), surrogate]
    · refine ⟨0x80, 0xBF, ?_, by omega, by omega⟩
      rw [if_neg (by omega), if_neg (by omega), if_pos (by omega), Nat.add_sub_cancel]

theorem lead_of_four {v : Nat} (low : 0xFFFF < v) (high : v < 0x110000) :
    ∃ least most, lead (UInt8.ofNat (v / 262144 % 0x08 + 0xF0)) =
        .begun ⟨v / 262144, 3, least, most, 1⟩ ∧
      least ≤ v / 4096 % 64 + 0x80 ∧ v / 4096 % 64 + 0x80 ≤ most := by
  have byte : (UInt8.ofNat (v / 262144 % 0x08 + 0xF0)).toNat = v / 262144 + 0xF0 := by
    rw [to_nat_of_byte (by omega)]
    omega
  unfold lead
  simp only [byte]
  rw [if_neg (by omega), if_neg (by omega), if_neg (by omega), if_neg (by omega),
    if_neg (by omega)]
  by_cases least : v / 262144 = 0
  · refine ⟨0x90, 0xBF, ?_, by omega, by omega⟩
    rw [if_pos (by omega), least]
  · by_cases most : v / 262144 = 4
    · refine ⟨0x80, 0x8F, ?_, by omega, by omega⟩
      rw [if_neg (by omega), if_neg (by omega), if_pos (by omega), most]
    · refine ⟨0x80, 0xBF, ?_, by omega, by omega⟩
      rw [if_neg (by omega), if_pos (by omega), Nat.add_sub_cancel]

/-- The bytes of a character are read as that character, wherever they stand. -/
theorem decode_char (good : Nat) (c : Char) (rest : List UInt8) :
    ∃ later, decodeFrom good none (String.utf8EncodeChar c ++ rest) =
      (decodeFrom later none rest).map (c :: ·) := by
  have valid : c.val.toNat < 0xD800 ∨ 0xDFFF < c.val.toNat ∧ c.val.toNat < 0x110000 := c.valid
  have back : Char.ofNat c.val.toNat = c := Char.ofNat_toNat c
  unfold String.utf8EncodeChar
  simp only
  generalize c.val.toNat = v at valid back
  by_cases one : v ≤ 0x7F
  · refine ⟨good + 1, ?_⟩
    rw [if_pos one, List.singleton_append, decodeFrom, lead_of_one one, back]
    rfl
  by_cases two : v ≤ 0x7FF
  · rw [if_neg one, if_pos two, List.cons_append, List.singleton_append, decodeFrom,
      lead_of_two (by omega) two]
    refine ⟨good + 1 + 1, ?_⟩
    simp only
    rw [decode_next good _ (by omega) (by simp only; omega) (by simp only; omega), if_pos (by simp)]
    have whole : v / 64 * 64 + v % 0x40 = v := by omega
    simp only [whole, back]
  by_cases three : v ≤ 0xFFFF
  · obtain ⟨least, most, led, above, below⟩ := lead_of_three (v := v) (by omega) three
    rw [if_neg one, if_neg two, if_pos three, List.cons_append, List.cons_append,
      List.singleton_append, decodeFrom, led]
    refine ⟨good + 2 + 1, ?_⟩
    simp only
    rw [decode_next good _ (by omega) above (below (by omega)), if_neg (by simp),
      decode_next good _ (by omega) (by simp only; omega) (by simp only; omega), if_pos (by simp)]
    have whole : (v / 4096 * 64 + v / 64 % 0x40) * 64 + v % 0x40 = v := by omega
    simp only [whole, back]
  · obtain ⟨least, most, led, above, below⟩ := lead_of_four (v := v) (by omega) (by omega)
    rw [if_neg one, if_neg two, if_neg three, List.cons_append, List.cons_append,
      List.cons_append, List.singleton_append, decodeFrom, led]
    refine ⟨good + 3 + 1, ?_⟩
    simp only
    rw [decode_next good _ (by omega) above below, if_neg (by simp),
      decode_next good _ (by omega) (by simp only; omega) (by simp only; omega), if_neg (by simp),
      decode_next good _ (by omega) (by simp only; omega) (by simp only; omega), if_pos (by simp)]
    have whole : ((v / 262144 * 64 + v / 4096 % 0x40) * 64 + v / 64 % 0x40) * 64 + v % 0x40 = v := by
      omega
    simp only [whole, back]

theorem decode_chars (cs : List Char) (good : Nat) :
    decodeFrom good none (encodeChars cs) = .ok cs := by
  induction cs generalizing good with
  | nil => rfl
  | cons c rest ih =>
      obtain ⟨later, read⟩ := decode_char good c (encodeChars rest)
      change decodeFrom good none (String.utf8EncodeChar c ++ encodeChars rest) = _
      rw [read, ih]
      rfl

theorem decode_encode (s : String) : decode (encode s) = .ok s := by
  unfold decode encode
  rw [decode_chars]
  exact congrArg Except.ok String.ofList_toList

theorem encode_injective {s t : String} (same : encode s = encode t) : s = t := by
  have read := decode_encode t
  rw [← same, decode_encode] at read
  exact Except.ok.inj read

theorem encode_chars_injective {cs ds : List Char} (same : encodeChars cs = encodeChars ds) :
    cs = ds := by
  have texts : encode (String.ofList cs) = encode (String.ofList ds) := by
    rw [encode, encode, String.toList_ofList, String.toList_ofList]
    exact same
  exact String.ofList_injective (encode_injective texts)

theorem encode_append (s t : String) : encode (s ++ t) = encode s ++ encode t := by
  simp [encode, encodeChars]

end ExpiringCache.Text.Utf8
