import ExpiringCache.Json.Printer
import ExpiringCache.Json.Reader
import ExpiringCache.Proofs.Text.Utf8
/-!
JSON strings read back. A character that needs no escape is written as its bytes, of which none is a
quote, a backslash or a control byte; any other as an escape that is read as the same character. So
the bytes up to the closing quote are those of the text.
-/

namespace ExpiringCache.Json

open Text.Utf8 (encodeChars)

theorem encode_cons (c : Char) (cs : List Char) :
    encodeChars (c :: cs) = String.utf8EncodeChar c ++ encodeChars cs := rfl

theorem encode_append (cs ds : List Char) :
    encodeChars (cs ++ ds) = encodeChars cs ++ encodeChars ds := List.flatMap_append

/-! ### Characters that stand for themselves -/

structure Bare (b : UInt8) : Prop where
  notQuote : b ≠ quoteByte
  notBackslash : b ≠ backslashByte
  noControl : ¬b < 0x20

theorem bare_of_high {b : UInt8} (high : 0x80 ≤ b.toNat) : Bare b := by
  refine ⟨?_, ?_, ?_⟩
  · rintro rfl
    exact absurd high (by decide)
  · rintro rfl
    exact absurd high (by decide)
  · intro control
    have low : b.toNat < 0x20 := control
    omega

theorem bytes_are_bare {c : Char} (notQuote : c ≠ '"') (notBackslash : c ≠ '\\')
    (noControl : ¬c.toNat < 0x20) : ∀ b ∈ String.utf8EncodeChar c, Bare b := by
  have valid : c.val.toNat < 0xD800 ∨ 0xDFFF < c.val.toNat ∧ c.val.toNat < 0x110000 := c.valid
  have noControl : ¬c.val.toNat < 0x20 := noControl
  have apart : ∀ {d : Char}, c ≠ d → c.val.toNat ≠ d.val.toNat := by
    intro d differs same
    exact differs (Char.ext (UInt32.toNat_inj.mp same))
  have notQuote : c.val.toNat ≠ 0x22 := apart notQuote
  have notBackslash : c.val.toNat ≠ 0x5C := apart notBackslash
  -- Bytes of a character that has more than one are all high.
  have high : ∀ {n : Nat}, 0x80 ≤ n → n < 0x100 → Bare (UInt8.ofNat n) := by
    intro n low bound
    exact bare_of_high (by rw [Text.Utf8.to_nat_of_byte bound]; exact low)
  unfold String.utf8EncodeChar
  simp only
  generalize c.val.toNat = v at valid noControl notQuote notBackslash
  split
  · next one =>
    intro b member
    cases List.mem_singleton.mp member
    have byte : (UInt8.ofNat v).toNat = v := Text.Utf8.to_nat_of_byte (by omega)
    refine ⟨?_, ?_, ?_⟩
    · intro same
      exact notQuote (byte.symm.trans (congrArg UInt8.toNat same))
    · intro same
      exact notBackslash (byte.symm.trans (congrArg UInt8.toNat same))
    · intro control
      have low : (UInt8.ofNat v).toNat < 0x20 := control
      omega
  · split
    · simp only [List.mem_cons, List.not_mem_nil, or_false, forall_eq_or_imp, forall_eq]
      exact ⟨high (by omega) (by omega), high (by omega) (by omega)⟩
    · split
      · simp only [List.mem_cons, List.not_mem_nil, or_false, forall_eq_or_imp, forall_eq]
        exact ⟨high (by omega) (by omega), high (by omega) (by omega), high (by omega) (by omega)⟩
      · simp only [List.mem_cons, List.not_mem_nil, or_false, forall_eq_or_imp, forall_eq]
        exact ⟨high (by omega) (by omega), high (by omega) (by omega), high (by omega) (by omega),
          high (by omega) (by omega)⟩

theorem string_bytes_of_bare {bytes : List UInt8} (bare : ∀ b ∈ bytes, Bare b) (rest : List UInt8)
    (fuel : Nat) : ∀ (got : List UInt8) (taken : Nat),
    stringBytes got ⟨bytes ++ rest, taken⟩ (bytes.length + fuel) =
      stringBytes (bytes.reverse ++ got) ⟨rest, taken + bytes.length⟩ fuel := by
  induction bytes with
  | nil =>
      intro got taken
      rw [List.nil_append, List.length_nil, Nat.zero_add]
      rfl
  | cons b bytes ih =>
      intro got taken
      have this := bare b List.mem_cons_self
      have later := ih (fun b member => bare b (List.mem_cons_of_mem _ member)) (b :: got)
        (taken + 1)
      have step : stringBytes got ⟨b :: bytes ++ rest, taken⟩ ((b :: bytes).length + fuel) =
          stringBytes (b :: got) ⟨bytes ++ rest, taken + 1⟩ (bytes.length + fuel) := by
        rw [List.length_cons, Nat.add_right_comm, stringBytes]
        simp only [Cursor.peek, Cursor.advance, List.cons_append, List.head?_cons, this.notQuote,
          this.notBackslash, this.noControl, if_false]
      rw [step, later, List.reverse_cons, List.append_assoc, List.singleton_append,
        List.length_cons, Nat.add_assoc, Nat.add_comm 1]

/-! ### Escapes -/

theorem string_bytes_of_escape {mark rest rest' : List UInt8} {taken taken' : Nat} {c : Char}
    (escape : readEscape ⟨mark ++ rest, taken + 1⟩ = .ok (c, ⟨rest', taken'⟩)) (got : List UInt8)
    (fuel : Nat) :
    stringBytes got ⟨backslashByte :: mark ++ rest, taken⟩ (fuel + 1) =
      stringBytes ((String.utf8EncodeChar c).reverse ++ got) ⟨rest', taken'⟩ fuel := by
  have notQuote : backslashByte ≠ quoteByte := by decide
  rw [stringBytes]
  simp only [Cursor.peek, Cursor.advance, List.cons_append, List.head?_cons, notQuote, if_false,
    if_true, escape]
  rfl

theorem short_escape_reads {b : UInt8} {c : Char} (short : shortEscape b = some c)
    (rest : List UInt8) (taken : Nat) :
    readEscape ⟨[b] ++ rest, taken + 1⟩ = .ok (c, ⟨rest, taken + 2⟩) := by
  simp only [readEscape, Cursor.peek, Cursor.advance, List.singleton_append, List.head?_cons, short]

theorem hex_value_of_digit {n : Nat} (bound : n < 16) :
    ∃ b, String.utf8EncodeChar (hexDigit n) = [b] ∧ hexValue b = some n := by
  have all : ∀ n < 16, (String.utf8EncodeChar (hexDigit n)).map hexValue = [some n] := by decide
  obtain ⟨b, written, read⟩ := List.map_eq_singleton_iff.mp (all n bound)
  exact ⟨b, written, read⟩

theorem number_escape_reads {c : Char} (control : c.toNat < 0x20) :
    ∃ mark, encodeChars
        ['\\', 'u', '0', '0', hexDigit (c.toNat / 16), hexDigit (c.toNat % 16)] =
          backslashByte :: mark ∧ mark.length = 5 ∧
      ∀ (rest : List UInt8) (taken : Nat),
        readEscape ⟨mark ++ rest, taken + 1⟩ = .ok (c, ⟨rest, taken + 6⟩) := by
  obtain ⟨high, written, read⟩ := hex_value_of_digit (n := c.toNat / 16) (by omega)
  obtain ⟨low, written', read'⟩ := hex_value_of_digit (n := c.toNat % 16) (by omega)
  refine ⟨[0x75, 0x30, 0x30, high, low], ?_, rfl, ?_⟩
  · rw [encode_cons, encode_cons, encode_cons, encode_cons, encode_cons, encode_cons, written,
      written']
    rfl
  intro rest taken
  have noShort : shortEscape 0x75 = none := by decide
  have zero : hexValue 0x30 = some 0 := by decide
  have number : ((0 * 16 + 0) * 16 + c.toNat / 16) * 16 + c.toNat % 16 = c.toNat := by omega
  have noLow : ¬(0xDC00 ≤ c.toNat ∧ c.toNat ≤ 0xDFFF) := by omega
  have noHigh : ¬(0xD800 ≤ c.toNat ∧ c.toNat ≤ 0xDBFF) := by omega
  have unit : readHex ⟨[0x30, 0x30, high, low] ++ rest, taken + 2⟩ =
      .ok (c.toNat, ⟨rest, taken + 6⟩) := by
    simp only [readHex, List.cons_append, List.nil_append, zero, read, read', number]
  have escape : readEscape ⟨[0x75, 0x30, 0x30, high, low] ++ rest, taken + 1⟩ =
      readNumberEscape ⟨[0x30, 0x30, high, low] ++ rest, taken + 2⟩ := by
    simp only [readEscape, Cursor.peek, Cursor.advance, List.cons_append, List.head?_cons, noShort,
      if_true]
  rw [escape, readNumberEscape, unit]
  change (if _ then _ else _) = _
  rw [if_neg noLow, if_neg noHigh, Char.ofNat_toNat]
  rfl

/-! ### Strings -/

theorem escaped_cases (c : Char) :
    (∃ b, encodeChars (escapedChar c) = [backslashByte, b] ∧ shortEscape b = some c) ∨
      (escapedChar c =
        ['\\', 'u', '0', '0', hexDigit (c.toNat / 16), hexDigit (c.toNat % 16)] ∧
        c.toNat < 0x20) ∨
      (escapedChar c = [c] ∧ c ≠ '"' ∧ c ≠ '\\' ∧ ¬c.toNat < 0x20) := by
  by_cases short : c ∈ ['"', '\\', '\x08', '\x0c', '\n', '\r', '\t']
  · left
    simp only [List.mem_cons, List.not_mem_nil, or_false] at short
    rcases short with rfl | rfl | rfl | rfl | rfl | rfl | rfl
    · exact ⟨0x22, rfl, rfl⟩
    · exact ⟨0x5C, rfl, rfl⟩
    · exact ⟨0x62, rfl, rfl⟩
    · exact ⟨0x66, rfl, rfl⟩
    · exact ⟨0x6E, rfl, rfl⟩
    · exact ⟨0x72, rfl, rfl⟩
    · exact ⟨0x74, rfl, rfl⟩
  · right
    simp only [List.mem_cons, List.not_mem_nil, or_false, not_or] at short
    obtain ⟨quote, backslash, backspace, page, line, start, tab⟩ := short
    simp only [escapedChar, quote, backslash, backspace, page, line, start, tab, if_false]
    by_cases control : c.toNat < 0x20
    · exact .inl ⟨if_pos control, control⟩
    · exact .inr ⟨if_neg control, quote, backslash, control⟩

theorem string_bytes_of_char (c : Char) (got rest : List UInt8) (taken : Nat) {fuel : Nat}
    (enough : (encodeChars (escapedChar c)).length ≤ fuel) :
    ∃ left, fuel ≤ left + (encodeChars (escapedChar c)).length ∧
      stringBytes got ⟨encodeChars (escapedChar c) ++ rest, taken⟩ fuel =
        stringBytes ((String.utf8EncodeChar c).reverse ++ got)
          ⟨rest, taken + (encodeChars (escapedChar c)).length⟩ left := by
  rcases escaped_cases c with ⟨b, written, short⟩ | ⟨written, control⟩ |
    ⟨written, notQuote, notBackslash, noControl⟩
  · rw [written] at enough ⊢
    obtain ⟨left, rfl⟩ := Nat.exists_eq_add_of_le' (Nat.le_trans (by decide : 1 ≤ 2) enough)
    exact ⟨left, Nat.add_le_add_left (by decide : 1 ≤ 2) left,
      string_bytes_of_escape (short_escape_reads short rest taken) got left⟩
  · obtain ⟨mark, bytes, five, read⟩ := number_escape_reads control
    have six : (backslashByte :: mark).length = 6 := congrArg (· + 1) five
    rw [written, bytes, six] at enough ⊢
    obtain ⟨left, rfl⟩ := Nat.exists_eq_add_of_le' (Nat.le_trans (by decide : 1 ≤ 6) enough)
    exact ⟨left, Nat.add_le_add_left (by decide : 1 ≤ 6) left,
      string_bytes_of_escape (read rest taken) got left⟩
  · rw [written] at enough ⊢
    have bytes : encodeChars [c] = String.utf8EncodeChar c := List.append_nil _
    rw [bytes] at enough ⊢
    obtain ⟨left, rfl⟩ := Nat.exists_eq_add_of_le enough
    exact ⟨left, Nat.le_of_eq (Nat.add_comm _ _),
      string_bytes_of_bare (bytes_are_bare notQuote notBackslash noControl) rest left got taken⟩

abbrev inner (cs : List Char) : List UInt8 := encodeChars (cs.flatMap escapedChar)

theorem string_bytes_of_text (cs : List Char) (rest : List UInt8) :
    ∀ (got : List UInt8) (taken : Nat) {fuel : Nat}, (inner cs).length < fuel →
      stringBytes got ⟨inner cs ++ quoteByte :: rest, taken⟩ fuel =
        .ok (got.reverse ++ encodeChars cs, ⟨rest, taken + (inner cs).length + 1⟩) := by
  induction cs with
  | nil =>
      intro got taken fuel enough
      obtain ⟨left, rfl⟩ := Nat.exists_eq_add_of_le' (Nat.succ_le_of_lt enough)
      exact congrArg (fun bytes => Except.ok (bytes, (⟨rest, taken + 1⟩ : Cursor)))
        (List.append_nil got.reverse).symm
  | cons c cs ih =>
      intro got taken fuel enough
      have split : inner (c :: cs) = encodeChars (escapedChar c) ++ inner cs :=
        (congrArg encodeChars List.flatMap_cons).trans (encode_append _ _)
      rw [split, List.length_append] at enough
      obtain ⟨left, spent, step⟩ := string_bytes_of_char c got (inner cs ++ quoteByte :: rest) taken
        (Nat.le_of_lt (Nat.lt_of_le_of_lt (Nat.le_add_right _ _) enough))
      rw [split, List.append_assoc, step, ih _ _ (by omega), List.reverse_append,
        List.reverse_reverse,
        List.append_assoc, encode_cons, List.length_append, Nat.add_assoc taken]

def afterQuote (s : String) : List UInt8 := inner s.toList ++ [quoteByte]

theorem encode_text (s : String) : encodeChars (printText s) = quoteByte :: afterQuote s := by
  rw [printText, List.cons_append, encode_cons, encode_append]
  rfl

theorem text_reads (s : String) (rest : List UInt8) (taken : Nat) :
    readText ⟨afterQuote s ++ rest, taken⟩ = .ok (s, ⟨rest, taken + (afterQuote s).length⟩) := by
  have split : afterQuote s ++ rest = inner s.toList ++ quoteByte :: rest := List.append_assoc _ _ _
  have enough : (inner s.toList).length < (inner s.toList ++ quoteByte :: rest).length + 1 := by
    rw [List.length_append]
    omega
  have length : (afterQuote s).length = (inner s.toList).length + 1 := List.length_append
  have decoded : Text.Utf8.decode (encodeChars s.toList) = .ok s := Text.Utf8.decode_encode s
  rw [split, readText, string_bytes_of_text s.toList rest [] taken enough, length]
  simp only [bind, Except.bind, List.reverse_nil, List.nil_append, decoded]
  rfl

end ExpiringCache.Json
