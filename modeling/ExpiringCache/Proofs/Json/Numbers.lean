import ExpiringCache.Proofs.Json.Strings
import ExpiringCache.Proofs.Number.Whole
/-!
Whole JSON numbers read back. Digits are gathered from the left as long as 64 bits hold them, which
they do for every number that a value can have; what follows a number must not go on with it.
-/

namespace ExpiringCache.Json

open Text.Utf8 (encodeChars)

def decimal (n : Nat) : List UInt8 := encodeChars (Nat.toDigits 10 n)

theorem digit_byte {d : Nat} (bound : d < 10) :
    ∃ b, String.utf8EncodeChar (Nat.digitChar d) = [b] ∧ isDigit b = true ∧ digitValue b = d := by
  have all : ∀ d < 10, (String.utf8EncodeChar (Nat.digitChar d)).map
      (fun b => (isDigit b, digitValue b)) = [(true, d)] := by decide
  obtain ⟨b, written, read⟩ := List.map_eq_singleton_iff.mp (all d bound)
  exact ⟨b, written, congrArg Prod.fst read, congrArg Prod.snd read⟩

theorem decimal_of_small {n : Nat} (small : n < 10) :
    decimal n = String.utf8EncodeChar (Nat.digitChar n) := by
  rw [decimal, Nat.toDigits_of_lt_base small]
  exact List.append_nil _

theorem decimal_of_large {n : Nat} (large : ¬n < 10) :
    decimal n = decimal (n / 10) ++ String.utf8EncodeChar (Nat.digitChar (n % 10)) := by
  rw [decimal, Nat.toDigits_of_base_le (by decide) (by omega), encode_append]
  exact congrArg _ (List.append_nil _)

theorem decimal_begins (n : Nat) :
    ∃ b rest, decimal n = b :: rest ∧ isDigit b = true ∧ (b = zeroByte → n = 0) := by
  induction n using Nat.strongRecOn with
  | ind n ih =>
      by_cases small : n < 10
      · obtain ⟨b, written, digit, value⟩ := digit_byte small
        refine ⟨b, [], (decimal_of_small small).trans written, digit, ?_⟩
        rintro rfl
        exact value.symm
      · obtain ⟨b, rest, written, digit, positive⟩ := ih (n / 10) (by omega)
        refine ⟨b, rest ++ String.utf8EncodeChar (Nat.digitChar (n % 10)), ?_, digit, ?_⟩
        · rw [decimal_of_large small, written]
          rfl
        · intro zero
          have none := positive zero
          omega

theorem gather_decimal {limit : Nat} (n : Nat) (fits : n ≤ limit) (rest : List UInt8) :
    gather limit 0 0 (decimal n ++ rest) = gather limit n (decimal n).length rest := by
  induction n using Nat.strongRecOn generalizing rest with
  | ind n ih =>
      by_cases small : n < 10
      · obtain ⟨b, written, digit, value⟩ := digit_byte small
        have within : 0 * 10 + digitValue b ≤ limit := by omega
        rw [decimal_of_small small, written, List.singleton_append, gather,
          if_pos (by simp only [digit, within, decide_true, Bool.and_true]), value, Nat.zero_mul,
          Nat.zero_add]
        rfl
      · obtain ⟨b, written, digit, value⟩ := digit_byte (Nat.mod_lt n (by decide))
        have whole : n / 10 * 10 + digitValue b = n := by omega
        rw [decimal_of_large small, written, List.append_assoc, ih (n / 10) (by omega) (by omega),
          List.singleton_append, gather, whole,
          if_pos (by simp only [digit, fits, decide_true, Bool.and_true]), List.length_append]
        rfl

structure EndsNumber (rest : List UInt8) : Prop where
  noDigit : ∀ b ∈ rest.head?, isDigit b = false
  noPoint : ∀ b ∈ rest.head?, b ≠ pointByte
  noExponent : ∀ b ∈ rest.head?, isExponentMark b = false

theorem ends_number_of_none : EndsNumber [] := ⟨nofun, nofun, nofun⟩

theorem ends_number_of_byte {b : UInt8} (rest : List UInt8)
    (other : b ∈ [commaByte, closeListByte, closeObjectByte]) : EndsNumber (b :: rest) := by
  have all : isDigit b = false ∧ b ≠ pointByte ∧ isExponentMark b = false := by
    simp only [List.mem_cons, List.not_mem_nil, or_false] at other
    rcases other with rfl | rfl | rfl <;> decide
  obtain ⟨noDigit, noPoint, noExponent⟩ := all
  refine ⟨?_, ?_, ?_⟩
  · rintro _ ⟨⟩
    exact noDigit
  · rintro _ ⟨⟩
    exact noPoint
  · rintro _ ⟨⟩
    exact noExponent

namespace EndsNumber

variable {rest : List UInt8}

theorem gather_stops (ends : EndsNumber rest) (limit n count : Nat) :
    gather limit n count rest = (n, count, rest) := by
  cases rest with
  | nil => rfl
  | cons b rest =>
      rw [gather, if_neg]
      simp only [ends.noDigit b rfl, Bool.false_and, Bool.false_eq_true, not_false_iff]

theorem no_digit_ahead (ends : EndsNumber rest) (taken : Nat) :
    startsWithDigit ⟨rest, taken⟩ = false := by
  cases rest with
  | nil => rfl
  | cons b rest => exact ends.noDigit b rfl

theorem after_whole (ends : EndsNumber rest) (n taken : Nat) :
    readAfterWhole false n ⟨rest, taken⟩ = .ok (.whole n, ⟨rest, taken⟩) := by
  cases rest with
  | nil => rfl
  | cons b rest =>
      simp only [readAfterWhole, Cursor.peek, List.head?_cons, ends.noPoint b rfl,
        ends.noExponent b rfl, Bool.false_eq_true, if_false, Bool.not_false, if_true]

theorem after_whole_negative (ends : EndsNumber rest) {n : Nat} (positive : 0 < n)
    (fits : n ≤ 2 ^ 63) (taken : Nat) :
    readAfterWhole true n ⟨rest, taken⟩ = .ok (.whole (-n), ⟨rest, taken⟩) := by
  have within : ¬(n = 0 ∨ 2 ^ 63 < n) := by omega
  cases rest with
  | nil => simp only [readAfterWhole, Cursor.peek, List.head?_nil, Bool.not_true,
      Bool.false_eq_true, if_false, within]
  | cons b rest =>
      simp only [readAfterWhole, Cursor.peek, List.head?_cons, ends.noPoint b rfl,
        ends.noExponent b rfl, Bool.false_eq_true, if_false, Bool.not_true, within]

theorem numeral_of_decimal (ends : EndsNumber rest) (negative : Bool) {n : Nat}
    (fits : n ≤ significandLimit) (taken : Nat) :
    readNumeral negative ⟨decimal n ++ rest, taken⟩ =
      readAfterWhole negative n ⟨rest, taken + (decimal n).length⟩ := by
  obtain ⟨b, digits, written, digit, zero⟩ := decimal_begins n
  have gathered := (gather_decimal n fits rest).trans (ends.gather_stops _ n _)
  by_cases none : n = 0
  · subst none
    have noDigit := ends.no_digit_ahead (taken + 1)
    have text : decimal 0 ++ rest = zeroByte :: rest := rfl
    rw [text, readNumeral]
    simp only [Cursor.peek, Cursor.advance, List.head?_cons, if_true, noDigit, Bool.false_eq_true,
      if_false]
    rfl
  · have notZero : b ≠ zeroByte := mt zero none
    have noDigit := ends.no_digit_ahead (taken + (decimal n).length)
    have first : (decimal n ++ rest).head? = some b := by rw [written]; rfl
    rw [readNumeral]
    simp only [Cursor.peek, first, notZero, if_false, digit, if_true, gathered, noDigit,
      Bool.false_eq_true]

end EndsNumber

/-! ### Numbers with their sign -/

def Fits (n : Int) : Prop := -2 ^ 63 ≤ n ∧ n < 2 ^ 64

theorem encode_whole (n : Int) :
    encodeChars (toString n).toList =
      if n < 0 then minusByte :: decimal n.natAbs else decimal n.natAbs := by
  have digits : ∀ m : Nat, (toString m).toList = Nat.toDigits 10 m := by
    intro m
    rw [Nat.toString_eq_ofList_toDigits, String.toList_ofList]
  cases n with
  | ofNat m =>
      have written : toString (Int.ofNat m) = toString m := rfl
      have noSign : ¬Int.ofNat m < 0 := Int.not_lt.mpr (Int.natCast_nonneg m)
      rw [if_neg noSign, written, digits]
      rfl
  | negSucc m =>
      have written : toString (Int.negSucc m) = "-" ++ toString (m + 1) := rfl
      rw [if_pos (Int.negSucc_lt_zero m), written, String.toList_append, digits, encode_append]
      rfl

/-- A whole number is read back, if what follows does not go on with it. -/
theorem whole_reads {n : Int} (fits : Fits n) {rest : List UInt8} (ends : EndsNumber rest)
    (taken : Nat) :
    readSigned ⟨encodeChars (toString n).toList ++ rest, taken⟩ =
      .ok (.whole n, ⟨rest, taken + (encodeChars (toString n).toList).length⟩) := by
  obtain ⟨low, high⟩ := fits
  have limit : significandLimit = 2 ^ 64 - 1 := rfl
  rw [encode_whole]
  by_cases negative : n < 0
  · have value : -(n.natAbs : Int) = n := by omega
    have read := (ends.numeral_of_decimal true (n := n.natAbs) (by omega) (taken + 1)).trans
      (ends.after_whole_negative (by omega) (by omega) _)
    rw [if_pos negative, List.cons_append, readSigned]
    simp only [Cursor.peek, Cursor.advance, List.head?_cons, if_true, read, value, List.length_cons,
      Nat.add_assoc, Nat.add_comm 1]
  · have value : (n.natAbs : Int) = n := by omega
    have read := (ends.numeral_of_decimal false (n := n.natAbs) (by omega) taken).trans
      (ends.after_whole n.natAbs _)
    obtain ⟨b, digits, written, digit, _⟩ := decimal_begins n.natAbs
    have noMinus : ¬(decimal n.natAbs ++ rest).head? = some minusByte := by
      rw [written]
      rintro ⟨⟩
      cases digit
    rw [if_neg negative, readSigned]
    simp only [Cursor.peek, noMinus, if_false, read, value]

end ExpiringCache.Json
