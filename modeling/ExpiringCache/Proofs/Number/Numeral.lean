import ExpiringCache.Proofs.Number.Whole
/-!
The texts that are numbers of a range: decimal digits, one sign or none before them, and a value
within the range. Any number of zeros may come first, and a minus only where there are negative
numbers.
-/

namespace ExpiringCache.Number

def IsDigits (text : List Char) : Prop := text ≠ [] ∧ ∀ c ∈ text, c.isDigit = true

def worth (digits : List Char) : Nat := Nat.ofDigitChars 10 digits 0

/-- A text of digits, with one sign or none before them, and the number that it stands for. -/
inductive Numeral : List Char → Int → Prop where
  | unsigned {digits : List Char} : IsDigits digits → Numeral digits (worth digits)
  | plus {digits : List Char} : IsDigits digits → Numeral ('+' :: digits) (worth digits)
  | minus {digits : List Char} : IsDigits digits → Numeral ('-' :: digits) (-worth digits)

/-- A text stands for a number of a range. Before the numbers of a range without negative ones no
minus is written, not even before zero. -/
structure Denotes (range : Range) (text : List Char) (n : Int) : Prop where
  numeral : Numeral text n
  within : range.contains n = true
  minus : text.head? = some '-' → range.low < 0

variable {range : Range} {negative : Bool}

/-! ### Reading -/

theorem IsDigits.of_cons {c : Char} {rest : List Char} (digits : IsDigits (c :: rest)) :
    c ≠ '+' ∧ c ≠ '-' := by
  have digit : c.isDigit = true := digits.2 c List.mem_cons_self
  constructor
  · rintro rfl
    cases digit
  · rintro rfl
    cases digit

theorem Numeral.unique {text : List Char} {m n : Int} (first : Numeral text m)
    (second : Numeral text n) : m = n := by
  cases first with
  | unsigned digits =>
      cases second with
      | unsigned => rfl
      | plus => exact absurd rfl digits.of_cons.1
      | minus => exact absurd rfl digits.of_cons.2
  | plus =>
      cases second with
      | unsigned digits => exact absurd rfl digits.of_cons.1
      | plus => rfl
  | minus =>
      cases second with
      | unsigned digits => exact absurd rfl digits.of_cons.2
      | minus => rfl

section Whole

variable (zero : range.contains 0 = true)
include zero

theorem read_side_eq_ok_iff {digits : List Char} (filled : digits ≠ []) (n : Int) :
    readDigits range negative 0 digits = .ok n ↔
      IsDigits digits ∧ range.contains n = true ∧ n = onSide negative (worth digits) := by
  have bounds := (contains_iff range 0).mp zero
  have here : onSide negative 0 = 0 := by cases negative <;> rfl
  have reaches : range.Reaches negative 0 := by
    cases negative
    · exact bounds.2
    · exact bounds.1
  rw [← here, read_digits_eq_ok_iff digits reaches, IsDigits, and_iff_right filled, contains_iff]
  refine and_congr_right fun _ => and_congr_left ?_
  rintro rfl
  cases negative <;> simp only [Range.Reaches, onSide, if_true, if_false, Bool.false_eq_true] <;>
    omega

theorem read_unsigned_eq_ok_iff {c : Char} (noPlus : c ≠ '+') (noMinus : c ≠ '-')
    (rest : List Char) (n : Int) :
    readWhole range (c :: rest) = .ok n ↔ Denotes range (c :: rest) n := by
  rw [read_whole_unsigned range noPlus noMinus, read_side_eq_ok_iff zero (List.cons_ne_nil c rest)]
  constructor
  · rintro ⟨digits, within, rfl⟩
    exact ⟨.unsigned digits, within, fun first => absurd (Option.some.inj first) noMinus⟩
  · rintro ⟨numeral, within, _⟩
    cases numeral with
    | unsigned digits => exact ⟨digits, within, rfl⟩
    | plus => exact absurd rfl noPlus
    | minus => exact absurd rfl noMinus

theorem read_plus_eq_ok_iff (rest : List Char) (n : Int) :
    readWhole range ('+' :: rest) = .ok n ↔ Denotes range ('+' :: rest) n := by
  cases rest with
  | nil =>
      constructor
      · exact nofun
      · rintro ⟨numeral, _⟩
        cases numeral with
        | unsigned digits => exact absurd rfl digits.of_cons.1
        | plus digits => exact absurd rfl digits.1
  | cons c rest =>
      change readDigits range false 0 (c :: rest) = .ok n ↔ _
      rw [read_side_eq_ok_iff zero (List.cons_ne_nil c rest)]
      constructor
      · rintro ⟨digits, within, rfl⟩
        exact ⟨.plus digits, within, nofun⟩
      · rintro ⟨numeral, within, _⟩
        cases numeral with
        | unsigned digits => exact absurd rfl digits.of_cons.1
        | plus digits => exact ⟨digits, within, rfl⟩

theorem read_minus_eq_ok_iff (rest : List Char) (n : Int) :
    readWhole range ('-' :: rest) = .ok n ↔ Denotes range ('-' :: rest) n := by
  cases rest with
  | nil =>
      constructor
      · exact nofun
      · rintro ⟨numeral, _⟩
        cases numeral with
        | unsigned digits => exact absurd rfl digits.of_cons.2
        | minus digits => exact absurd rfl digits.1
  | cons c rest =>
      change (if range.low < 0 then readDigits range true 0 (c :: rest) else _) = .ok n ↔ _
      rw [guarded_eq_ok_iff, read_side_eq_ok_iff zero (List.cons_ne_nil c rest)]
      constructor
      · rintro ⟨below, digits, within, rfl⟩
        exact ⟨.minus digits, within, fun _ => below⟩
      · rintro ⟨numeral, within, below⟩
        cases numeral with
        | unsigned digits => exact absurd rfl digits.of_cons.2
        | minus digits => exact ⟨below rfl, digits, within, rfl⟩

/-- What is read as a number of a range is exactly what stands for one. -/
theorem read_whole_eq_ok_iff (text : List Char) (n : Int) :
    readWhole range text = .ok n ↔ Denotes range text n := by
  cases text with
  | nil =>
      constructor
      · exact nofun
      · rintro ⟨numeral, _⟩
        cases numeral with
        | unsigned digits => exact absurd rfl digits.1
  | cons c rest =>
      by_cases plus : c = '+'
      · subst plus
        exact read_plus_eq_ok_iff zero rest n
      · by_cases minus : c = '-'
        · subst minus
          exact read_minus_eq_ok_iff zero rest n
        · exact read_unsigned_eq_ok_iff zero plus minus rest n

end Whole

/-! ### Decimal texts -/

theorem decimal_is_digits (n : Nat) : IsDigits (toString n).toList := by
  rw [Nat.toString_eq_ofList_toDigits, String.toList_ofList]
  refine ⟨Nat.toDigits_ne_nil, fun c member => ?_⟩
  exact Nat.isDigit_of_mem_toDigits (by decide) (by decide) member

theorem worth_of_decimal (n : Nat) : worth (toString n).toList = n := by
  rw [Nat.toString_eq_ofList_toDigits, String.toList_ofList]
  exact Nat.ofDigitChars_ten_toDigits

theorem IsDigits.padded {digits : List Char} (isDigits : IsDigits digits) (zeros : Nat) :
    IsDigits (List.replicate zeros '0' ++ digits) ∧
      worth (List.replicate zeros '0' ++ digits) = worth digits := by
  refine ⟨⟨List.append_ne_nil_of_right_ne_nil _ isDigits.1, ?_⟩, ?_⟩
  · intro c member
    rcases List.mem_append.mp member with padding | own
    · rw [List.eq_of_mem_replicate padding]
      rfl
    · exact isDigits.2 c own
  · rw [worth, Nat.ofDigitChars_append, Nat.ofDigitChars_replicate_zero, Nat.mul_zero, worth]

theorem denotes_decimal {n : Int} (within : range.contains n = true) :
    Denotes range (toString n).toList n := by
  cases n with
  | ofNat m =>
      have numeral := Numeral.unsigned (decimal_is_digits m)
      rw [worth_of_decimal] at numeral
      refine ⟨numeral, within, fun first => ?_⟩
      change (toString m).toList.head? = some '-' at first
      obtain ⟨rest, text⟩ := List.head?_eq_some_iff.mp first
      have digits := decimal_is_digits m
      rw [text] at digits
      exact absurd rfl digits.of_cons.2
  | negSucc m =>
      have text : (toString (Int.negSucc m)).toList = '-' :: (toString (m + 1)).toList :=
        String.toList_append
      have numeral := Numeral.minus (decimal_is_digits (m + 1))
      rw [worth_of_decimal] at numeral
      rw [text]
      refine ⟨numeral, within, fun _ => ?_⟩
      have low := ((contains_iff range _).mp within).1
      omega

end ExpiringCache.Number
