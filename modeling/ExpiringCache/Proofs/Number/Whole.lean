import ExpiringCache.Number.Whole
import ExpiringCache.Text.Blank
/-!
Decimal digits as numbers. Reading looks at one digit after the other and stops where the range is
left. As digits move a number away from zero and never back, a value that ends within the range has
never been outside it.
-/

namespace ExpiringCache.Number

theorem contains_iff (range : Range) (n : Int) :
    range.contains n = true ↔ range.low ≤ n ∧ n ≤ range.high := by
  rw [Range.contains, Bool.and_eq_true]
  exact and_congr (decide_eq_true_iff) (decide_eq_true_iff)

theorem digit_eq_some_iff (c : Char) (d : Nat) :
    digit? c = some d ↔ c.isDigit = true ∧ d = c.toNat - '0'.toNat := by
  have digit : '0' ≤ c ∧ c ≤ '9' ↔ c.isDigit = true := by
    rw [Char.isDigit, Bool.and_eq_true, decide_eq_true_iff, decide_eq_true_iff]
    rfl
  rw [digit?, ← digit]
  split
  · next between =>
    rw [Option.some.injEq, eq_comm]
    exact (and_iff_right between).symm
  · next outside =>
    constructor
    · exact nofun
    · exact fun both => absurd both.1 outside

/-! ### Digits -/

section Digits

def onSide (negative : Bool) (distance : Nat) : Int := if negative then -distance else distance

def Range.Reaches (range : Range) (negative : Bool) (distance : Nat) : Prop :=
  if negative then range.low ≤ -distance else distance ≤ range.high

variable {range : Range} {negative : Bool}

theorem reaches_of_le {near far : Nat} (order : near ≤ far) (reaches : range.Reaches negative far) :
    range.Reaches negative near := by
  cases negative <;> simp only [Range.Reaches, if_true, if_false, Bool.false_eq_true] at * <;> omega

theorem le_of_digit_chars (digits : List Char) (value : Nat) :
    value ≤ Nat.ofDigitChars 10 digits value := by
  induction digits generalizing value with
  | nil => exact Nat.le_refl value
  | cons c rest ih =>
      rw [Nat.ofDigitChars_cons]
      exact Nat.le_trans (by omega) (ih _)

theorem guarded_eq_ok_iff {p : Prop} [Decidable p] (read : Except WholeFault Int)
    (fault : WholeFault) (n : Int) :
    (if p then read else .error fault) = .ok n ↔ p ∧ read = .ok n := by
  split
  · next holds => exact (and_iff_right holds).symm
  · next fails =>
    constructor
    · exact nofun
    · exact fun both => absurd both.1 fails

/-- One more digit is read if it is one and the range goes as far as it leads. -/
theorem read_digits_cons_eq_ok_iff (value : Nat) (c : Char) (rest : List Char) (n : Int) :
    readDigits range negative (onSide negative value) (c :: rest) = .ok n ↔
      c.isDigit = true ∧ range.Reaches negative (10 * value + (c.toNat - '0'.toNat)) ∧
        readDigits range negative (onSide negative (10 * value + (c.toNat - '0'.toNat))) rest =
          .ok n := by
  rw [readDigits]
  cases read : digit? c with
  | none =>
      constructor
      · exact nofun
      · rintro ⟨digit, _⟩
        rw [(digit_eq_some_iff c _).mpr ⟨digit, rfl⟩] at read
        cases read
  | some d =>
      obtain ⟨digit, rfl⟩ := (digit_eq_some_iff c d).mp read
      rw [and_iff_right digit]
      generalize c.toNat - '0'.toNat = d
      cases negative with
      | false =>
          have next : onSide false value * 10 + d = onSide false (10 * value + d) := by
            simp only [onSide, Bool.false_eq_true, if_false]
            omega
          simp only [Bool.false_eq_true, if_false, next]
          exact guarded_eq_ok_iff _ _ n
      | true =>
          have next : onSide true value * 10 - d = onSide true (10 * value + d) := by
            simp only [onSide, if_true]
            omega
          simp only [if_true, next]
          exact guarded_eq_ok_iff _ _ n

theorem read_digits_eq_ok_iff (text : List Char) {value : Nat}
    (reaches : range.Reaches negative value) (n : Int) :
    readDigits range negative (onSide negative value) text = .ok n ↔
      (∀ c ∈ text, c.isDigit = true) ∧ range.Reaches negative (Nat.ofDigitChars 10 text value) ∧
        n = onSide negative (Nat.ofDigitChars 10 text value) := by
  induction text generalizing value with
  | nil =>
      rw [readDigits, Except.ok.injEq, and_iff_right nofun, eq_comm]
      exact (and_iff_right reaches).symm
  | cons c rest ih =>
      rw [read_digits_cons_eq_ok_iff, Nat.ofDigitChars_cons, List.forall_mem_cons, and_assoc]
      refine and_congr_right fun _ => ⟨?_, ?_⟩
      · rintro ⟨next, read⟩
        exact (ih next).mp read
      · intro all
        have next := reaches_of_le (le_of_digit_chars rest _) all.2.1
        exact ⟨next, (ih next).mpr all⟩

theorem read_digits_of_nat (range : Range) (n : Nat) (fits : (n : Int) ≤ range.high) :
    readDigits range false 0 (Nat.toDigits 10 n) = .ok n := by
  have reaches : range.Reaches false 0 := reaches_of_le (Nat.zero_le n) fits
  refine (read_digits_eq_ok_iff _ reaches n).mpr ⟨fun c member => ?_, ?_, ?_⟩
  · exact Nat.isDigit_of_mem_toDigits (by decide) (by decide) member
  · rwa [Nat.ofDigitChars_ten_toDigits]
  · rw [Nat.ofDigitChars_ten_toDigits]
    rfl

end Digits

/-! ### Texts of numbers -/

theorem read_whole_unsigned (range : Range) {c : Char} (noPlus : c ≠ '+') (noMinus : c ≠ '-')
    (rest : List Char) : readWhole range (c :: rest) = readDigits range false 0 (c :: rest) := by
  unfold readWhole
  split
  · next empty => cases empty
  · next plus => exact absurd (List.cons.inj plus).1 noPlus
  · next minus => exact absurd (List.cons.inj minus).1 noMinus
  · next plus => exact absurd (List.cons.inj plus).1 noPlus
  · next minus => exact absurd (List.cons.inj minus).1 noMinus
  · rfl

theorem read_whole_of_nat (range : Range) (n : Nat) (fits : (n : Int) ≤ range.high) :
    readWhole range (toString n).toList = .ok n := by
  have digits : ∀ c ∈ Nat.toDigits 10 n, c.isDigit = true := by
    intro c member
    exact Nat.isDigit_of_mem_toDigits (by decide) (by decide) member
  have read := read_digits_of_nat range n fits
  rw [Nat.toString_eq_ofList_toDigits, String.toList_ofList]
  cases text : Nat.toDigits 10 n with
  | nil => exact absurd text Nat.toDigits_ne_nil
  | cons c rest =>
      rw [text] at digits read
      have digit := digits c List.mem_cons_self
      have notPlus : c ≠ '+' := by
        rintro rfl
        cases digit
      have notMinus : c ≠ '-' := by
        rintro rfl
        cases digit
      rw [read_whole_unsigned range notPlus notMinus]
      exact read

theorem decimal_injective {m n : Nat} (same : toString m = toString n) : m = n := by
  let range : Range := ⟨0, max m n⟩
  have left := read_whole_of_nat range m (Int.le_max_left _ _)
  have right := read_whole_of_nat range n (Int.le_max_right _ _)
  rw [same, right] at left
  exact (Int.ofNat.inj (Except.ok.inj left)).symm

theorem digit_is_no_blank {c : Char} {d : Nat} (digit : digit? c = some d) :
    Text.isBlank c = false := by
  have bounds : 48 ≤ c.toNat ∧ c.toNat ≤ 57 := by
    unfold digit? at digit
    split at digit
    · next between => exact between
    · cases digit
  simp only [Text.isBlank, Bool.or_eq_false_iff, Bool.and_eq_false_iff, decide_eq_false_iff_not,
    beq_eq_false_iff_ne]
  omega

theorem read_digits_has_no_blank {range : Range} {negative : Bool} {value n : Int}
    {text : List Char} (read : readDigits range negative value text = .ok n) :
    ∀ c ∈ text, Text.isBlank c = false := by
  induction text generalizing value with
  | nil =>
      intro c member
      cases member
  | cons first rest ih =>
      rw [readDigits] at read
      cases digit : digit? first with
      | none =>
          rw [digit] at read
          cases read
      | some d =>
          have onwards : ∃ next, readDigits range negative next rest = .ok n := by
            rw [digit] at read
            simp only at read
            split at read <;> split at read <;> first | exact ⟨_, read⟩ | cases read
          obtain ⟨next, read⟩ := onwards
          intro c member
          rcases List.mem_cons.mp member with rfl | later
          · exact digit_is_no_blank digit
          · exact ih read c later

theorem read_whole_has_no_blank {range : Range} {n : Int} {text : List Char}
    (read : readWhole range text = .ok n) : ∀ c ∈ text, Text.isBlank c = false := by
  have signed : ∀ {sign : Char} {rest : List Char}, Text.isBlank sign = false →
      (∀ c ∈ rest, Text.isBlank c = false) → ∀ c ∈ sign :: rest, Text.isBlank c = false :=
    fun sign rest => List.forall_mem_cons.mpr ⟨sign, rest⟩
  unfold readWhole at read
  split at read
  · cases read
  · cases read
  · cases read
  · exact signed (by decide) (read_digits_has_no_blank read)
  · split at read
    · exact signed (by decide) (read_digits_has_no_blank read)
    · cases read
  · exact read_digits_has_no_blank read

end ExpiringCache.Number
