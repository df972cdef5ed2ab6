/-!
Whole numbers as text: an optional sign and decimal digits, within a range. A digit is refused as
soon as the number up to it has left the range, and before that if it is not one.
-/

namespace ExpiringCache

-- Bounds are computed with, so powers and sums of numbers are the core library's own, also where
-- a theory of algebra brings others.
attribute [default_instance 20000] instPowNat
attribute [scoped instance (high)] instPowNat Zero.ofOfNat0

end ExpiringCache

namespace ExpiringCache.Number

/-- The values that a field of a fixed width can hold. -/
structure Range where
  low : Int
  high : Int
  deriving DecidableEq

namespace Range

def signed (bits : Nat) : Range := ⟨-(2 ^ (bits - 1)), 2 ^ (bits - 1) - 1⟩

def unsigned (bits : Nat) : Range := ⟨0, 2 ^ bits - 1⟩

def contains (range : Range) (n : Int) : Bool := range.low ≤ n && n ≤ range.high

end Range

inductive WholeFault where
  | empty
  | notADigit
  | tooLarge
  | tooSmall
  deriving DecidableEq

def WholeFault.message : WholeFault → String
  | .empty => "cannot parse integer from empty string"
  | .notADigit => "invalid digit found in string"
  | .tooLarge => "number too large to fit in target type"
  | .tooSmall => "number too small to fit in target type"

def digit? (c : Char) : Option Nat :=
  if '0' ≤ c ∧ c ≤ '9' then some (c.toNat - '0'.toNat) else none

/-- Reads digits after those worth `value`, each one moving it away from zero. -/
def readDigits (range : Range) (negative : Bool) (value : Int) : List Char → Except WholeFault Int
  | [] => .ok value
  | c :: rest =>
    match digit? c with
    | none => .error .notADigit
    | some d =>
      if negative then
        let next := value * 10 - d
        if range.low ≤ next then readDigits range negative next rest else .error .tooSmall
      else
        let next := value * 10 + d
        if next ≤ range.high then readDigits range negative next rest else .error .tooLarge

/-- Reads a number of a range. A minus is a sign only where the range has negative numbers. -/
def readWhole (range : Range) (text : List Char) : Except WholeFault Int :=
  match text with
  | [] => .error .empty
  | ['+'] => .error .notADigit
  | ['-'] => .error .notADigit
  | '+' :: digits => readDigits range false 0 digits
  | '-' :: digits =>
    if range.low < 0 then readDigits range true 0 digits else .error .notADigit
  | digits => readDigits range false 0 digits

end ExpiringCache.Number
