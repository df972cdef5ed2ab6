import ExpiringCache.Number.Whole
/-!
Double-precision numbers by their bits, and the fewest decimal digits that read back as one.
-/

namespace ExpiringCache.Number

structure Binary64 where
  bits : UInt64
  deriving DecidableEq

namespace Binary64

def isNegative (x : Binary64) : Bool := 2 ^ 63 ≤ x.bits.toNat

def exponentField (x : Binary64) : Nat := x.bits.toNat / 2 ^ 52 % 2 ^ 11

def fractionField (x : Binary64) : Nat := x.bits.toNat % 2 ^ 52

def isFinite (x : Binary64) : Bool := x.exponentField != 2047

def significand (x : Binary64) : Nat :=
  if x.exponentField = 0 then x.fractionField else 2 ^ 52 + x.fractionField

def scale (x : Binary64) : Int := (max x.exponentField 1 : Nat) - 1075

def ofFloat (f : Float) : Binary64 := ⟨f.toBits⟩

end Binary64

/-- A quotient of whole numbers with a positive lower part. -/
structure Ratio where
  num : Nat
  den : Nat

namespace Ratio

def lt (a b : Ratio) : Bool := a.num * b.den < b.num * a.den

def le (a b : Ratio) : Bool := a.num * b.den ≤ b.num * a.den

def binary (n : Nat) (exponent : Int) : Ratio :=
  if 0 ≤ exponent then ⟨n * 2 ^ exponent.toNat, 1⟩ else ⟨n, 2 ^ (-exponent).toNat⟩

def decimal (n : Nat) (exponent : Int) : Ratio :=
  if 0 ≤ exponent then ⟨n * 10 ^ exponent.toNat, 1⟩ else ⟨n, 10 ^ (-exponent).toNat⟩

def distance (a b : Ratio) : Ratio :=
  ⟨max (a.num * b.den) (b.num * a.den) - min (a.num * b.den) (b.num * a.den), a.den * b.den⟩

end Ratio

/-- The numbers that round to a positive double: an interval around it, closed where the
significand is even. -/
structure Basin where
  low : Ratio
  high : Ratio
  closed : Bool

namespace Basin

/-- Below a power of two the neighbour is only half as far away. -/
def of (x : Binary64) : Basin :=
  let m := x.significand
  let below := if x.fractionField = 0 ∧ 1 < x.exponentField then 1 else 2
  ⟨.binary (4 * m - below) (x.scale - 2), .binary (4 * m + 2) (x.scale - 2), m % 2 = 0⟩

def contains (basin : Basin) (r : Ratio) : Bool :=
  if basin.closed then basin.low.le r && r.le basin.high else basin.low.lt r && r.lt basin.high

end Basin

/-- Decimal digits, as a whole number, and the power of ten that goes with them. -/
structure Digits where
  value : Nat
  exponent : Int
  deriving DecidableEq

namespace Digits

def count (d : Digits) : Nat := (toString d.value).length

/-- The place of the decimal point counted from the first digit. -/
def point (d : Digits) : Int := d.count + d.exponent

end Digits

/-- The power of ten at or below a positive ratio, searched downward from 309. -/
private def magnitude (r : Ratio) : Nat → Int
  | 0 => -324
  | n + 1 =>
    let e : Int := (n : Int) - 324
    if (Ratio.decimal 1 e).le r then e else magnitude r n

/-- The point of a decimal grid in the basin, the one nearest to the value if there are two. -/
private def onGrid (value : Ratio) (basin : Basin) (exponent : Int) : Option Digits :=
  let unit := Ratio.decimal 1 exponent
  let lower := (value.num * unit.den) / (value.den * unit.num)
  let below := Ratio.decimal lower exponent
  let above := Ratio.decimal (lower + 1) exponent
  let belowIn := lower != 0 && basin.contains below
  let aboveIn := basin.contains above
  if belowIn && aboveIn then
    let toBelow := value.distance below
    let toAbove := value.distance above
    if toBelow.lt toAbove then some ⟨lower, exponent⟩
    else if toAbove.lt toBelow then some ⟨lower + 1, exponent⟩
    else some ⟨if lower % 2 = 0 then lower else lower + 1, exponent⟩
  else if belowIn then some ⟨lower, exponent⟩
  else if aboveIn then some ⟨lower + 1, exponent⟩
  else none

/-- Tries grids from one digit on, each ten times finer than the one before. -/
private def search (value : Ratio) (basin : Basin) (exponent : Int) : Nat → Digits
  | 0 => ⟨0, 0⟩
  | fuel + 1 =>
    match onGrid value basin exponent with
    | some digits => digits
    | none => search value basin (exponent - 1) fuel

private def strip : Nat → Digits → Digits
  | 0, d => d
  | n + 1, d => if d.value % 10 = 0 then strip n ⟨d.value / 10, d.exponent + 1⟩ else d

/-- The fewest digits that read back as a positive finite double, the nearest to it of those. -/
def shortest (x : Binary64) : Digits :=
  let value := Ratio.binary x.significand x.scale
  strip 20 (search value (Basin.of x) (magnitude value 634) 20)

/-- How a floating-point number is written: which positions of the point are written out, and how
many digits an exponent has at least. -/
structure FloatStyle where
  leastPoint : Int
  greatestPoint : Int
  exponentDigits : Nat

private def zeros (n : Nat) : String := String.ofList (List.replicate n '0')

/-- Digits of a positive number in a style; a whole number keeps `.0`. -/
def FloatStyle.write (style : FloatStyle) (d : Digits) : String :=
  let digits := toString d.value
  let point := d.point
  if 0 ≤ d.exponent ∧ point ≤ style.greatestPoint then digits ++ zeros d.exponent.toNat ++ ".0"
  else if 0 < point ∧ point ≤ style.greatestPoint then
    String.ofList (digits.toList.take point.toNat) ++ "." ++
      String.ofList (digits.toList.drop point.toNat)
  else if style.leastPoint ≤ point ∧ point ≤ 0 then "0." ++ zeros (-point).toNat ++ digits
  else
    let exponent := point - 1
    let text := toString exponent.natAbs
    let fraction := String.ofList (digits.toList.drop 1)
    String.ofList (digits.toList.take 1) ++ (if fraction.isEmpty then "" else "." ++ fraction) ++
      (if exponent < 0 then "e-" else "e+") ++ zeros (style.exponentDigits - text.length) ++ text

def FloatStyle.render (style : FloatStyle) (x : Binary64) : String :=
  (if x.isNegative then "-" else "") ++
    if x.significand = 0 then "0.0" else style.write (shortest x)

end ExpiringCache.Number
