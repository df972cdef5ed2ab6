import ExpiringCache.Json.Cursor
/-!
JSON numbers. A number with neither fraction nor exponent is whole while 64 bits hold it; any other
is a double, computed from at most 64 bits of its digits by one multiplication or division with a
power of ten at a time.
-/

namespace ExpiringCache.Json

inductive Numeral where
  | whole (n : Int)
  | real (x : Number.Binary64)

def Numeral.found : Numeral → Found
  | .whole n => .whole n
  | .real x => .real x

/-- The greatest value that the digits of a number are gathered up to. -/
abbrev significandLimit : Nat := 2 ^ 64 - 1

/-- The greatest exponent that is read digit by digit. -/
abbrev exponentLimit : Nat := 2 ^ 31 - 1

def powerOfTen (n : Nat) : Float := Float.ofScientific 1 false n

def withSign (negative : Bool) (f : Float) : Number.Binary64 :=
  .ofFloat (if negative then -f else f)

/-- Scales a double by a power of ten, 308 places at a time on the way down. -/
def scaleDown (f : Float) (places : Nat) : Nat → Float
  | 0 => f
  | fuel + 1 =>
    if places ≤ 308 then f / powerOfTen places
    else if f == 0.0 then f
    else scaleDown (f / powerOfTen 308) (places - 308) fuel

/-- The double for digits and an exponent; `none` where it would be infinite. -/
def realOf (negative : Bool) (significand : Nat) (exponent : Int) : Option Number.Binary64 :=
  let f := Float.ofNat significand
  if 0 ≤ exponent then
    if exponent ≤ 308 then
      let scaled := f * powerOfTen exponent.toNat
      if scaled.isInf then none else some (withSign negative scaled)
    else if significand = 0 then some (withSign negative f)
    else none
  else some (withSign negative (scaleDown f (-exponent).toNat 8))

def finish (negative : Bool) (significand : Nat) (exponent : Int) (c : Cursor) :
    Except Fault (Parsed Numeral) :=
  match realOf negative significand exponent with
  | some x => .ok (.real x, c)
  | none => .error (c.fault .numberOutOfRange)

/-- Digits gathered onto a value while they stay within a limit; what is left starts with a digit
exactly if the limit stopped it. -/
def gather (limit value count : Nat) : List UInt8 → Nat × Nat × List UInt8
  | [] => (value, count, [])
  | b :: rest =>
    if isDigit b && value * 10 + digitValue b ≤ limit then
      gather limit (value * 10 + digitValue b) (count + 1) rest
    else (value, count, b :: rest)

def startsWithDigit (c : Cursor) : Bool :=
  match c.peek with
  | some b => isDigit b
  | none => false

def readExponent (negative : Bool) (significand : Nat) (start : Int) (c : Cursor) :
    Except Fault (Parsed Numeral) :=
  let c := c.advance
  let down := c.peek == some minusByte
  let c := if c.peek == some plusByte || down then c.advance else c
  match c.peek with
  | none => .error (c.fault .endInValue)
  | some b =>
    if !isDigit b then .error (c.advance.fault .badNumber)
    else
      let (exponent, count, rest) := gather exponentLimit 0 0 c.rest
      let c : Cursor := ⟨rest, c.taken + count⟩
      if startsWithDigit c then
        if significand != 0 && !down then .error (c.advance.fault .numberOutOfRange)
        else .ok (.real (withSign negative 0.0), c.skipDigits)
      else
        let total := if down then start - exponent else start + exponent
        finish negative significand total c

def readTail (negative : Bool) (significand : Nat) (exponent : Int) (c : Cursor) :
    Except Fault (Parsed Numeral) :=
  match c.peek with
  | some b =>
    if isExponentMark b then readExponent negative significand exponent c
    else finish negative significand exponent c
  | none => finish negative significand exponent c

/-- Reads a fraction, at its point. Digits beyond 64 bits count for nothing. -/
def readFraction (negative : Bool) (significand : Nat) (exponent : Int) (c : Cursor) :
    Except Fault (Parsed Numeral) :=
  let c := c.advance
  let (significand, count, rest) := gather significandLimit significand 0 c.rest
  let next : Cursor := ⟨rest, c.taken + count⟩
  if startsWithDigit next then readTail negative significand (exponent - count) next.skipDigits
  else if count = 0 then
    .error (next.peekFault (if next.rest.isEmpty then .endInValue else .badNumber))
  else readTail negative significand (exponent - count) next

/-- Ends a number whose whole part has been read within 64 bits. -/
def readAfterWhole (negative : Bool) (significand : Nat) (c : Cursor) :
    Except Fault (Parsed Numeral) :=
  let whole : Except Fault (Parsed Numeral) :=
    if !negative then .ok (.whole significand, c)
    else if significand = 0 ∨ 2 ^ 63 < significand then
      .ok (.real (withSign true (Float.ofNat significand)), c)
    else .ok (.whole (-significand), c)
  match c.peek with
  | some b =>
    if b = pointByte then readFraction negative significand 0 c
    else if isExponentMark b then readExponent negative significand 0 c
    else whole
  | none => whole

/-- Ends a number whose whole part is longer than 64 bits: each digit left out counts as a place. -/
def readLong (negative : Bool) (significand : Nat) (c : Cursor) :
    Except Fault (Parsed Numeral) :=
  let next := c.skipDigits
  let places : Int := next.taken - c.taken
  match next.peek with
  | some b =>
    if b = pointByte then readFraction negative significand places next
    else readTail negative significand places next
  | none => finish negative significand places next

def readNumeral (negative : Bool) (c : Cursor) : Except Fault (Parsed Numeral) :=
  match c.peek with
  | none => .error (c.fault .endInValue)
  | some b =>
    if b = zeroByte then
      if startsWithDigit c.advance then .error (c.advance.peekFault .badNumber)
      else readAfterWhole negative 0 c.advance
    else if isDigit b then
      let (significand, count, rest) := gather significandLimit 0 0 c.rest
      let c : Cursor := ⟨rest, c.taken + count⟩
      if startsWithDigit c then readLong negative significand c
      else readAfterWhole negative significand c
    else .error (c.advance.fault .badNumber)

def readSigned (c : Cursor) : Except Fault (Parsed Numeral) :=
  if c.peek = some minusByte then readNumeral true c.advance else readNumeral false c

end ExpiringCache.Json
