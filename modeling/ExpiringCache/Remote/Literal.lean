/-!
Hosts that are numbers already, so that no name has to be looked up: four decimal parts between
points, or eight hexadecimal parts between colons of which one run of zeros may be left out.
-/

namespace ExpiringCache.Literal

def hexDigit? (c : Char) : Option Nat :=
  if '0' ≤ c ∧ c ≤ '9' then some (c.toNat - '0'.toNat)
  else if 'a' ≤ c ∧ c ≤ 'f' then some (c.toNat - 'a'.toNat + 10)
  else if 'A' ≤ c ∧ c ≤ 'F' then some (c.toNat - 'A'.toNat + 10)
  else none

private def valueOf (base : Nat) (digits : List Char) : Nat :=
  digits.foldl (fun n c => n * base + (hexDigit? c).getD 0) 0

/-- A decimal part of at most 255, without zeros in front, and what follows it. -/
private def decimalPart (cs : List Char) : Option (Nat × List Char) :=
  let digits := cs.takeWhile Char.isDigit
  let n := valueOf 10 digits
  if digits.isEmpty || 3 < digits.length || (1 < digits.length && digits.head? == some '0') ||
      255 < n then none
  else some (n, cs.dropWhile Char.isDigit)

private def nextDecimal : List Char → Option (Nat × List Char)
  | '.' :: rest => decimalPart rest
  | _ => none

def readDotted (cs : List Char) : Option (List Nat × List Char) := do
  let (a, cs) ← decimalPart cs
  let (b, cs) ← nextDecimal cs
  let (c, cs) ← nextDecimal cs
  let (d, cs) ← nextDecimal cs
  return ([a, b, c, d], cs)

/-- A hexadecimal part of at most four digits, and what follows it. -/
private def hexPart (cs : List Char) : Option (Nat × List Char) :=
  let isHex (c : Char) : Bool := (hexDigit? c).isSome
  let digits := cs.takeWhile isHex
  if digits.isEmpty || 4 < digits.length then none
  else some (valueOf 16 digits, cs.dropWhile isHex)

/-- What stands after the colon before a part, if there has to be one. -/
private def afterColon (first : Bool) (cs : List Char) : Option (List Char) :=
  if first then some cs
  else
    match cs with
    | ':' :: rest => some rest
    | _ => none

/-- Reads up to `room` parts between colons. The last two may be a dotted number, which ends
them. -/
private def readParts (first : Bool) (cs : List Char) :
    Nat → List Nat × Bool × List Char
  | 0 => ([], false, cs)
  | room + 1 =>
    let dotted := if room = 0 then none else (afterColon first cs).bind readDotted
    match dotted with
    | some ([a, b, c, d], rest) => ([a * 256 + b, c * 256 + d], true, rest)
    | _ =>
      match (afterColon first cs).bind hexPart with
      | some (part, rest) =>
        let (parts, dotted, rest) := readParts false rest room
        (part :: parts, dotted, rest)
      | none => ([], false, cs)

def readColons? (cs : List Char) : Option (List Nat) :=
  match readParts true cs 8 with
  | (head, dotted, rest) =>
    if head.length = 8 then if rest.isEmpty then some head else none
    else if dotted then none
    else
      match rest with
      | ':' :: ':' :: rest =>
        let (tail, _, rest) := readParts true rest (7 - head.length)
        if rest.isEmpty then
          some (head ++ List.replicate (8 - head.length - tail.length) 0 ++ tail)
        else none
      | _ => none

private def hexText (n : Nat) : String := String.ofList (Nat.toDigits 16 n)

private def joined (parts : List Nat) : String := ":".intercalate (parts.map hexText)

/-- Where the first of the longest runs of zeros starts, and its length. -/
private def longestRun (start : Nat) (current best : Nat × Nat) : List Nat → Nat × Nat
  | [] => best
  | part :: rest =>
    if part = 0 then
      let current := if current.2 = 0 then (start, 1) else (current.1, current.2 + 1)
      longestRun (start + 1) current (if best.2 < current.2 then current else best) rest
    else longestRun (start + 1) (0, 0) best rest

def showColons (parts : List Nat) : String :=
  match parts with
  | [0, 0, 0, 0, 0, 0xFFFF, high, low] =>
    "::ffff:" ++ ".".intercalate
      ([high / 256, high % 256, low / 256, low % 256].map toString)
  | _ =>
    let (start, length) := longestRun 0 (0, 0) (0, 0) parts
    if 1 < length then joined (parts.take start) ++ "::" ++ joined (parts.drop (start + length))
    else joined parts

/-- The plain form of a host that is a number; none for a name. -/
def plain? (host : List Char) : Option String :=
  match readDotted host with
  | some (parts, []) => some (".".intercalate (parts.map toString))
  | _ => (readColons? host).map showColons

end ExpiringCache.Literal
