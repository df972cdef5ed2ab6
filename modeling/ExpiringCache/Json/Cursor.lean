import ExpiringCache.Json.Problem
/-!
Reading JSON from bytes: where the reader stands, and the signs it looks for there. A fault counts
the bytes taken so far, or one more where the sign that was looked at is the wrong one.
-/

namespace ExpiringCache.Json

/-- The bytes still to be read and the number of those taken. -/
structure Cursor where
  rest : List UInt8
  taken : Nat

abbrev Parsed (α : Type) := α × Cursor

abbrev Reader (α : Type) := Cursor → Except Fault (Parsed α)

namespace Cursor

def ofBytes (bytes : List UInt8) : Cursor := ⟨bytes, 0⟩

def fault (c : Cursor) (problem : Problem) : Fault := ⟨problem, c.taken⟩

/-- A fault that counts the byte looked at, if there is one. -/
def peekFault (c : Cursor) (problem : Problem) : Fault :=
  ⟨problem, if c.rest.isEmpty then c.taken else c.taken + 1⟩

def peek (c : Cursor) : Option UInt8 := c.rest.head?

def advance (c : Cursor) : Cursor :=
  match c.rest with
  | [] => c
  | _ :: rest => ⟨rest, c.taken + 1⟩

end Cursor

def isSpace (b : UInt8) : Bool := b == 0x20 || b == 0x0A || b == 0x09 || b == 0x0D

def isDigit (b : UInt8) : Bool := 0x30 ≤ b && b ≤ 0x39

def digitValue (b : UInt8) : Nat := b.toNat - 0x30

namespace Cursor

def skipWhile (p : UInt8 → Bool) (c : Cursor) : Cursor :=
  ⟨c.rest.dropWhile p, c.taken + (c.rest.takeWhile p).length⟩

def skipSpace (c : Cursor) : Cursor := c.skipWhile isSpace

def skipDigits (c : Cursor) : Cursor := c.skipWhile isDigit

end Cursor

def ascii (s : String) : List UInt8 := s.toList.map fun c => c.toNat.toUInt8

abbrev quoteByte : UInt8 := 0x22
abbrev backslashByte : UInt8 := 0x5C
abbrev commaByte : UInt8 := 0x2C
abbrev colonByte : UInt8 := 0x3A
abbrev minusByte : UInt8 := 0x2D
abbrev plusByte : UInt8 := 0x2B
abbrev pointByte : UInt8 := 0x2E
abbrev zeroByte : UInt8 := 0x30
abbrev openListByte : UInt8 := 0x5B
abbrev closeListByte : UInt8 := 0x5D
abbrev openObjectByte : UInt8 := 0x7B
abbrev closeObjectByte : UInt8 := 0x7D

def isExponentMark (b : UInt8) : Bool := b == 0x65 || b == 0x45

def readLiteral (c : Cursor) : List UInt8 → Except Fault Cursor
  | [] => .ok c
  | expected :: others =>
    match c.peek with
    | none => .error (c.fault .endInValue)
    | some b =>
      if b = expected then readLiteral c.advance others
      else .error (c.advance.fault .noLiteral)

end ExpiringCache.Json
