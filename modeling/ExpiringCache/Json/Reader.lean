import ExpiringCache.Json.Numeral
import ExpiringCache.Json.Value
import ExpiringCache.Text.Utf8
/-!
Reading JSON values of any form, and passing over values that nobody asked for. Lists and objects
may lie in each other 127 deep; values passed over may lie deeper.
-/

namespace ExpiringCache.Json

/-- How deep the first list or object lies above the deepest one allowed. -/
abbrev depthLimit : Nat := 128

/-! ### Strings -/

def hexValue (b : UInt8) : Option Nat :=
  let n := b.toNat
  if 0x30 ≤ n ∧ n ≤ 0x39 then some (n - 0x30)
  else if 0x61 ≤ n ∧ n ≤ 0x66 then some (n - 0x61 + 10)
  else if 0x41 ≤ n ∧ n ≤ 0x46 then some (n - 0x41 + 10)
  else none

def readHex (c : Cursor) : Except Fault (Parsed Nat) :=
  match c.rest with
  | a :: b :: d :: e :: rest =>
    let after : Cursor := ⟨rest, c.taken + 4⟩
    match hexValue a, hexValue b, hexValue d, hexValue e with
    | some a, some b, some d, some e => .ok (((a * 16 + b) * 16 + d) * 16 + e, after)
    | _, _, _, _ => .error (after.fault .badEscape)
  | short => .error ⟨.endInString, c.taken + short.length⟩

def expectByte (b : UInt8) (c : Cursor) : Except Fault Cursor :=
  match c.peek with
  | none => .error (c.fault .endInString)
  | some found => if found = b then .ok c.advance else .error (c.advance.fault .endOfEscape)

/-- Reads a number escape after its mark: one unit, or the two of a pair. -/
def readNumberEscape (c : Cursor) : Except Fault (Parsed Char) := do
  let (unit, c) ← readHex c
  if 0xDC00 ≤ unit ∧ unit ≤ 0xDFFF then .error (c.fault .loneSurrogate)
  else if 0xD800 ≤ unit ∧ unit ≤ 0xDBFF then
    let c ← expectByte backslashByte c
    let c ← expectByte 0x75 c
    let (low, c) ← readHex c
    if 0xDC00 ≤ low ∧ low ≤ 0xDFFF then
      return (Char.ofNat ((unit - 0xD800) * 0x400 + (low - 0xDC00) + 0x10000), c)
    else .error (c.fault .loneSurrogate)
  else return (Char.ofNat unit, c)

def shortEscape (b : UInt8) : Option Char :=
  if b = 0x22 then some '"'
  else if b = 0x5C then some '\\'
  else if b = 0x2F then some '/'
  else if b = 0x62 then some '\x08'
  else if b = 0x66 then some '\x0c'
  else if b = 0x6E then some '\n'
  else if b = 0x72 then some '\r'
  else if b = 0x74 then some '\t'
  else none

def readEscape (c : Cursor) : Except Fault (Parsed Char) :=
  match c.peek with
  | none => .error (c.fault .endInString)
  | some b =>
    match shortEscape b with
    | some char => .ok (char, c.advance)
    | none =>
      if b = 0x75 then readNumberEscape c.advance else .error (c.advance.fault .badEscape)

/-- The bytes of a string up to its closing quote, in reverse onto `got`. -/
def stringBytes (got : List UInt8) (c : Cursor) : Nat → Except Fault (Parsed (List UInt8))
  | 0 => .error (c.fault .endInString)
  | fuel + 1 =>
    match c.peek with
    | none => .error (c.fault .endInString)
    | some b =>
      if b = quoteByte then .ok (got.reverse, c.advance)
      else if b = backslashByte then do
        let (char, c) ← readEscape c.advance
        stringBytes ((String.utf8EncodeChar char).reverse ++ got) c fuel
      else if b < 0x20 then .error (c.advance.fault .controlCharacter)
      else stringBytes (b :: got) c.advance fuel

/-- The cursor after the byte of a string before which `good` bytes of its text stand. -/
def afterGood (good : Nat) (c : Cursor) : Nat → Cursor
  | 0 => c
  | fuel + 1 =>
    if good = 0 then c.advance
    else if c.peek = some backslashByte then
      match readEscape c.advance with
      | .ok (char, c) => afterGood (good - (String.utf8EncodeChar char).length) c fuel
      | .error _ => c
    else afterGood (good - 1) c.advance fuel

/-- Reads a string after its opening quote. Bytes that are no text are refused at the first wrong
one. -/
def readText (start : Cursor) : Except Fault (Parsed String) := do
  let (bytes, c) ← stringBytes [] start (start.rest.length + 1)
  match Text.Utf8.decode bytes with
  | .ok s => return (s, c)
  | .error fault =>
    .error ((afterGood fault.validBytes start (start.rest.length + 1)).fault .badText)

/-! ### Lists and objects -/

def nextItem (first : Bool) (c : Cursor) : Except Fault (Option Cursor) :=
  let c := c.skipSpace
  match c.peek with
  | none => .error (c.peekFault .endInList)
  | some b =>
    if b = closeListByte then .ok none
    else if b = commaByte ∧ !first then
      let c := c.advance.skipSpace
      match c.peek with
      | none => .error (c.peekFault .endInValue)
      | some b => if b = closeListByte then .error (c.peekFault .trailingComma) else .ok (some c)
    else if first then .ok (some c)
    else .error (c.peekFault .noListSeparator)

def closeList (c : Cursor) : Except Fault Cursor :=
  let c := c.skipSpace
  match c.peek with
  | none => .error (c.peekFault .endInList)
  | some b =>
    if b = closeListByte then .ok c.advance
    else if b = commaByte then
      let c := c.advance.skipSpace
      if c.peek = some closeListByte then .error (c.peekFault .trailingComma)
      else .error (c.peekFault .trailingCharacters)
    else .error (c.peekFault .trailingCharacters)

def nextKey (first : Bool) (c : Cursor) : Except Fault (Option Cursor) :=
  let c := c.skipSpace
  match c.peek with
  | none => .error (c.peekFault .endInObject)
  | some b =>
    if b = closeObjectByte then .ok none
    else if b = commaByte ∧ !first then
      let c := c.advance.skipSpace
      match c.peek with
      | none => .error (c.peekFault .endInValue)
      | some b =>
        if b = quoteByte then .ok (some c)
        else if b = closeObjectByte then .error (c.peekFault .trailingComma)
        else .error (c.peekFault .keyNotText)
    else if first then
      if b = quoteByte then .ok (some c) else .error (c.peekFault .keyNotText)
    else .error (c.peekFault .noObjectSeparator)

def closeObject (c : Cursor) : Except Fault Cursor :=
  let c := c.skipSpace
  match c.peek with
  | none => .error (c.peekFault .endInObject)
  | some b =>
    if b = closeObjectByte then .ok c.advance
    else if b = commaByte then .error (c.peekFault .trailingComma)
    else .error (c.peekFault .trailingCharacters)

def readColon (c : Cursor) : Except Fault Cursor :=
  let c := c.skipSpace
  match c.peek with
  | none => .error (c.peekFault .endInObject)
  | some b => if b = colonByte then .ok c.advance else .error (c.peekFault .noColon)

def itemsFrom {α : Type} (item : Reader α) (first : Bool) (c : Cursor) :
    Nat → Except Fault (Parsed (List α))
  | 0 => .error (c.fault .endInList)
  | fuel + 1 => do
    match ← nextItem first c with
    | none => return ([], c.skipSpace)
    | some c =>
      let (head, c) ← item c
      let (tail, c) ← itemsFrom item false c fuel
      return (head :: tail, c)

def readItems {α : Type} (item : Reader α) (c : Cursor) : Except Fault (Parsed (List α)) := do
  let (items, c) ← itemsFrom item true c (c.rest.length + 1)
  let c ← closeList c
  return (items, c)

def entriesFrom {α : Type} (entry : Reader α) (first : Bool) (c : Cursor) :
    Nat → Except Fault (Parsed (List α))
  | 0 => .error (c.fault .endInObject)
  | fuel + 1 => do
    match ← nextKey first c with
    | none => return ([], c.skipSpace)
    | some c =>
      let (head, c) ← entry c
      let (tail, c) ← entriesFrom entry false c fuel
      return (head :: tail, c)

/-- Reads the entries of an object after its brace, and its end. Each entry starts at a quote. -/
def readEntries {α : Type} (entry : Reader α) (c : Cursor) : Except Fault (Parsed (List α)) := do
  let (entries, c) ← entriesFrom entry true c (c.rest.length + 1)
  let c ← closeObject c
  return (entries, c)

def readField {α : Type} (value : Reader α) (c : Cursor) : Except Fault (Parsed (String × α)) := do
  let (name, c) ← readText c.advance
  let c ← readColon c
  let (v, c) ← value c
  return ((name, v), c)

/-! ### Values -/

/-- Reads a value of any form; `depth` counts how deep its lists and objects may still lie. -/
def readAny (depth : Nat) (c : Cursor) : Except Fault (Parsed Json) :=
  let c := c.skipSpace
  match c.peek with
  | none => .error (c.peekFault .endInValue)
  | some b =>
    if b = 0x6E then do
      let c ← readLiteral c.advance (ascii "ull")
      return (.null, c)
    else if b = 0x74 then do
      let c ← readLiteral c.advance (ascii "rue")
      return (.flag true, c)
    else if b = 0x66 then do
      let c ← readLiteral c.advance (ascii "alse")
      return (.flag false, c)
    else if b = minusByte ∨ isDigit b then do
      let (n, c) ← readSigned c
      match n with
      | .whole n => return (.whole n, c)
      | .real x => return (.real x, c)
    else if b = quoteByte then do
      let (s, c) ← readText c.advance
      return (.text s, c)
    else if b = openListByte then
      match depth with
      | 0 | 1 => .error (c.peekFault .tooDeep)
      | depth + 1 => do
        let (items, c) ← readItems (readAny depth) c.advance
        return (.list items, c)
    else if b = openObjectByte then
      match depth with
      | 0 | 1 => .error (c.peekFault .tooDeep)
      | depth + 1 => do
        let (fields, c) ← readEntries (readField (readAny depth)) c.advance
        return (.ofFields fields, c)
    else .error (c.peekFault .noValue)

/-! ### Passing over values -/

def skipText (c : Cursor) : Nat → Except Fault Cursor
  | 0 => .error (c.fault .endInString)
  | fuel + 1 =>
    match c.peek with
    | none => .error (c.fault .endInString)
    | some b =>
      if b = quoteByte then .ok c.advance
      else if b = backslashByte then
        match c.advance.peek with
        | none => .error (c.advance.fault .endInString)
        | some mark =>
          if (shortEscape mark).isSome then skipText c.advance.advance fuel
          else if mark = 0x75 then do
            let (_, c) ← readHex c.advance.advance
            skipText c fuel
          else .error (c.advance.advance.fault .badEscape)
      else if b < 0x20 then .error (c.fault .controlCharacter)
      else skipText c.advance fuel

def skipExponent (c : Cursor) : Except Fault Cursor :=
  let c := c.advance
  let c := if c.peek = some plusByte ∨ c.peek = some minusByte then c.advance else c
  match c.peek with
  | none => .error (c.fault .badNumber)
  | some b => if isDigit b then .ok c.skipDigits else .error (c.advance.fault .badNumber)

def skipNumberTail (c : Cursor) : Except Fault Cursor :=
  match c.peek with
  | none => .ok c
  | some b => if isExponentMark b then skipExponent c else .ok c

def skipFraction (c : Cursor) : Except Fault Cursor :=
  let digits := c.advance.skipDigits
  if digits.taken = c.advance.taken then .error (digits.peekFault .badNumber)
  else skipNumberTail digits

def skipNumber (c : Cursor) : Except Fault Cursor :=
  match c.peek with
  | none => .error (c.fault .badNumber)
  | some b =>
    if !isDigit b then .error (c.advance.fault .badNumber)
    else
      let next := if b = zeroByte then c.advance else c.skipDigits
      match next.peek with
      | none => .ok next
      | some d =>
        if isDigit d then .error (next.peekFault .badNumber)
        else if d = pointByte then skipFraction next
        else skipNumberTail next

inductive Enclosing where
  | list
  | object
  deriving DecidableEq

def skipKey (c : Cursor) : Except Fault Cursor :=
  let c := c.skipSpace
  match c.peek with
  | none => .error (c.peekFault .endInObject)
  | some b =>
    if b ≠ quoteByte then .error (c.peekFault .keyNotText)
    else do
      let c ← skipText c.advance (c.rest.length + 1)
      readColon c

/-- Goes on after a value, or after an opening bracket if `opened`, to the place where the next
value starts. The answer is where that is and what it lies in, innermost first; nothing is left to
lie in when the outermost value is over. -/
def skipToNext (opened : Bool) (c : Cursor) :
    List Enclosing → Except Fault (Cursor × List Enclosing)
  | [] => .ok (c, [])
  | inner :: outer => do
    let c := c.skipSpace
    match c.peek with
    | none => .error (c.peekFault (if inner = .list then .endInList else .endInObject))
    | some b =>
      if b = commaByte ∧ !opened then
        let c ← if inner = .object then skipKey c.advance else pure c.advance
        return (c, inner :: outer)
      else if (b = closeListByte ∧ inner = .list) ∨ (b = closeObjectByte ∧ inner = .object) then
        skipToNext false c.advance outer
      else if opened then
        let c ← if inner = .object then skipKey c else pure c
        return (c, inner :: outer)
      else .error (c.peekFault (if inner = .list then .noListSeparator else .noObjectSeparator))

def skipSimple (b : UInt8) (c : Cursor) : Except Fault Cursor :=
  if b = 0x6E then readLiteral c.advance (ascii "ull")
  else if b = 0x74 then readLiteral c.advance (ascii "rue")
  else if b = 0x66 then readLiteral c.advance (ascii "alse")
  else if b = minusByte then skipNumber c.advance
  else if isDigit b then skipNumber c
  else if b = quoteByte then skipText c.advance (c.rest.length + 1)
  else .error (c.peekFault .noValue)

def skipValues (enclosing : List Enclosing) (c : Cursor) : Nat → Except Fault Cursor
  | 0 => .error (c.fault .endInValue)
  | fuel + 1 => do
    let c := c.skipSpace
    match c.peek with
    | none => .error (c.peekFault .endInValue)
    | some b =>
      let (c, enclosing) ←
        if b = openListByte then skipToNext true c.advance (.list :: enclosing)
        else if b = openObjectByte then skipToNext true c.advance (.object :: enclosing)
        else do
          let c ← skipSimple b c
          skipToNext false c enclosing
      if enclosing.isEmpty then return c else skipValues enclosing c fuel

def skipValue (c : Cursor) : Except Fault Cursor := skipValues [] c (c.rest.length + 1)

/-! ### Whole texts -/

/-- Reads all bytes as one value, blanks around it allowed. -/
def readAll {α : Type} (reader : Reader α) (bytes : List UInt8) : Except Fault α := do
  let (value, c) ← reader (.ofBytes bytes)
  let c := c.skipSpace
  if c.rest.isEmpty then return value else .error (c.peekFault .trailingCharacters)

end ExpiringCache.Json
