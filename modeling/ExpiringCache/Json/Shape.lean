import ExpiringCache.Json.Reader
import ExpiringCache.Number.Whole
/-!
Reading JSON as a value of a given shape. The shape decides what is looked for at each place, and
so which fault is found first and where.
-/

namespace ExpiringCache.Json

inductive Shape where
  | any
  | whole (name : String) (range : Number.Range)
  | real
  | flag
  | text
  | character
  | unit
  | optional (inner : Shape)
  | list (item : Shape)
  | tuple (items : List Shape)
  | mapping (value : Shape)
  | numbered (name : String) (range : Number.Range) (value : Shape)
  | choice (names : List String)
  | record (name : String) (fields : List (String × Shape × Option Json))

abbrev DeepReader := Nat → Reader Json

structure FieldReader where
  name : String
  reader : DeepReader
  fallback : Option Json

def enter {α : Type} (depth : Nat) (c : Cursor) (inside : Nat → Except Fault α) :
    Except Fault α :=
  if depth ≤ 1 then .error (c.peekFault .tooDeep) else inside (depth - 1)

/-- The fault for something else than was expected. A simple value is read to its end first. -/
def mismatch {α : Type} (c : Cursor) (expected : String) : Except Fault α :=
  match c.peek with
  | none => .error (c.peekFault .noValue)
  | some b =>
    if b = 0x6E then do
      let c ← readLiteral c.advance (ascii "ull")
      .error (c.fault (.wrongType .null expected))
    else if b = 0x74 then do
      let c ← readLiteral c.advance (ascii "rue")
      .error (c.fault (.wrongType (.flag true) expected))
    else if b = 0x66 then do
      let c ← readLiteral c.advance (ascii "alse")
      .error (c.fault (.wrongType (.flag false) expected))
    else if b = minusByte ∨ isDigit b then do
      let (n, c) ← readSigned c
      .error (c.fault (.wrongType n.found expected))
    else if b = quoteByte then do
      let (s, c) ← readText c.advance
      .error (c.fault (.wrongType (.text s) expected))
    else if b = openListByte then .error (c.fault (.wrongType .list expected))
    else if b = openObjectByte then .error (c.fault (.wrongType .object expected))
    else .error (c.peekFault .noValue)

def atValue {α : Type} (c : Cursor) (look : UInt8 → Cursor → Except Fault α) :
    Except Fault α :=
  let c := c.skipSpace
  match c.peek with
  | none => .error (c.peekFault .endInValue)
  | some b => look b c

def wholeWithin (name : String) (range : Number.Range) (n : Numeral) (c : Cursor) :
    Except Fault (Parsed Int) :=
  match n with
  | .real x => .error (c.fault (.wrongType (.real x) name))
  | .whole n =>
    if range.contains n then .ok (n, c) else .error (c.fault (.wrongValue (.whole n) name))

def readWholeAs (name : String) (range : Number.Range) (c : Cursor) :
    Except Fault (Parsed Int) :=
  atValue c fun b c =>
    if b = minusByte ∨ isDigit b then do
      let (n, c) ← readSigned c
      wholeWithin name range n c
    else mismatch c name

/-- A numeral as a double, rounded to even where it has to be. -/
def doubleOf : Numeral → Number.Binary64
  | .real x => x
  | .whole n => .ofFloat (if n < 0 then -(Float.ofNat n.natAbs) else Float.ofNat n.natAbs)

def readReal (c : Cursor) : Except Fault (Parsed Json) :=
  atValue c fun b c =>
    if b = minusByte ∨ isDigit b then do
      let (n, c) ← readSigned c
      return (.real (doubleOf n), c)
    else mismatch c "f64"

def readFlag (c : Cursor) : Except Fault (Parsed Json) :=
  atValue c fun b c =>
    if b = 0x74 then do
      let c ← readLiteral c.advance (ascii "rue")
      return (.flag true, c)
    else if b = 0x66 then do
      let c ← readLiteral c.advance (ascii "alse")
      return (.flag false, c)
    else mismatch c "a boolean"

def readString (expected : String) (c : Cursor) : Except Fault (Parsed String) :=
  atValue c fun b c => if b = quoteByte then readText c.advance else mismatch c expected

def readCharacter (c : Cursor) : Except Fault (Parsed Json) := do
  let (s, c) ← readString "a character" c
  if s.length = 1 then return (.text s, c)
  else .error (c.fault (.wrongValue (.text s) "a character"))

def readUnit (c : Cursor) : Except Fault (Parsed Json) :=
  atValue c fun b c =>
    if b = 0x6E then do
      let c ← readLiteral c.advance (ascii "ull")
      return (.null, c)
    else mismatch c "unit"

def readOptional (inner : DeepReader) (depth : Nat) (c : Cursor) :
    Except Fault (Parsed Json) :=
  let c := c.skipSpace
  if c.peek = some 0x6E then do
    let c ← readLiteral c.advance (ascii "ull")
    return (.null, c)
  else inner depth c

def readList (item : DeepReader) (depth : Nat) (c : Cursor) :
    Except Fault (Parsed Json) :=
  atValue c fun b c =>
    if b = openListByte then
      enter depth c fun depth => do
        let (items, c) ← readItems (item depth) c.advance
        return (.list items, c)
    else mismatch c "a sequence"

/-- Where a fault of a whole object is placed: after its end if that is there. -/
def afterObject (c : Cursor) : Nat :=
  match closeObject c with
  | .ok c => c.taken
  | .error _ => c.skipSpace.taken

/-- Reads one item for each place. A list that ends early takes the remaining values from the
fallbacks as long as these have them. -/
def readPlaces (expected : String) (count : Nat) (first : Bool) (depth : Nat) (c : Cursor) :
    List FieldReader → Except Fault (Parsed (List Json))
  | [] => .ok ([], c)
  | field :: fields => do
    match ← nextItem first c with
    | some c =>
      let (head, c) ← field.reader depth c
      let (tail, c) ← readPlaces expected (count + 1) false depth c fields
      return (head :: tail, c)
    | none =>
      match field.fallback with
      | none => .error (c.skipSpace.advance.fault (.wrongLength count expected))
      | some value =>
        let (tail, c) ← readPlaces expected (count + 1) first depth c fields
        return (value :: tail, c)

def readTuple (expected : String) (fields : List FieldReader) (depth : Nat) (c : Cursor) :
    Except Fault (Parsed (List Json)) :=
  enter depth c fun depth => do
    let (items, c) ← readPlaces expected 0 true depth c.advance fields
    let c ← closeList c
    return (items, c)

def readMapping (value : DeepReader) (depth : Nat) (c : Cursor) :
    Except Fault (Parsed Json) :=
  atValue c fun b c =>
    if b = openObjectByte then
      enter depth c fun depth => do
        let (fields, c) ← readEntries (readField (value depth)) c.advance
        return (.ofFields fields, c)
    else mismatch c "a map"

def readNumberKey (name : String) (range : Number.Range) (c : Cursor) :
    Except Fault (Parsed Int) :=
  let c := c.advance
  match c.peek with
  | none => .error (c.fault .keyNotNumber)
  | some b =>
    if b = minusByte ∨ isDigit b then do
      let (n, c) ← readSigned c
      let (n, c) ← wholeWithin name range n c
      if c.peek = some quoteByte then return (n, c.advance) else .error (c.peekFault .noQuote)
    else .error (c.fault .keyNotNumber)

def readNumbered (name : String) (range : Number.Range) (value : DeepReader) (depth : Nat)
    (c : Cursor) : Except Fault (Parsed Json) :=
  atValue c fun b c =>
    if b = openObjectByte then
      enter depth c fun depth => do
        let entry (c : Cursor) : Except Fault (Parsed (String × Json)) := do
          let (n, c) ← readNumberKey name range c
          let c ← readColon c
          let (v, c) ← value depth c
          return ((toString n, v), c)
        let (fields, c) ← readEntries entry c.advance
        return (.ofFields fields, c)
    else mismatch c "a map"

def readName (names : List String) (c : Cursor) : Except Fault (Parsed String) := do
  let (name, c) ← readString "variant identifier" c
  if names.contains name then return (name, c)
  else .error (c.fault (.unknownVariant name names))

/-- Reads one of some names, alone or as the only key of an object with null. -/
def readChoice (names : List String) (depth : Nat) (c : Cursor) :
    Except Fault (Parsed Json) :=
  atValue c fun b c =>
    if b = openObjectByte then
      enter depth c fun _ => do
        let (name, c) ← readName names c.advance
        let c ← readColon c
        let (_, c) ← readUnit c
        let c := c.skipSpace
        match c.peek with
        | none => .error (c.fault .endInObject)
        | some b =>
          if b = closeObjectByte then return (.text name, c.advance)
          else .error (c.fault .noValue)
    else if b = quoteByte then do
      let (name, c) ← readName names c
      return (.text name, c)
    else .error (c.peekFault .noValue)

/-- The fields of an object in the order in which they came, each at most once. -/
def fieldsFrom (fields : List FieldReader) (depth : Nat) (got : List (String × Json))
    (first : Bool) (c : Cursor) : Nat → Except Fault (Parsed (List (String × Json)))
  | 0 => .error (c.fault .endInObject)
  | fuel + 1 => do
    match ← nextKey first c with
    | none => return (got, c.skipSpace)
    | some c =>
      let (name, c) ← readText c.advance
      match fields.find? (·.name == name) with
      | none =>
        let c ← readColon c
        let c ← skipValue c
        fieldsFrom fields depth got false c fuel
      | some field =>
        if got.any (·.1 == name) then .error ⟨.duplicateField name, afterObject c⟩
        else
          let c ← readColon c
          let (value, c) ← field.reader depth c
          fieldsFrom fields depth (got ++ [(name, value)]) false c fuel

def completed (got : List (String × Json)) (c : Cursor) :
    List FieldReader → Except Fault (List (String × Json))
  | [] => .ok []
  | field :: fields => do
    let value ←
      match got.find? (·.1 == field.name), field.fallback with
      | some (_, value), _ => pure value
      | none, some value => pure value
      | none, none => .error ⟨.missingField field.name, afterObject c⟩
    let others ← completed got c fields
    return (field.name, value) :: others

def readRecord (name : String) (fields : List FieldReader) (depth : Nat) (c : Cursor) :
    Except Fault (Parsed Json) :=
  let described := "struct " ++ name
  atValue c fun b c =>
    if b = openObjectByte then
      enter depth c fun depth => do
        let (got, c) ← fieldsFrom fields depth [] true c.advance (c.rest.length + 1)
        let all ← completed got c fields
        let c ← closeObject c
        return (.object all, c)
    else if b = openListByte then do
      let expected := described ++ s!" with {fields.length} elements"
      let (values, c) ← readTuple expected fields depth c
      return (.object ((fields.map (·.name)).zip values), c)
    else mismatch c described

mutual

def Shape.reader : Shape → DeepReader
  | .any => readAny
  | .whole name range => fun _ c => do
    let (n, c) ← readWholeAs name range c
    return (.whole n, c)
  | .real => fun _ => readReal
  | .flag => fun _ => readFlag
  | .text => fun _ c => do
    let (s, c) ← readString "a string" c
    return (.text s, c)
  | .character => fun _ => readCharacter
  | .unit => fun _ => readUnit
  | .optional inner => readOptional inner.reader
  | .list item => readList item.reader
  | .tuple items => fun depth c =>
    atValue c fun b c =>
      let expected := s!"a tuple of size {items.length}"
      if b = openListByte then do
        let (values, c) ← readTuple expected (placeReaders items) depth c
        return (.list values, c)
      else mismatch c expected
  | .mapping value => readMapping value.reader
  | .numbered name range value => readNumbered name range value.reader
  | .choice names => readChoice names
  | .record name fields => readRecord name (fieldReaders fields)

def placeReaders : List Shape → List FieldReader
  | [] => []
  | shape :: shapes => ⟨"", shape.reader, none⟩ :: placeReaders shapes

def fieldReaders : List (String × Shape × Option Json) → List FieldReader
  | [] => []
  | (name, shape, fallback) :: fields => ⟨name, shape.reader, fallback⟩ :: fieldReaders fields

end

def Shape.read (shape : Shape) (bytes : List UInt8) : Except Fault Json :=
  readAll (shape.reader depthLimit) bytes

/-! ### Widths -/

def Shape.i64 : Shape := .whole "i64" (.signed 64)

def Shape.u8 : Shape := .whole "u8" (.unsigned 8)

def Shape.u32 : Shape := .whole "u32" (.unsigned 32)

def Shape.u64 : Shape := .whole "u64" (.unsigned 64)

end ExpiringCache.Json
