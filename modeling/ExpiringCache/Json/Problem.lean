import ExpiringCache.Number.Binary64
import ExpiringCache.Text.Quoted
/-!
Why a JSON text is refused, and where. The wording is part of what callers see.
-/

namespace ExpiringCache.Json

/-- How doubles are written in JSON: without an exponent from the fifth decimal place up to sixteen
digits. -/
def floatStyle : Number.FloatStyle := ⟨-4, 16, 2⟩

/-- What stands in a text where something else was expected. -/
inductive Found where
  | null
  | flag (b : Bool)
  | whole (n : Int)
  | real (x : Number.Binary64)
  | text (s : String)
  | list
  | object

def Found.display : Found → String
  | .null => "null"
  | .flag b => if b then "boolean `true`" else "boolean `false`"
  | .whole n => s!"integer `{n}`"
  | .real x => "floating point `" ++ floatStyle.render x ++ "`"
  | .text s => "string " ++ Text.quoted s
  | .list => "sequence"
  | .object => "map"

inductive Problem where
  | endInList
  | endInObject
  | endInString
  | endInValue
  | noColon
  | noListSeparator
  | noObjectSeparator
  | noLiteral
  | noValue
  | noQuote
  | badEscape
  | badNumber
  | numberOutOfRange
  | badText
  | controlCharacter
  | keyNotText
  | keyNotNumber
  | loneSurrogate
  | endOfEscape
  | trailingComma
  | trailingCharacters
  | tooDeep
  | wrongType (found : Found) (expected : String)
  | wrongValue (found : Found) (expected : String)
  | wrongLength (length : Nat) (expected : String)
  | missingField (name : String)
  | duplicateField (name : String)
  | unknownVariant (name : String) (known : List String)

private def ticked (s : String) : String := "`" ++ s ++ "`"

def oneOf : List String → String
  | [] => "there are no variants"
  | [a] => "expected " ++ ticked a
  | [a, b] => "expected " ++ ticked a ++ " or " ++ ticked b
  | names => "expected one of " ++ ", ".intercalate (names.map ticked)

def Problem.message : Problem → String
  | .endInList => "EOF while parsing a list"
  | .endInObject => "EOF while parsing an object"
  | .endInString => "EOF while parsing a string"
  | .endInValue => "EOF while parsing a value"
  | .noColon => "expected `:`"
  | .noListSeparator => "expected `,` or `]`"
  | .noObjectSeparator => "expected `,` or `\x7d`"
  | .noLiteral => "expected ident"
  | .noValue => "expected value"
  | .noQuote => "expected `\"`"
  | .badEscape => "invalid escape"
  | .badNumber => "invalid number"
  | .numberOutOfRange => "number out of range"
  | .badText => "invalid unicode code point"
  | .controlCharacter =>
    "control character (\\u0000-\\u001F) found while parsing a string"
  | .keyNotText => "key must be a string"
  | .keyNotNumber => "invalid value: expected key to be a number in quotes"
  | .loneSurrogate => "lone leading surrogate in hex escape"
  | .endOfEscape => "unexpected end of hex escape"
  | .trailingComma => "trailing comma"
  | .trailingCharacters => "trailing characters"
  | .tooDeep => "recursion limit exceeded"
  | .wrongType found expected => "invalid type: " ++ found.display ++ ", expected " ++ expected
  | .wrongValue found expected => "invalid value: " ++ found.display ++ ", expected " ++ expected
  | .wrongLength length expected => s!"invalid length {length}, expected " ++ expected
  | .missingField name => "missing field " ++ ticked name
  | .duplicateField name => "duplicate field " ++ ticked name
  | .unknownVariant name known => "unknown variant " ++ ticked name ++ ", " ++ oneOf known

structure Fault where
  problem : Problem
  offset : Nat

/-- A place in a text, for people: lines from one, columns in bytes. -/
structure Place where
  line : Nat
  column : Nat
  deriving DecidableEq

def Place.after (bytes : List UInt8) (offset : Nat) : Place :=
  (bytes.take offset).foldl
    (fun place b => if b = 0x0A then ⟨place.line + 1, 0⟩ else ⟨place.line, place.column + 1⟩)
    ⟨1, 0⟩

def Fault.message (fault : Fault) (bytes : List UInt8) : String :=
  let place := Place.after bytes fault.offset
  fault.problem.message ++ s!" at line {place.line} column {place.column}"

end ExpiringCache.Json
