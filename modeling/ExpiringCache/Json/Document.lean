import ExpiringCache.Json.Printer
import ExpiringCache.Text.Utf8
/-!
What a caller can ask to have stored as JSON. Unlike a JSON value it may turn out to have no JSON
text, because a label of a mapping is no text or because it refuses to be written.
-/

namespace ExpiringCache

inductive Label where
  | text (s : String)
  | whole (n : Int)
  | flag (b : Bool)
  | other

inductive Document where
  | json (value : Json)
  | list (items : List Document)
  | mapping (entries : List (Label × Json))
  | refused (reason : String)

inductive EncodeFault where
  | labelNotText
  | refused (reason : String)

namespace EncodeFault

def number? (digits : List Char) : Option Nat :=
  if digits.isEmpty then none
  else some (digits.foldl (fun n c => n * 10 + (c.toNat - '0'.toNat)) 0)

def after (start cs : List Char) : Option (List Char) :=
  if start.isPrefixOf cs then some (cs.drop start.length) else none

/-- A text of the form ` at line L column C`, as the two numbers. -/
def placeOf (cs : List Char) : Option (Nat × Nat) := do
  let rest ← after " at line ".toList cs
  let line ← number? (rest.takeWhile Char.isDigit)
  let rest ← after " column ".toList (rest.dropWhile Char.isDigit)
  let column ← number? (rest.takeWhile Char.isDigit)
  if (rest.dropWhile Char.isDigit).isEmpty && line < 2 ^ 64 && column < 2 ^ 64 then
    some (line, column)
  else none

/-- Splits a text before the last suffix that names a place. -/
def splitPlace (before : List Char) : List Char → Option (List Char × Nat × Nat)
  | [] => none
  | c :: rest =>
    match splitPlace (c :: before) rest with
    | some found => some found
    | none => (placeOf (c :: rest)).map fun place => (before.reverse, place)

/-- A reason that ends in a place has the place put in plain form, and line zero is no place. -/
def plainReason (reason : String) : String :=
  match splitPlace [] reason.toList with
  | none => reason
  | some (text, line, column) =>
    if line = 0 then String.ofList text
    else String.ofList text ++ s!" at line {line} column {column}"

def message : EncodeFault → String
  | .labelNotText => "key must be a string"
  | .refused reason => plainReason reason

end EncodeFault

namespace Label

def text? : Label → Option String
  | .text s => some s
  | .whole n => some (toString n)
  | .flag b => some (if b then "true" else "false")
  | .other => none

end Label

namespace Document

def mappingFields : List (Label × Json) → Except EncodeFault (List (String × Json))
  | [] => .ok []
  | (label, value) :: rest =>
    match label.text? with
    | none => .error .labelNotText
    | some name => do
      let fields ← mappingFields rest
      return (name, value) :: fields

mutual

/-- The JSON value of a document, or the first fault met in writing order. -/
def toJson : Document → Except EncodeFault Json
  | .json value => .ok value
  | .list items => do
    let values ← toJsons items
    return .list values
  | .mapping entries => do
    let fields ← mappingFields entries
    return .object fields
  | .refused reason => .error (.refused reason)

def toJsons : List Document → Except EncodeFault (List Json)
  | [] => .ok []
  | item :: rest => do
    let value ← toJson item
    let values ← toJsons rest
    return value :: values

end

def encode (document : Document) : Except EncodeFault (List UInt8) := do
  let value ← document.toJson
  return Text.Utf8.encodeChars value.print

end Document

end ExpiringCache
