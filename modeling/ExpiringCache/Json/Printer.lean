import ExpiringCache.Json.Problem
import ExpiringCache.Json.Value
/-!
The compact text of a JSON value: no blanks, fields in the order given, only what must be escaped
escaped.
-/

namespace ExpiringCache.Json

def hexDigit (n : Nat) : Char := (Nat.toDigits 16 n).headD '0'

def escapedChar (c : Char) : List Char :=
  if c = '"' then ['\\', '"']
  else if c = '\\' then ['\\', '\\']
  else if c = '\x08' then ['\\', 'b']
  else if c = '\x0c' then ['\\', 'f']
  else if c = '\n' then ['\\', 'n']
  else if c = '\r' then ['\\', 'r']
  else if c = '\t' then ['\\', 't']
  else if c.toNat < 0x20 then
    ['\\', 'u', '0', '0', hexDigit (c.toNat / 16), hexDigit (c.toNat % 16)]
  else [c]

def printText (s : String) : List Char := '"' :: s.toList.flatMap escapedChar ++ ['"']

/-- A double as JSON; one that is not finite has no number in JSON. -/
def printReal (x : Number.Binary64) : List Char :=
  if x.isFinite then (floatStyle.render x).toList else "null".toList

mutual

def print : Json → List Char
  | .null => "null".toList
  | .flag b => (if b then "true" else "false").toList
  | .whole n => (toString n).toList
  | .real x => printReal x
  | .text s => printText s
  | .list [] => ['[', ']']
  | .list (item :: rest) => '[' :: print item ++ printItems rest
  | .object [] => ['\x7b', '\x7d']
  | .object ((name, value) :: rest) =>
    '\x7b' :: printText name ++ ':' :: print value ++ printFields rest

def printItems : List Json → List Char
  | [] => [']']
  | item :: rest => ',' :: print item ++ printItems rest

def printFields : List (String × Json) → List Char
  | [] => ['\x7d']
  | (name, value) :: rest => ',' :: printText name ++ ':' :: print value ++ printFields rest

end

end ExpiringCache.Json
