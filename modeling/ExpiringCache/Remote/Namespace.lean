import ExpiringCache.Error
import ExpiringCache.Text.Blank
/-!
The part of a server's keys that belongs to one cache: the keys that start with its name and a
colon.
-/

namespace ExpiringCache

/-- The characters that mean more than themselves in a key pattern and are refused in a name. -/
def isGlobChar (c : Char) : Bool := c == '*' || c == '?' || c == '[' || c == ']'

/-- A name in plain form: without blanks around it and without colons at its end. -/
structure Namespace where
  name : List Char

namespace Namespace

/-- Puts a name into plain form and refuses it if nothing is left or if it would match more than
itself. -/
def parse (text : String) : Except CacheError Namespace :=
  let name := Text.dropBack (· == ':') (Text.trim text.toList)
  if name.isEmpty then .error (.invalidConfig "redis namespace must not be empty")
  else if name.any isGlobChar then
    .error (.invalidConfig
      ("redis namespace '" ++ String.ofList name ++ "' contains glob characters"))
  else .ok ⟨name⟩

def text (ns : Namespace) : String := String.ofList ns.name

def key (ns : Namespace) (k : String) : String := String.ofList (ns.name ++ ':' :: k.toList)

def pattern (ns : Namespace) : String := String.ofList (ns.name ++ [':', '*'])

end Namespace

end ExpiringCache
