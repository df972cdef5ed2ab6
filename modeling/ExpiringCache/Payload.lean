import ExpiringCache.Error
import ExpiringCache.Json.Document
import ExpiringCache.Json.Shape
import ExpiringCache.Text.Blank
/-!
Values as bytes. Text is stored as it is and everything else as JSON; nothing in the bytes says
which. Reading is the caller's choice, and a reading that does not fit names the key.
-/

namespace ExpiringCache

/-- The bytes of a stored value. -/
abbrev Payload := List UInt8

namespace Payload

def ofText (s : String) : Payload := Text.Utf8.encode s

def ofWhole (n : Int) : Payload := ofText (toString n)

def ofDocument (document : Document) : Except CacheError Payload :=
  match document.encode with
  | .ok bytes => .ok bytes
  | .error fault => .error (.encode fault.message)

def asText (key : String) (bytes : Payload) : Except CacheError String :=
  match Text.Utf8.decode bytes with
  | .ok s => .ok s
  | .error fault => .error (.decode key fault.message)

/-- The bytes as a whole number of 64 bits, blanks around it allowed. -/
def asInt64 (key : String) (bytes : Payload) : Except CacheError Int :=
  match Text.Utf8.decode bytes with
  | .error fault => .error (.decode key fault.message)
  | .ok s =>
    match Number.readWhole (.signed 64) (Text.trim s.toList) with
    | .ok n => .ok n
    | .error fault => .error (.decode key fault.message)

def asJson (shape : Json.Shape) (key : String) (bytes : Payload) : Except CacheError Json :=
  match shape.read bytes with
  | .ok value => .ok value
  | .error fault => .error (.decode key (fault.message bytes))

end Payload

end ExpiringCache
