import ExpiringCache.Payload
import ExpiringCache.Remote.Namespace
import ExpiringCache.Time
/-!
Commands of the networked cache, as the lists of words that go to the server.
-/

namespace ExpiringCache

abbrev Command := List (List UInt8)

namespace Command

def word (s : String) : List UInt8 := Text.Utf8.encode s

def ofWords (words : List String) : Command := words.map word

/-- The longest time to live that a server can add to its clock, in milliseconds. -/
def longestMillis : Nat := (2 ^ 63 - 1) / 2

/-- The milliseconds to send for a time to live: at least one, and none for no expiry or for a time
too long for the server. -/
def expiryMillis (ttl : Duration) : Option Nat :=
  if ttl.isZero then none
  else
    let millis := max ttl.wholeMillis 1
    if millis ≤ longestMillis then some millis else none

/-- Stores a payload, on condition that there is none if `onlyIfAbsent`. -/
def set (ns : Namespace) (key : String) (payload : Payload) (ttl : Duration)
    (onlyIfAbsent : Bool) : Command :=
  [word "SET", word (ns.key key), payload] ++
    (if onlyIfAbsent then [word "NX"] else []) ++
    match expiryMillis ttl with
    | some millis => [word "PX", word (toString millis)]
    | none => []

def get (ns : Namespace) (key : String) : Command := ofWords ["GET", ns.key key]

def probe (ns : Namespace) (key : String) : Command := ofWords ["EXISTS", ns.key key]

def delete (keys : List String) : Command := ofWords ("DEL" :: keys)

def pageSize : Nat := 500

def scan (ns : Namespace) (cursor : Nat) : Command :=
  ofWords ["SCAN", toString cursor, "MATCH", ns.pattern, "COUNT", toString pageSize]

def ping : Command := ofWords ["PING"]

def select (db : Int) : Command := ofWords ["SELECT", toString db]

def authenticate (username : Option String) (password : String) : Command :=
  ofWords ("AUTH" :: (username.toList ++ [password]))

end Command

end ExpiringCache
