import ExpiringCache.Error
import ExpiringCache.Number.Whole
import ExpiringCache.Text.Blank
/-!
Addresses of servers: a host, which may stand in brackets, and a port after a colon, which may be
missing.
-/

namespace ExpiringCache

structure Address where
  host : List Char
  port : Nat
  deriving DecidableEq

namespace Address

def defaultPort : Nat := 6379

def splitFirst (c : Char) (cs : List Char) : Option (List Char × List Char) :=
  match cs.dropWhile (· != c) with
  | [] => none
  | _ :: after => some (cs.takeWhile (· != c), after)

def splitLast (c : Char) (cs : List Char) : Option (List Char × List Char) :=
  (splitFirst c cs.reverse).map fun parts => (parts.2.reverse, parts.1.reverse)

/-- The host and the text of the port, if there is one. -/
def split (cs : List Char) : Option (List Char × Option (List Char)) :=
  match cs with
  | '[' :: rest =>
    match splitFirst ']' rest with
    | none => none
    | some (host, []) => some (host, none)
    | some (host, ':' :: port) => some (host, some port)
    | some _ => none
  | _ =>
    match splitLast ':' cs with
    | some (host, port) => some (host, some port)
    | none => some (cs, none)

def read? (cs : List Char) : Option Address :=
  match split cs with
  | none => none
  | some (host, port) =>
    if host.isEmpty then none
    else
      match port with
      | none => some ⟨host, defaultPort⟩
      | some port =>
        match Number.readWhole (.unsigned 16) port with
        | .ok n => some ⟨host, n.toNat⟩
        | .error _ => none

def parse (text : String) : Except CacheError Address :=
  let cs := Text.trim text.toList
  match read? cs with
  | some address => .ok address
  | none => .error (.invalidConfig ("invalid redis address '" ++ String.ofList cs ++ "'"))

end Address

end ExpiringCache
