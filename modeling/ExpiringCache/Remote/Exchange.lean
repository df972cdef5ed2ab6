import ExpiringCache.Operation
import ExpiringCache.Remote.Command
import ExpiringCache.Remote.Reply
/-!
Operations as exchanges with a server: a command, its reply, and then either the end or a further
command. Only clearing a namespace takes more than one round: pages of keys are asked for, and the
keys of each page deleted, until the server says that there are no more pages.
-/

namespace ExpiringCache

/-- An operation on its way, by what is to be asked next. -/
inductive Exchange where
  | get (key : String) (reading : Reading)
  | exists (key : String)
  | set (key : String) (payload : Payload) (ttl : Duration)
  | setIfAbsent (key : String) (payload : Payload) (ttl : Duration)
  | delete (key : String)
  | page (cursor : Nat) (removed : Int64)
  | deletePage (keys : List String) (next : Nat) (removed : Int64)

namespace Exchange

def ofOperation : Operation → Exchange
  | .get key reading => .get key reading
  | .exists key => .exists key
  | .set key payload ttl => .set key payload ttl
  | .setIfAbsent key payload ttl => .setIfAbsent key payload ttl
  | .delete key => .delete key
  | .clear => .page 0 0

/-- Whether an exchange changes what the server keeps, so that it has to be its turn. -/
def isWrite : Exchange → Bool
  | .get .. | .exists _ => false
  | _ => true

def command (ns : Namespace) : Exchange → Command
  | .get key _ => .get ns key
  | .exists key => .probe ns key
  | .set key payload ttl => .set ns key payload ttl false
  | .setIfAbsent key payload ttl => .set ns key payload ttl true
  | .delete key => .delete [ns.key key]
  | .page cursor _ => .scan ns cursor
  | .deletePage keys _ _ => .delete keys

inductive Next where
  | again (exchange : Exchange)
  | finished (outcome : Outcome) (events : List Event)

def failed (op : String) (e : ClientError) : Next :=
  .finished (.error (.backend ("Redis " ++ op ++ " failed: " ++ e.message)))
    [.commandFailed op e.message]

def afterPage (ns : Namespace) (next : Nat) (removed : Int64) : Next :=
  if next = 0 then .finished (.ok .done) [.namespaceCleared ns.text removed]
  else .again (.page next removed)

def convert {α : Type} (conversion : Reply → Except ClientError α)
    (reply : Except ClientError Reply) : Except ClientError α :=
  reply.bind (·.read conversion)

/-- The value that a reply to `get` holds, in the form asked for. Numbers are converted by the
client, and a reply that is no number is the stored value's fault, not the server's. -/
def gotten (key : String) (reply : Except ClientError Reply) : Reading → Next
  | .whole =>
    match convert (Reply.toOption (Reply.toWhole (.signed 64))) reply with
    | .ok (some n) => .finished (.ok (.whole n)) []
    | .ok none => .finished (.error (.notFound key)) []
    | .error e =>
      if e.isTypeError then .finished (.error (.decode key e.message)) [] else failed "GET" e
  | reading =>
    match convert (Reply.toOption Reply.toBytes) reply with
    | .ok (some payload) => .finished (reading.of key payload) []
    | .ok none => .finished (.error (.notFound key)) []
    | .error e => failed "GET" e

def resume (ns : Namespace) (reply : Except ClientError Reply) : Exchange → Next
  | .get key reading => gotten key reply reading
  | .exists _ =>
    match convert (Reply.toWhole (.signed 64)) reply with
    | .ok n => .finished (.ok (.flag (0 < n))) []
    | .error e => failed "EXISTS" e
  | .set key payload ttl =>
    match convert (fun _ => .ok ()) reply with
    | .ok () => .finished (.ok .done) [.sentToServer key payload.length ttl]
    | .error e => failed "SET" e
  | .setIfAbsent .. =>
    match convert (Reply.toOption Reply.toText) reply with
    | .ok stored => .finished (.ok (.flag stored.isSome)) []
    | .error e => failed "SET NX" e
  | .delete _ =>
    match convert (Reply.toWhole (.signed 64)) reply with
    | .ok _ => .finished (.ok .done) []
    | .error e => failed "DEL" e
  | .page _ removed =>
    match convert Reply.toPage reply with
    | .ok (next, []) => afterPage ns next removed
    | .ok (next, keys) => .again (.deletePage keys next removed)
    | .error e => failed "SCAN" e
  | .deletePage _ next removed =>
    match convert (Reply.toWhole (.signed 64)) reply with
    | .ok n => afterPage ns next (removed + .ofInt n)
    | .error e => failed "DEL" e

end Exchange

end ExpiringCache
