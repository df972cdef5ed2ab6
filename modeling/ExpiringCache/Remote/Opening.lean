import ExpiringCache.Journal
import ExpiringCache.Remote.Address
import ExpiringCache.Remote.Command
import ExpiringCache.Remote.Reply
/-!
Opening a networked cache: the settings are looked over, the server is reached, greeted and asked
for a sign of life. Settings that are refused are found before anything is sent.
-/

namespace ExpiringCache

inductive OpeningStage where
  | reaching
  | greeting (named : Bool)
  | pinging
  deriving DecidableEq

structure Opening where
  settings : RemoteSettings
  ns : Namespace
  address : Address
  stage : OpeningStage

inductive OpeningNext where
  | reach (opening : Opening)
  | greet (opening : Opening) (commands : List Command)
  | ping (opening : Opening)
  | opened (ns : Namespace)
  | failed (e : CacheError)

/-- What an opening has to do next, and what there is to report. -/
structure OpeningReaction where
  next : OpeningNext
  events : List Event

namespace Opening

def unavailable (context : String) (e : ClientError) : OpeningReaction :=
  let reason := context ++ ": " ++ e.message
  ⟨.failed (.backendUnavailable reason), [.unavailable reason]⟩

/-- Starts an opening, unless the namespace or the address is refused. -/
def start (settings : RemoteSettings) : OpeningReaction :=
  match Namespace.parse settings.ns with
  | .error e => ⟨.failed e, []⟩
  | .ok ns =>
    match Address.parse settings.addr with
    | .error e => ⟨.failed e, []⟩
    | .ok address =>
      ⟨.reach ⟨settings, ns, address, .reaching⟩,
        [.connecting settings.addr settings.db ns.text]⟩

def credentials (settings : RemoteSettings) (named : Bool) : List Command :=
  (settings.password.map (Command.authenticate (if named then settings.username else none))).toList

/-- The choice of a database other than the first, as a command. -/
def choice (settings : RemoteSettings) : List Command :=
  if settings.db = 0 then [] else [Command.select settings.db]

def greet (o : Opening) (named : Bool) : OpeningReaction :=
  ⟨.greet { o with stage := .greeting named }
    (credentials o.settings named ++ choice o.settings), []⟩

/-- The message by which a server says that it knows no user names. -/
def noNames : String := "wrong number of arguments for 'auth' command"

def holds (part : List Char) : List Char → Bool
  | [] => part.isEmpty
  | c :: rest => part.isPrefixOf (c :: rest) || holds part rest

inductive Admission where
  | admitted
  | withoutName
  | refused (e : ClientError)

def admission (reply : Reply) : Admission :=
  match reply.firstError, reply with
  | some e, _ =>
    if holds noNames.toList (e.detail.getD "").toList then .withoutName
    else .refused (.known .authenticationFailed "Password authentication failed" none)
  | none, .okay => .admitted
  | none, _ =>
    .refused (.known .responseError
      "Redis server refused to authenticate, returns Ok() != Value::Okay" none)

/-- The complaint about the reply to the choice of a database. -/
def choiceRefused (reply : Reply) : Option ClientError :=
  reply.firstError.map fun e =>
    .known .responseError "Redis server refused to switch database" e.detail

/-- What the replies to a greeting say: that of the password counts first. -/
def greetingOutcome (settings : RemoteSettings) (replies : List Reply) : Admission :=
  let (first, others) :=
    if settings.password.isSome then (replies.head?.map admission, replies.drop 1)
    else (none, replies)
  match first with
  | some (.refused e) => .refused e
  | some .withoutName => .withoutName
  | _ =>
    match others.findSome? choiceRefused with
    | some e => .refused e
    | none => .admitted

def unreached : String := "Failed to connect to Redis"

def ping (o : Opening) : OpeningReaction := ⟨.ping { o with stage := .pinging }, []⟩

def reached (o : Opening) (attempt : Except ClientError Unit) : OpeningReaction :=
  match attempt with
  | .ok () => o.greet true
  | .error e => unavailable unreached e

/-- The wording for a connection that closed before the greeting was answered. -/
def lost : ClientError → ClientError
  | .closed => .known .ioError "Multiplexed connection driver unexpectedly terminated" none
  | e => e

/-- Goes on after the replies to the greeting; a server that knows no names is greeted again
without one, but only once. -/
def greeted (o : Opening) (named : Bool) (replies : Except ClientError (List Reply)) :
    OpeningReaction :=
  match replies with
  | .error e => unavailable unreached (lost e)
  | .ok replies =>
    match greetingOutcome o.settings replies with
    | .admitted => o.ping
    | .withoutName => if named then o.greet false else o.ping
    | .refused e => unavailable unreached e

/-- Goes on after the sign of life, which has to be text. -/
def pinged (o : Opening) (reply : Except ClientError Reply) : OpeningReaction :=
  match reply.bind (·.read Reply.toText) with
  | .ok pong => ⟨.opened o.ns, [.pinged pong, .connected]⟩
  | .error e => unavailable "Redis PING failed" e

def resume (o : Opening) (replies : Except ClientError (List Reply)) : OpeningReaction :=
  match o.stage with
  | .reaching => o.reached (replies.map fun _ => ())
  | .greeting named => o.greeted named replies
  | .pinging => o.pinged (replies.map fun replies => replies.headD .nil)

end Opening

end ExpiringCache
