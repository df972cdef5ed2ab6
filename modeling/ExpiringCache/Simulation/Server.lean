import ExpiringCache.Remote.Command
import ExpiringCache.Remote.Reply
/-!
Servers that follow a script. A server takes the commands of a connection one after the other, and
the next one only when it is done with the last. It goes on with commands whose reply nobody waits
for any more.
-/

namespace ExpiringCache

inductive Welcome where
  | accept
  | refuse
  | silence
  | unknownHost
  deriving DecidableEq

inductive ServerAct where
  | answer (reply : Reply)
  | after (millis : Nat) (act : ServerAct)
  | close
  | hang

instance : Inhabited ServerAct := ⟨.hang⟩

def ServerAct.delay : ServerAct → Nat
  | .after millis act => millis + act.delay
  | _ => 0

/-- What is done after the delay. -/
def ServerAct.core : ServerAct → ServerAct
  | .after _ act => act.core
  | act => act

/-- What a server does about one connection: about the first password and about those sent after
it, about a choice of database, about a sign of life, and about all other commands, in order. -/
structure ServerScript where
  welcome : Welcome
  onAuth : ServerAct
  onSelect : ServerAct
  onPing : ServerAct
  others : List ServerAct
  onAuthAgain : ServerAct := onAuth

namespace ServerScript

def refusing : ServerScript :=
  ⟨.refuse, .hang, .hang, .hang, [], .hang⟩

/-- The reply of a server whose script has come to its end. -/
def exhausted : ServerAct := .answer (.ofErrorLine "ERR script exhausted")

/-- What is done about a command, and the script after it. -/
def take (script : ServerScript) (command : Command) : ServerAct × ServerScript :=
  match command.head? with
  | some name =>
    if name = Command.word "AUTH" then
      (script.onAuth, { script with onAuth := script.onAuthAgain })
    else if name = Command.word "SELECT" then (script.onSelect, script)
    else if name = Command.word "PING" then (script.onPing, script)
    else
      match script.others with
      | act :: others => (act, { script with others })
      | [] => (exhausted, script)
  | none => (exhausted, script)

end ServerScript

inductive LinkStatus where
  | open
  | closed
  | silent
  deriving DecidableEq

/-- A connection to a server: the commands that it has not begun with, the one that it is busy with
and until when, and the replies, each under the number of its command. -/
structure Link where
  script : ServerScript
  status : LinkStatus
  inbox : List (Nat × Command)
  busy : Option (Nat × Instant × ServerAct)
  replies : List (Nat × Reply)

namespace Link

def connected (script : ServerScript) : Link := ⟨script, .open, [], none, []⟩

def post (link : Link) (number : Nat) (command : Command) : Link :=
  { link with inbox := link.inbox ++ [(number, command)] }

def act (link : Link) (number : Nat) : ServerAct → Link
  | .answer reply => { link with busy := none, replies := link.replies ++ [(number, reply)] }
  | .close => { link with busy := none, status := .closed }
  | _ => { link with busy := none, status := .silent }

def begin (link : Link) (now : Instant) (number : Nat) (command : Command) : Link :=
  let (act, script) := link.script.take command
  let link := { link with script }
  if act.delay = 0 then link.act number act.core
  else { link with busy := some (number, now.timer (.ofMillis act.delay), act.core) }

/-- Goes through commands until one takes time; gives the commands begun with. -/
def serve (now : Instant) (link : Link) : List (Nat × Command) → List Command × Link
  | [] => ([], { link with inbox := [] })
  | (number, command) :: rest =>
    if link.status = .open ∧ link.busy.isNone then
      let (begun, link) := serve now (link.begin now number command) rest
      (command :: begun, link)
    else ([], { link with inbox := (number, command) :: rest })

/-- Does what a server can do by now; gives the commands begun with. -/
def work (now : Instant) (link : Link) : List Command × Link :=
  match link.busy with
  | none => serve now link link.inbox
  | some (number, due, act) =>
    if due.reached now then
      let link := link.act number act
      serve now link link.inbox
    else ([], link)

/-- The replies to some commands, once all are there or none can come any more. -/
def repliesTo (link : Link) (numbers : List Nat) : Option (Except ClientError (List Reply)) :=
  match numbers.mapM fun n => (link.replies.find? (·.1 == n)).map (·.2) with
  | some replies => some (.ok replies)
  | none => if link.status = .closed then some (.error .closed) else none

def forget (link : Link) (numbers : List Nat) : Link :=
  { link with replies := link.replies.filter fun r => !numbers.contains r.1 }

end Link

end ExpiringCache
