import ExpiringCache.Number.Whole
import ExpiringCache.Text.Quoted
import ExpiringCache.Text.Utf8
/-!
What a server answers, and what a client makes of it: a value of the kind that was asked for, or an
error with the wording that callers see.
-/

namespace ExpiringCache

inductive ClientErrorKind where
  | responseError
  | execAbortError
  | busyLoadingError
  | noScriptError
  | moved
  | ask
  | tryAgain
  | clusterDown
  | crossSlot
  | masterDown
  | readOnly
  | notBusy
  | noSub
  | typeError
  | authenticationFailed
  | ioError
  deriving DecidableEq

def ClientErrorKind.name : ClientErrorKind → String
  | .responseError => "ResponseError"
  | .execAbortError => "ExecAbortError"
  | .busyLoadingError => "BusyLoadingError"
  | .noScriptError => "NoScriptError"
  | .moved => "Moved"
  | .ask => "Ask"
  | .tryAgain => "TryAgain"
  | .clusterDown => "ClusterDown"
  | .crossSlot => "CrossSlot"
  | .masterDown => "MasterDown"
  | .readOnly => "ReadOnly"
  | .notBusy => "NotBusy"
  | .noSub => "NoSub"
  | .typeError => "TypeError"
  | .authenticationFailed => "AuthenticationFailed"
  | .ioError => "IoError"

inductive ClientError where
  | known (kind : ClientErrorKind) (description : String) (detail : Option String)
  | extension (code : String) (detail : Option String)
  | timedOut
  | closed
  | unreachable (reason : String)
  deriving DecidableEq

namespace ClientError

/-- What a code of the server's own stands for if the server does not say. -/
def unknownExtension : String := "Unknown extension error encountered"

def detail : ClientError → Option String
  | .known _ _ detail => detail
  | .extension _ detail => some (detail.getD unknownExtension)
  | _ => none

def message : ClientError → String
  | .known kind description none => description ++ "- " ++ kind.name
  | .known kind description (some detail) =>
    description ++ " - " ++ kind.name ++ ": " ++ detail
  | .extension code detail => code ++ ": " ++ detail.getD unknownExtension
  | .timedOut => "timed out"
  | .closed => "broken pipe"
  | .unreachable reason => reason

def isTypeError : ClientError → Bool
  | .known .typeError _ _ => true
  | _ => false

end ClientError

inductive Reply where
  | nil
  | okay
  | int (n : Int)
  | bulk (bytes : List UInt8)
  | simple (s : String)
  | array (items : List Reply)
  | error (code : String) (detail : Option String)
  deriving Inhabited

namespace Reply

def kindOfCode : String → Option ClientErrorKind
  | "ERR" => some .responseError
  | "EXECABORT" => some .execAbortError
  | "LOADING" => some .busyLoadingError
  | "NOSCRIPT" => some .noScriptError
  | "MOVED" => some .moved
  | "ASK" => some .ask
  | "TRYAGAIN" => some .tryAgain
  | "CLUSTERDOWN" => some .clusterDown
  | "CROSSSLOT" => some .crossSlot
  | "MASTERDOWN" => some .masterDown
  | "READONLY" => some .readOnly
  | "NOTBUSY" => some .notBusy
  | "NOSUB" => some .noSub
  | _ => none

def clientError (code : String) (detail : Option String) : ClientError :=
  match kindOfCode code with
  | some kind => .known kind "An error was signalled by the server" detail
  | none => .extension code detail

/-- The error reply of a line: its first word is the code and what follows the detail. -/
def ofErrorLine (line : String) : Reply :=
  let cs := line.toList
  match cs.dropWhile (· != ' ') with
  | [] => .error line none
  | _ :: detail => .error (String.ofList (cs.takeWhile (· != ' '))) (some (String.ofList detail))

mutual

def firstError : Reply → Option ClientError
  | .error code detail => some (clientError code detail)
  | .array items => firstErrorOf items
  | _ => none

def firstErrorOf : List Reply → Option ClientError
  | [] => none
  | item :: rest =>
    match firstError item with
    | some e => some e
    | none => firstErrorOf rest

end

mutual

def display : Reply → String
  | .nil => "nil"
  | .okay => "ok"
  | .int n => s!"int({n})"
  | .bulk bytes =>
    match Text.Utf8.decode bytes with
    | .ok s => "bulk-string('" ++ Text.quoted s ++ "')"
    | .error _ =>
      "binary-data([" ++ ", ".intercalate (bytes.map fun b => toString b.toNat) ++ "])"
  | .simple s => "simple-string(" ++ Text.quoted s ++ ")"
  | .array items => "array([" ++ ", ".intercalate (displays items) ++ "])"
  | .error code detail => "server-error(" ++ (clientError code detail).message ++ ")"

def displays : List Reply → List String
  | [] => []
  | item :: rest => display item :: displays rest

end

/-! ### Conversions -/

def mismatch (reply : Reply) (why : String) : ClientError :=
  .known .typeError "Response was of incompatible type"
    (some (Text.quoted why ++ " (response was " ++ reply.display ++ ")"))

def checked (reply : Reply) : Except ClientError Reply :=
  match reply.firstError with
  | some e => .error e
  | none => .ok reply

def parseWhole (range : Number.Range) (reply : Reply) (s : String) :
    Except ClientError Int :=
  match Number.readWhole range s.toList with
  | .ok n => .ok n
  | .error _ => .error (reply.mismatch "Could not convert from string.")

/-- A reply as a whole number. One sent as a number is cut to the width, one sent as text is read
within the range. -/
def toWhole (range : Number.Range) (reply : Reply) : Except ClientError Int :=
  match reply with
  | .int n => .ok ((n - range.low) % (range.high - range.low + 1) + range.low)
  | .simple s => parseWhole range reply s
  | .bulk bytes =>
    match Text.Utf8.decode bytes with
    | .ok s => parseWhole range reply s
    | .error _ => .error (.known .typeError "Invalid UTF-8" none)
  | _ => .error (reply.mismatch "Response type not convertible to numeric.")

def toText (reply : Reply) : Except ClientError String :=
  match reply with
  | .bulk bytes =>
    match Text.Utf8.decode bytes with
    | .ok s => .ok s
    | .error _ => .error (.known .typeError "Cannot convert from UTF-8" none)
  | .okay => .ok "OK"
  | .simple s => .ok s
  | .int n => .ok (toString n)
  | _ => .error (reply.mismatch "Response type not string compatible.")

def toBytes (reply : Reply) : Except ClientError (List UInt8) :=
  match reply with
  | .bulk bytes => .ok bytes
  | .array items => items.mapM fun item => do
    let n ← item.toWhole (.unsigned 8)
    return n.toNat.toUInt8
  | .nil => .ok []
  | _ => .error (reply.mismatch "Response type not vector compatible.")

/-- A reply as a list of keys; a single text is a list of one. -/
def toKeys (reply : Reply) : Except ClientError (List String) :=
  match reply with
  | .array items => items.mapM toText
  | .bulk _ => reply.toText.map fun s => [s]
  | .nil => .ok []
  | _ => .error (reply.mismatch "Response type not vector compatible.")

def toPage (reply : Reply) : Except ClientError (Nat × List String) :=
  match reply with
  | .array [cursor, keys] => do
    let cursor ← cursor.toWhole (.unsigned 64)
    let keys ← keys.toKeys
    return (cursor.toNat, keys)
  | .array _ => .error (reply.mismatch "Array response of wrong dimension")
  | _ => .error (reply.mismatch "Not a Array response")

def toOption {α : Type} (convert : Reply → Except ClientError α) (reply : Reply) :
    Except ClientError (Option α) :=
  match reply with
  | .nil => .ok none
  | _ => (convert reply).map some

/-- A reply's value, an error anywhere in it coming first. -/
def read {α : Type} (convert : Reply → Except ClientError α) (reply : Reply) :
    Except ClientError α :=
  match reply.checked with
  | .ok reply => convert reply
  | .error e => .error e

end Reply

end ExpiringCache
