import ExpiringCache.Json.Shape
import ExpiringCache.Text.Blank
import ExpiringCache.Time
/-!
Settings of the caches of a process, from environment variables or from JSON. A variable that is
missing or does not hold what it should leaves its field at the default, and no variable touches the
field of another.
-/

namespace ExpiringCache

inductive BackendKind where
  | memory
  | redis
  deriving DecidableEq

namespace BackendKind

def name : BackendKind → String
  | .memory => "Memory"
  | .redis => "Redis"

def word : BackendKind → String
  | .memory => "memory"
  | .redis => "redis"

def ofWord? (s : String) : Option BackendKind :=
  if s = "memory" then some .memory else if s = "redis" then some .redis else none

/-- Reads a kind, blanks around it and the case of ASCII letters left aside. -/
def parse (text : String) : Except String BackendKind :=
  let word := String.ofList ((Text.trim text.toList).map Char.toLower)
  match ofWord? word with
  | some kind => .ok kind
  | none => .error ("unknown cache backend '" ++ word ++ "'")

end BackendKind

structure RemoteSettings where
  addr : String
  username : Option String
  password : Option String
  db : Int
  ns : String
  connectTimeoutMillis : Nat
  responseTimeoutMillis : Nat

namespace RemoteSettings

def defaults : RemoteSettings :=
  ⟨"127.0.0.1:6379", none, none, 0, "kvcache", 2000, 2000⟩

def connectTimeout (s : RemoteSettings) : Duration := .ofMillis s.connectTimeoutMillis

def responseTimeout (s : RemoteSettings) : Duration := .ofMillis s.responseTimeoutMillis

end RemoteSettings

/-- Nothing is swept at an interval of zero. -/
structure Settings where
  backend : BackendKind
  remote : RemoteSettings
  sweepIntervalMillis : Nat

namespace Settings

def defaults : Settings := ⟨.memory, .defaults, 0⟩

def sweepInterval (s : Settings) : Option Duration :=
  if s.sweepIntervalMillis = 0 then none else some (.ofMillis s.sweepIntervalMillis)

end Settings

/-! ### Environment -/

inductive Variable where
  | backend
  | addr
  | username
  | password
  | db
  | ns
  | connectTimeout
  | responseTimeout
  | sweepInterval
  deriving DecidableEq

def Variable.name : Variable → String
  | .backend => "CACHE_BACKEND"
  | .addr => "REDIS_ADDR"
  | .username => "REDIS_USERNAME"
  | .password => "REDIS_PASSWORD"
  | .db => "REDIS_DB"
  | .ns => "REDIS_NAMESPACE"
  | .connectTimeout => "REDIS_CONNECT_TIMEOUT_MS"
  | .responseTimeout => "REDIS_RESPONSE_TIMEOUT_MS"
  | .sweepInterval => "CACHE_SWEEP_INTERVAL_MS"

abbrev Environment := Variable → Option (List UInt8)

namespace Environment

/-- A variable's text; bytes that are no text count as not set. -/
def text? (env : Environment) (v : Variable) : Option String :=
  (env v).bind fun bytes => (Text.Utf8.decode bytes).toOption

/-- A variable's number, if it holds one of the range and nothing else. -/
def whole? (env : Environment) (v : Variable) (range : Number.Range) : Option Int :=
  (env.text? v).bind fun s => (Number.readWhole range s.toList).toOption

def nonEmpty? (env : Environment) (v : Variable) : Option String :=
  (env.text? v).filter fun s => !s.isEmpty

def natural (env : Environment) (v : Variable) (fallback : Nat) : Nat :=
  match env.whole? v (.unsigned 64) with
  | some n => n.toNat
  | none => fallback

end Environment

/-- The interval at which stores are swept unless a variable says otherwise. -/
def defaultSweepMillis : Nat := 1000

namespace Settings

/-- The kind of backend that an environment names, and the complaint if it names an unknown one. -/
def backendOf (env : Environment) : BackendKind × Option String :=
  match env.text? .backend with
  | none => (.memory, none)
  | some text =>
    match BackendKind.parse text with
    | .ok kind => (kind, none)
    | .error complaint => (.memory, some complaint)

def ofEnvironment (env : Environment) : Settings where
  backend := (backendOf env).1
  remote :=
    { addr := (env.text? .addr).getD RemoteSettings.defaults.addr
      username := env.nonEmpty? .username
      password := env.nonEmpty? .password
      db := (env.whole? .db (.signed 64)).getD RemoteSettings.defaults.db
      ns := (env.text? .ns).getD RemoteSettings.defaults.ns
      connectTimeoutMillis :=
        env.natural .connectTimeout RemoteSettings.defaults.connectTimeoutMillis
      responseTimeoutMillis :=
        env.natural .responseTimeout RemoteSettings.defaults.responseTimeoutMillis }
  sweepIntervalMillis := env.natural .sweepInterval defaultSweepMillis

end Settings

/-! ### JSON -/

namespace BackendKind

def shape : Json.Shape := .choice ["memory", "redis"]

def ofJson (v : Json) : BackendKind :=
  match v with
  | .text s => (ofWord? s).getD .memory
  | _ => .memory

end BackendKind

def fieldText : Option Json → Option String
  | some (.text s) => some s
  | _ => none

def fieldWhole : Option Json → Int
  | some (.whole n) => n
  | _ => 0

namespace RemoteSettings

def toJson (s : RemoteSettings) : Json :=
  let optional : Option String → Json
    | some s => .text s
    | none => .null
  .object [("addr", .text s.addr), ("username", optional s.username),
    ("password", optional s.password), ("db", .whole s.db), ("namespace", .text s.ns),
    ("connect_timeout_ms", .whole s.connectTimeoutMillis),
    ("response_timeout_ms", .whole s.responseTimeoutMillis)]

def shape : Json.Shape :=
  let fallback (name : String) : Option Json := defaults.toJson.field? name
  .record "RedisConfig" [
    ("addr", .text, fallback "addr"),
    ("username", .optional .text, fallback "username"),
    ("password", .optional .text, fallback "password"),
    ("db", .i64, fallback "db"),
    ("namespace", .text, fallback "namespace"),
    ("connect_timeout_ms", .u64, fallback "connect_timeout_ms"),
    ("response_timeout_ms", .u64, fallback "response_timeout_ms")]

def ofJson (v : Json) : RemoteSettings where
  addr := (fieldText (v.field? "addr")).getD ""
  username := fieldText (v.field? "username")
  password := fieldText (v.field? "password")
  db := fieldWhole (v.field? "db")
  ns := (fieldText (v.field? "namespace")).getD ""
  connectTimeoutMillis := (fieldWhole (v.field? "connect_timeout_ms")).toNat
  responseTimeoutMillis := (fieldWhole (v.field? "response_timeout_ms")).toNat

end RemoteSettings

namespace Settings

def shape : Json.Shape :=
  .record "CacheConfig" [
    ("backend", BackendKind.shape, some (.text defaults.backend.word)),
    ("redis", RemoteSettings.shape, some defaults.remote.toJson),
    ("sweep_interval_ms", .u64, some (.whole defaults.sweepIntervalMillis))]

def ofJson (v : Json) : Settings where
  backend := (v.field? "backend").elim .memory BackendKind.ofJson
  remote := (v.field? "redis").elim .defaults RemoteSettings.ofJson
  sweepIntervalMillis := (fieldWhole (v.field? "sweep_interval_ms")).toNat

/-- Reads settings from JSON bytes; fields that are missing keep their defaults. -/
def read (bytes : List UInt8) : Except Json.Fault Settings :=
  match shape.read bytes with
  | .ok v => .ok (ofJson v)
  | .error fault => .error fault

end Settings

end ExpiringCache
