import ExpiringCache.Probe
/-!
The command: runs the start-up probe with the settings of the environment.
-/

open ExpiringCache

def readEnvironment : List Variable → IO Environment
  | [] => pure fun _ => none
  | v :: rest => do
    let value ← IO.getEnv v.name
    let others ← readEnvironment rest
    pure fun name => if name = v then value.map Text.Utf8.encode else others name

def main : IO UInt32 := do
  let env ← readEnvironment [.backend, .addr, .username, .password, .db, .ns, .connectTimeout,
    .responseTimeout, .sweepInterval]
  let shown ← IO.getEnv "RUST_LOG"
  let stamp ← IO.monoNanosNow
  let (code, lines) := Probe.lines env (shown.map Text.Utf8.encode) (toString stamp)
    "no network is available"
  for line in lines do
    IO.println line
  return code.toUInt32
