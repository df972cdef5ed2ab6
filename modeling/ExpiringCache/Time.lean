import ExpiringCache.Number.Whole
/-!
Lengths of time and points of the monotonic clock, both exact to the nanosecond. A point of time
is a bounded number of seconds, so adding a length to it can fail.
-/

namespace ExpiringCache

abbrev nanosPerSecond : Nat := 1000000000

abbrev nanosPerMilli : Nat := 1000000

/-- A length of time: whole seconds and the nanoseconds of a begun second. -/
structure Duration where
  secs : Nat
  nanos : Nat
  nanos_lt : nanos < nanosPerSecond
  deriving DecidableEq

namespace Duration

def toNanos (d : Duration) : Nat := d.secs * nanosPerSecond + d.nanos

def ofNanos (n : Nat) : Duration where
  secs := n / nanosPerSecond
  nanos := n % nanosPerSecond
  nanos_lt := Nat.mod_lt _ (by decide)

def ofMillis (ms : Nat) : Duration := ofNanos (ms * nanosPerMilli)

def zero : Duration := ⟨0, 0, by decide⟩

instance : Inhabited Duration := ⟨zero⟩

/-- The longest length that a configuration can name. -/
def longest : Duration := ⟨2 ^ 64 - 1, 999999999, by decide⟩

def isZero (d : Duration) : Bool := d.secs == 0 && d.nanos == 0

/-- A time to live, where zero stands for no expiry. -/
def ttl? (d : Duration) : Option Duration := if d.isZero then none else some d

/-- Whole milliseconds; a begun one is dropped. -/
def wholeMillis (d : Duration) : Nat := d.secs * 1000 + d.nanos / nanosPerMilli

/-- Milliseconds, a begun one counted as whole: the grid on which timers strike. -/
def millisUp (d : Duration) : Nat := (d.toNanos + (nanosPerMilli - 1)) / nanosPerMilli

/-- A number with the digits of a fraction after a point, without trailing zeros. -/
private def withFraction (whole fraction width : Nat) : String :=
  if fraction = 0 then toString whole
  else
    let digits := (toString fraction).toList
    let padded := List.replicate (width - digits.length) '0' ++ digits
    let trimmed := (padded.reverse.dropWhile (· == '0')).reverse
    toString whole ++ "." ++ String.ofList trimmed

/-- The length in its largest unit that is at least one: `90s`, `1.5ms`, `20µs`, `7ns`. -/
def display (d : Duration) : String :=
  if 0 < d.secs then withFraction d.secs d.nanos 9 ++ "s"
  else if nanosPerMilli ≤ d.nanos then
    withFraction (d.nanos / nanosPerMilli) (d.nanos % nanosPerMilli) 6 ++ "ms"
  else if 1000 ≤ d.nanos then withFraction (d.nanos / 1000) (d.nanos % 1000) 3 ++ "µs"
  else withFraction d.nanos 0 0 ++ "ns"

end Duration

/-- The first and the last second that the clock can show. -/
abbrev firstSecond : Int := -(2 ^ 63 : Nat)

abbrev lastSecond : Int := (2 ^ 63 - 1 : Nat)

/-- A point of the monotonic clock, in seconds before or after the moment at which the clock was
started, and the nanoseconds of a begun one. -/
structure Instant where
  secs : Int
  nanos : Nat
  secs_fit : (Number.Range.signed 64).contains secs = true
  nanos_lt : nanos < nanosPerSecond
  deriving DecidableEq

namespace Instant

def start : Instant := ⟨0, 0, by decide, by decide⟩

instance : Inhabited Instant := ⟨start⟩

def first : Instant := ⟨firstSecond, 0, by decide, by decide⟩

def last : Instant := ⟨lastSecond, 999999999, by decide, by decide⟩

/-- The time since the first point of the clock. -/
def age (t : Instant) : Duration := ⟨(t.secs - firstSecond).toNat, t.nanos, t.nanos_lt⟩

def toNanos (t : Instant) : Nat := t.age.toNanos

/-- The point a length after `t`, with the nanoseconds carried into the seconds; `none` where the
clock cannot show it. -/
def plus? (t : Instant) (d : Duration) : Option Instant :=
  let nanos := t.nanos + d.nanos
  if carry : nanosPerSecond ≤ nanos then
    if fits : (Number.Range.signed 64).contains (t.secs + d.secs + 1) then
      some ⟨t.secs + d.secs + 1, nanos - nanosPerSecond, fits, by
        have := t.nanos_lt
        have := d.nanos_lt
        omega⟩
    else none
  else if fits : (Number.Range.signed 64).contains (t.secs + d.secs) then
    some ⟨t.secs + d.secs, nanos, fits, by omega⟩
  else none

/-- The point a length after `t`, or the last one that the clock can show. -/
def later (t : Instant) (d : Duration) : Instant := (t.plus? d).getD last

def before (s t : Instant) : Bool :=
  s.secs < t.secs || (s.secs == t.secs && s.nanos < t.nanos)

def reached (t now : Instant) : Bool := !now.before t

/-- The time from `earlier` to `t`, with a second borrowed where needed; zero if `t` comes first. -/
def since (t earlier : Instant) : Duration :=
  if t.before earlier then .zero
  else if h : earlier.nanos ≤ t.nanos then
    ⟨(t.secs - earlier.secs).toNat, t.nanos - earlier.nanos, by have := t.nanos_lt; omega⟩
  else
    ⟨(t.secs - earlier.secs - 1).toNat, t.nanos + nanosPerSecond - earlier.nanos, by
      have := t.nanos_lt
      omega⟩

def elapsed (t : Instant) : Duration := t.since start

/-- The point that the clock shows when it has waited from `t` for a timer: it waits for whole
milliseconds. -/
def waitFor (t timer : Instant) : Instant :=
  t.later (.ofMillis (timer.age.wholeMillis - t.age.wholeMillis))

/-- The first millisecond of the clock that is not before a length after `t`. -/
def timer (t : Instant) (d : Duration) : Instant :=
  first.later (.ofMillis (t.later d).age.millisUp)

end Instant

end ExpiringCache
