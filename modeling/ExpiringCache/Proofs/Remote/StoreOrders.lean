import ExpiringCache.Proofs.Remote.Millis
import ExpiringCache.Proofs.Remote.PlainServer
/-!
Commands that store a value, read back word by word. A command says under which key, what, on which
condition and for how many milliseconds, and nothing that a caller can choose is taken for an
option.
-/

namespace ExpiringCache

open MapServer

structure StoreOrder where
  key : List UInt8
  value : Payload
  onlyIfAbsent : Bool
  millis : Option Nat

namespace Command

def readSet? : Command → Option StoreOrder
  | name :: key :: value :: options =>
    if name = word "SET" then
      (PlainServer.options? options).map fun (onlyIfAbsent, millis) =>
        ⟨key, value, onlyIfAbsent, millis⟩
    else none
  | _ => none

theorem read_set_words (key value : List UInt8) (onlyIfAbsent : Bool) {millis : Option Nat}
    (fits : ∀ ms ∈ millis, ms ≤ longestMillis) :
    readSet? (setWords key value onlyIfAbsent millis) =
      some ⟨key, value, onlyIfAbsent, millis⟩ := by
  rw [setWords, readSet?, if_pos rfl, PlainServer.options_of_words onlyIfAbsent fits]
  rfl

end Command

structure StoreOrder.Tells (order : StoreOrder) (ns : Namespace) (key : String) (payload : Payload)
    (ttl : Duration) (onlyIfAbsent : Bool) : Prop where
  spelled : Command.set ns key payload ttl onlyIfAbsent =
    setWords order.key order.value order.onlyIfAbsent order.millis
  key : Text.Utf8.decode order.key = .ok (ns.key key)
  value : order.value = payload
  condition : order.onlyIfAbsent = onlyIfAbsent
  forGood : order.millis = none ↔
    ttl.toNanos = 0 ∨ Command.longestMillis < ttl.toNanos / nanosPerMilli
  positive : ∀ n ∈ order.millis, 1 ≤ n
  close : ∀ n ∈ order.millis, n * nanosPerMilli < ttl.toNanos + nanosPerMilli ∧
    ttl.toNanos < n * nanosPerMilli + nanosPerMilli
  ordered : ∀ n ∈ order.millis, ∀ {ns' key' payload' longer onlyIfAbsent' other},
    Command.readSet? (.set ns' key' payload' longer onlyIfAbsent') = some other →
    ttl.toNanos ≤ longer.toNanos → ∀ m ∈ other.millis, n ≤ m
  fits : ∀ n ∈ order.millis, ∀ now : Int, (Number.Range.signed 64).contains now = true →
    now ≤ 2 ^ 62 → (Number.Range.signed 64).contains (now + n) = true

namespace Command

theorem read_set (ns : Namespace) (key : String) (payload : Payload) (ttl : Duration)
    (onlyIfAbsent : Bool) :
    readSet? (.set ns key payload ttl onlyIfAbsent) =
      some ⟨ns.keyWord key, payload, onlyIfAbsent, expiryMillis ttl⟩ :=
  read_set_words _ _ _ fun _ sent => (expiry_bounds sent).2

/-- The words of a command that stores a value carry what was asked for, whatever the key and the
value are. -/
theorem stores_are_told_faithfully (ns : Namespace) (key : String) (payload : Payload)
    (ttl : Duration) (onlyIfAbsent : Bool) :
    ∃ order, readSet? (.set ns key payload ttl onlyIfAbsent) = some order ∧
      order.Tells ns key payload ttl onlyIfAbsent := by
  refine ⟨_, read_set ns key payload ttl onlyIfAbsent, rfl, ?_, rfl, rfl, ?_, ?_, ?_, ?_, ?_⟩
  · exact Text.Utf8.decode_encode _
  · exact expiry_eq_none_iff ttl
  · exact fun n sent => (expiry_bounds sent).1
  · exact fun n sent => expiry_close sent
  · intro n sent ns' key' payload' longer onlyIfAbsent' other read order m later
    rw [read_set] at read
    cases read
    exact expiry_ordered sent later order
  · intro n sent now within early
    have least := (expiry_bounds sent).1
    have most : n ≤ 2 ^ 62 - 1 := (expiry_bounds sent).2
    have low : (Number.Range.signed 64).low = -9223372036854775808 := rfl
    have high : (Number.Range.signed 64).high = 9223372036854775807 := rfl
    rw [Number.contains_iff, low, high] at within ⊢
    omega

end Command

end ExpiringCache
