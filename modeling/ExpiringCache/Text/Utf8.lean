/-!
Text as bytes. Reading says where the first wrong byte is, and whether the bytes there are wrong or
only cut short.
-/

namespace ExpiringCache.Text.Utf8

/-- Where bytes stop being text: the number of good bytes before, and the length of the wrong
sequence, or nothing if the bytes end inside a character. -/
structure Fault where
  validBytes : Nat
  wrongBytes : Option Nat
  deriving DecidableEq

def Fault.message (fault : Fault) : String :=
  match fault.wrongBytes with
  | some n => s!"invalid utf-8 sequence of {n} bytes from index {fault.validBytes}"
  | none => s!"incomplete utf-8 byte sequence from index {fault.validBytes}"

/-- A character whose first bytes have been read: its number so far, the bytes still owed, and
the range that the next one must lie in. -/
structure Begun where
  number : Nat
  owed : Nat
  low : Nat
  high : Nat
  read : Nat
  deriving DecidableEq

inductive Lead where
  | whole (c : Char)
  | begun (state : Begun)
  | wrong

def lead (b : UInt8) : Lead :=
  let n := b.toNat
  if n < 0x80 then .whole (Char.ofNat n)
  else if 0xC2 ≤ n ∧ n ≤ 0xDF then .begun ⟨n - 0xC0, 1, 0x80, 0xBF, 1⟩
  else if n = 0xE0 then .begun ⟨0, 2, 0xA0, 0xBF, 1⟩
  else if n = 0xED then .begun ⟨0xD, 2, 0x80, 0x9F, 1⟩
  else if 0xE1 ≤ n ∧ n ≤ 0xEF then .begun ⟨n - 0xE0, 2, 0x80, 0xBF, 1⟩
  else if n = 0xF0 then .begun ⟨0, 3, 0x90, 0xBF, 1⟩
  else if 0xF1 ≤ n ∧ n ≤ 0xF3 then .begun ⟨n - 0xF0, 3, 0x80, 0xBF, 1⟩
  else if n = 0xF4 then .begun ⟨4, 3, 0x80, 0x8F, 1⟩
  else .wrong

/-- The characters of bytes that follow `good` bytes already read and a begun character. -/
def decodeFrom (good : Nat) : Option Begun → List UInt8 → Except Fault (List Char)
  | none, [] => .ok []
  | some _, [] => .error ⟨good, none⟩
  | none, b :: rest =>
    match lead b with
    | .whole c => do
      let cs ← decodeFrom (good + 1) none rest
      return c :: cs
    | .begun state => decodeFrom good (some state) rest
    | .wrong => .error ⟨good, some 1⟩
  | some state, b :: rest =>
    if state.low ≤ b.toNat ∧ b.toNat ≤ state.high then
      let number := state.number * 64 + (b.toNat - 0x80)
      if state.owed ≤ 1 then do
        let cs ← decodeFrom (good + state.read + 1) none rest
        return Char.ofNat number :: cs
      else decodeFrom good (some ⟨number, state.owed - 1, 0x80, 0xBF, state.read + 1⟩) rest
    else .error ⟨good, some state.read⟩

def decode (bytes : List UInt8) : Except Fault String := do
  let cs ← decodeFrom 0 none bytes
  return String.ofList cs

def encodeChars (cs : List Char) : List UInt8 := cs.flatMap String.utf8EncodeChar

def encode (s : String) : List UInt8 := encodeChars s.toList

end ExpiringCache.Text.Utf8
