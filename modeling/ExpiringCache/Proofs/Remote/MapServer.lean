import ExpiringCache.Proofs.Number.Whole
import ExpiringCache.Proofs.Text.Utf8
import ExpiringCache.Remote.Exchange
/-!
Servers that keep a map with deadlines. Nothing is said of how a server works, only what it answers
to each command and what its keys show from then on. Keys are listed page by page; while a listing
goes on only deletions come between the pages, and a listing that has come to its end has shown
every key that is still there.
-/

namespace ExpiringCache

/-- A server: what it answers to a command at an instant, and what becomes of it. -/
abbrev Service (σ : Type) := σ → Instant → Command → Reply × σ

/-- What a server's keys show: the bytes under a key, as long as its time is not over. -/
abbrev Showing (σ : Type) := σ → Instant → List UInt8 → Option Payload

namespace Namespace

def stem (ns : Namespace) : List UInt8 := Command.word (ns.text ++ ":")

def keyWord (ns : Namespace) (key : String) : List UInt8 := Command.word (ns.key key)

theorem key_word_eq (ns : Namespace) (key : String) :
    ns.keyWord key = ns.stem ++ Command.word key := by
  have parts : ns.key key = ns.text ++ ":" ++ key := by
    apply String.toList_inj.mp
    simp [Namespace.key, text]
  rw [keyWord, parts, Command.word, Text.Utf8.encode_append]
  rfl

theorem stem_of_key_word (ns : Namespace) (key : String) : ns.stem <+: ns.keyWord key :=
  ⟨_, (ns.key_word_eq key).symm⟩

theorem key_word_injective (ns : Namespace) {j k : String} (same : ns.keyWord j = ns.keyWord k) :
    j = k := by
  rw [key_word_eq, key_word_eq] at same
  exact Text.Utf8.encode_injective (List.append_cancel_left same)

theorem pattern_word (ns : Namespace) :
    Command.word ns.pattern = ns.stem ++ Command.word "*" := by
  have parts : ns.pattern = ns.text ++ ":" ++ "*" := by
    apply String.toList_inj.mp
    simp [pattern, text]
  rw [parts, Command.word, Text.Utf8.encode_append]
  rfl

end Namespace

namespace MapServer

open Command (word)

def optionWords (onlyIfAbsent : Bool) (millis : Option Nat) : Command :=
  (if onlyIfAbsent then [word "NX"] else []) ++
    match millis with
    | some millis => [word "PX", word (toString millis)]
    | none => []

def setWords (key value : List UInt8) (onlyIfAbsent : Bool) (millis : Option Nat) : Command :=
  word "SET" :: key :: value :: optionWords onlyIfAbsent millis

def scanWords (stem : List UInt8) (cursor count : Nat) : Command :=
  [word "SCAN", word (toString cursor), word "MATCH", stem ++ word "*", word "COUNT",
    word (toString count)]

def pageReply (next : Nat) (keys : List (List UInt8)) : Reply :=
  .array [.bulk (word (toString next)), .array (keys.map .bulk)]

variable {σ : Type}

def SameFrom (shows : Showing σ) (now : Instant) (s s' : σ) : Prop :=
  ∀ {u : Instant}, now.toNanos ≤ u.toNanos → ∀ key, shows s' u key = shows s u key

/-- From an instant on, a key shows a value that was stored for so many milliseconds, and nothing
once they are over. -/
structure Stored (shows : Showing σ) (now : Instant) (s : σ) (key value : List UInt8)
    (millis : Option Nat) (s' : σ) : Prop where
  mine : ∀ {u : Instant}, now.toNanos ≤ u.toNanos → ∀ payload, shows s' u key = some payload ↔
    payload = value ∧ ∀ ms ∈ millis, u.toNanos < now.toNanos + ms * nanosPerMilli
  others : ∀ {u : Instant}, now.toNanos ≤ u.toNanos → ∀ k, k ≠ key → shows s' u k = shows s u k

structure Deleted (shows : Showing σ) (now : Instant) (s : σ) (keys : List (List UInt8)) (s' : σ) :
    Prop where
  mine : ∀ {u : Instant}, now.toNanos ≤ u.toNanos → ∀ k ∈ keys, shows s' u k = none
  others : ∀ {u : Instant}, now.toNanos ≤ u.toNanos → ∀ k, k ∉ keys → shows s' u k = shows s u k

/-- A listing that was begun at `s₀`: the pages so far, the next cursor, the keys on the pages, and
the state now. -/
inductive Listing (serve : Service σ) (now : Instant) (stem : List UInt8) (s₀ : σ) :
    Nat → Nat → List (List UInt8) → σ → Prop where
  | start : Listing serve now stem s₀ 0 0 [] s₀
  | page {pages cursor seen s count next keys s'}
      (before : Listing serve now stem s₀ pages cursor seen s) (goesOn : pages = 0 ∨ cursor ≠ 0)
      (answer : serve s now (scanWords stem cursor count) = (pageReply next keys, s')) :
      Listing serve now stem s₀ (pages + 1) next (seen ++ keys) s'
  | delete {pages cursor seen s} (before : Listing serve now stem s₀ pages cursor seen s)
      (keys : List (List UInt8)) :
      Listing serve now stem s₀ pages cursor seen (serve s now (word "DEL" :: keys)).2

/-- What is relied on of a server. A listing comes to its end, and has then shown every key that is
still there. -/
structure Keeps (serve : Service σ) (shows : Showing σ) (stem : List UInt8) : Prop where
  get : ∀ s now key, ∃ s', serve s now [word "GET", key] =
    ((shows s now key).elim .nil .bulk, s') ∧ SameFrom shows now s s'
  probe : ∀ s now key, ∃ s', serve s now [word "EXISTS", key] =
    (.int (if (shows s now key).isSome then 1 else 0), s') ∧ SameFrom shows now s s'
  set : ∀ s now key value millis, (∀ ms ∈ millis, 0 < ms ∧ ms ≤ Command.longestMillis) →
    ∃ s', serve s now (setWords key value false millis) = (.okay, s') ∧
      Stored shows now s key value millis s'
  setAbsent : ∀ s now key value millis, (∀ ms ∈ millis, 0 < ms ∧ ms ≤ Command.longestMillis) →
    shows s now key = none →
    ∃ s', serve s now (setWords key value true millis) = (.okay, s') ∧
      Stored shows now s key value millis s'
  setPresent : ∀ s now key value millis, (∀ ms ∈ millis, 0 < ms ∧ ms ≤ Command.longestMillis) →
    (shows s now key).isSome →
    ∃ s', serve s now (setWords key value true millis) = (.nil, s') ∧ SameFrom shows now s s'
  delete : ∀ s now keys, keys ≠ [] →
    ∃ (count : Nat) (s' : σ), serve s now (word "DEL" :: keys) = (.int count, s') ∧
      Deleted shows now s keys s'
  page : ∀ {now s₀ pages cursor seen s}, Listing serve now stem s₀ pages cursor seen s →
    (pages = 0 ∨ cursor ≠ 0) → ∀ count, 0 < count →
    ∃ next keys s', serve s now (scanWords stem cursor count) = (pageReply next keys, s') ∧
      next < 2 ^ 64 ∧ (∀ key ∈ keys, stem <+: key ∧ (shows s now key).isSome) ∧
      SameFrom shows now s s'
  complete : ∀ {now s₀ pages seen s}, Listing serve now stem s₀ pages 0 seen s → 0 < pages →
    ∀ key, stem <+: key → (shows s now key).isSome → key ∈ seen
  bounded : ∀ now s₀, ∃ most, ∀ {pages cursor seen s},
    Listing serve now stem s₀ pages cursor seen s → pages ≤ most

end MapServer

end ExpiringCache
