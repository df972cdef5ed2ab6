import ExpiringCache.Proofs.Cache.Readings
import ExpiringCache.Proofs.Remote.WholeNumbers
/-!
Whole numbers kept as bytes. An embedded cache reads a value as a number if its bytes are text, the
text without the blanks around it is digits with one sign or none, and the number has 64 bits; of
any other value it says that it does not decode. A number that is stored is read back.
-/

namespace ExpiringCache

/-- Bytes that hold no number do not decode, and the key is named. -/
theorem Payload.as_int64_of_no_number (key : String) {bytes : Payload} (other : ∀ n, ¬bytes.Holds n) :
    ∃ why, bytes.asInt64 key = .error (.decode key why) := by
  cases read : bytes.asInt64 key with
  | ok n => exact absurd ((as_int64_eq_ok_iff key bytes n).mp read) (other n)
  | error e =>
      have failed : Reading.whole.of key bytes = .error e := by
        rw [Reading.of, read]
        rfl
      obtain ⟨_, why, rfl⟩ := Reading.error_of_of failed
      exact ⟨why, rfl⟩

variable {ι : Type} [DecidableEq ι]

theorem EmbeddedCache.live_after_start (c : EmbeddedCache ι) (id : ι) (key : String)
    (payload : Payload) {now later : Instant} {ttl : Duration}
    (within : ttl.toNanos = 0 ∨ later.toNanos < now.toNanos + ttl.toNanos) :
    (c.start now id (.operate (.set key payload ttl))).state.store.live? later key =
      some (.write payload now ttl.ttl?) := by
  have lasting := Entry.not_expired_within payload within
  change (c.store.perform now (.set key payload ttl)).2.2.live? later key = _
  rw [Store.live_after_set, if_pos rfl, Option.filter_some, lasting]
  rfl

/-- Reading a value as a whole number gives the number that its bytes hold, and fails with the
key if they hold none. A number of 64 bits that was stored is the one that is read. -/
theorem whole_values_are_numerals (c : EmbeddedCache ι) (now : Instant) (id : ι) (key : String) :
    (∀ {e : Entry}, c.store.live? now key = some e →
      (∀ n, (c.start now id (.operate (.get key .whole))).progress = .finished (.ok (.whole n)) ↔
        e.payload.Holds n) ∧
      ((∀ n, ¬e.payload.Holds n) → ∃ why,
        (c.start now id (.operate (.get key .whole))).progress =
          .finished (.error (.decode key why)))) ∧
    ∀ {n : Int} {ttl : Duration} {later : Instant} (reader : ι), -9223372036854775808 ≤ n →
      n ≤ 9223372036854775807 →
      ttl.toNanos = 0 ∨ later.toNanos < now.toNanos + ttl.toNanos →
      ((c.start now id (.operate (.set key (.ofWhole n) ttl))).state.start later reader
        (.operate (.get key .whole))).progress = .finished (.ok (.whole n)) := by
  refine ⟨fun {e} held => ⟨fun n => ?_, fun other => ?_⟩, ?_⟩
  · rw [c.told_whole id held, ← Payload.as_int64_eq_ok_iff key]
    cases e.payload.asInt64 key with
    | error e => exact ⟨nofun, nofun⟩
    | ok m =>
        constructor
        · intro told
          cases told
          rfl
        · intro read
          cases read
          rfl
  · obtain ⟨why, refused⟩ := Payload.as_int64_of_no_number key other
    refine ⟨why, ?_⟩
    rw [c.told_whole id held, refused]
    rfl
  · intro n ttl later reader least most within
    have held := c.live_after_start id key (.ofWhole n) within
    have read := (Payload.as_int64_eq_ok_iff key _ n).mpr (Payload.whole_holds least most)
    rw [EmbeddedCache.told_whole _ reader held]
    change Progress.finished (((Payload.ofWhole n).asInt64 key).map .whole) = _
    rw [read]
    rfl

/-- A blank, a plus, a zero, a seven and the end of a line are a seven. A number below zero that is
stored after them is read in their place. -/
theorem padded_seven_is_read :
    let e : Entry := ⟨[0x20, 0x2B, 0x30, 0x37, 0x0A], .start, none⟩
    let c : EmbeddedCache Nat := { EmbeddedCache.empty with store.entries := ⟨[("n", e)], by decide⟩ }
    c.store.live? .start "n" = some e ∧
      (c.start .start 0 (.operate (.get "n" .whole))).progress = .finished (.ok (.whole 7)) ∧
      ((c.start .start 0 (.operate (.set "n" (.ofWhole (-9)) .zero))).state.start .start 1
        (.operate (.get "n" .whole))).progress = .finished (.ok (.whole (-9))) := by
  intro e c
  have held : c.store.live? .start "n" = some e := by rfl
  have blank : ∀ char ∈ [' '] ++ ['\n'], Text.isBlank char = true := List.all_eq_true.mp rfl
  have digits : Number.IsDigits ['0', '7'] := ⟨List.cons_ne_nil _ _, List.all_eq_true.mp rfl⟩
  have holds : e.payload.Holds 7 :=
    ⟨[' '], ['+', '0', '7'], ['\n'], by rfl, blank, .plus digits, by decide, by decide⟩
  obtain ⟨reads, stored⟩ := whole_values_are_numerals c .start 0 "n"
  exact ⟨held, ((reads held).1 7).mpr holds, stored 1 (by decide) (by decide) (.inl (by rfl))⟩

end ExpiringCache
