import ExpiringCache.Proofs.Cache.Alike
/-!
Objects stored and bound. Storing a value as JSON always succeeds; what a later caller makes of the
bytes depends on nothing but how deep the value's lists and objects lie in each other. Both kinds of
cache give the bytes back as they were, so that the same is true of both.
-/

namespace ExpiringCache

open MapServer

def Program.storeAndBind (key : String) (v : Json) (ttl length : Duration) (shape : Json.Shape) :
    Program :=
  .call (.store key (.object (.json v)) ttl false) fun _ => .wait length <|
    .call (.get key (.json shape)) fun _ => .done none

variable {σ : Type} {serve : Service σ}

/-- A cache in which what is stored now is there for so long: an embedded one, or a networked one
with a server that keeps a map, where nobody else is in line to write. -/
inductive Desk.Lasts (serve : Service σ) (ttl length : Duration) : Desk σ → Prop where
  | embedded (c : EmbeddedCache Nat) (server : σ) {now : Instant} (next : Nat)
    (lasts : (Entry.write [] now ttl.ttl?).isExpired (now.later length) = false) :
    Lasts serve ttl length ⟨.embedded c, server, now, next⟩
  | networked {shows : Showing σ} {c : NetworkedCache Nat} (keeps : Keeps serve shows c.ns.stem)
    (alone : c.writers = .empty) (link : Nat) (patience : Duration) (server : σ) {now : Instant}
    (next : Nat)
    (lasts : ∀ ms ∈ Command.expiryMillis ttl,
      (now.later length).toNanos < now.toNanos + ms * nanosPerMilli) :
    Lasts serve ttl length ⟨.networked link patience c, server, now, next⟩

/-- Who finds nobody in line to write is told what comes of its exchange with the server. -/
theorem NetworkedCache.ask_of_answered {c : NetworkedCache Nat} (alone : c.writers = .empty)
    {operation : Operation} {s s' : σ} {now : Instant} {outcome : Outcome} {events : List Event}
    (answered : (Exchange.ofOperation operation).Answered serve now c.ns s outcome events s')
    (link : Nat) (patience : Duration) (next : Nat) :
    ∃ c' : NetworkedCache Nat, c'.ns = c.ns ∧ c'.writers = .empty ∧
      Desk.ask serve ⟨.networked link patience c, s, now, next⟩ (.operate operation) =
        some (.finished outcome, ⟨.networked link patience c', s', now, next + 1⟩) := by
  obtain ⟨writers, left, started⟩ := start_of_alone alone next operation
  simp only [Desk.ask, Cache.start, started]
  rw [follow_of_answered (c := { c with writers }) answered]
  exact ⟨{ c with writers }.leave next, rfl, left, Desk.follow_of_outcome serve _ next events _ _⟩

theorem EmbeddedCache.ask_performs (serve : Service σ) (c : EmbeddedCache Nat) (server : σ)
    (now : Instant) (next : Nat) (operation : Operation) :
    Desk.ask serve ⟨.embedded c, server, now, next⟩ (.operate operation) =
      some (.finished (c.store.perform now operation).1,
        ⟨.embedded { c with store := (c.store.perform now operation).2.2 }, server, now,
          next + 1⟩) :=
  Desk.follow_of_outcome serve _ next _ _ _

theorem Desk.storing_gives_back {ttl length : Duration} {d : Desk σ}
    (lasts : d.Lasts serve ttl length) (key : String) (v : Json) (shape : Json.Shape) :
    ∃ d', (Program.storeAndBind key v ttl length shape).run serve d =
      some (⟨[.ok .done, Reading.of (.json shape) key v.bytes], none⟩, d') := by
  have stores : (HandleCall.store key (.object (.json v)) ttl false).operation =
      .ok (.set key v.bytes ttl) := rfl
  have binds : (HandleCall.get key (.json shape)).operation = .ok (.get key (.json shape)) := rfl
  -- Two calls and the wait between them make up the run.
  have runs : ∀ {d₁ d₂ : Desk σ} {outcome : Outcome},
      d.ask serve (.operate (.set key v.bytes ttl)) = some (.finished (.ok .done), d₁) →
      { d₁ with now := d₁.now.later length }.ask serve (.operate (.get key (.json shape))) =
        some (.finished outcome, d₂) →
      (Program.storeAndBind key v ttl length shape).run serve d =
        some (⟨[.ok .done, outcome], none⟩, d₂) := by
    intro d₁ d₂ outcome stored bound
    have rest : (Program.wait length
        (.call (.get key (.json shape)) fun _ => .done none)).run serve d₁ =
        some (Report.after ⟨[], none⟩ [outcome], d₂) := by
      rw [Program.run_of_wait]
      exact Program.run_of_call binds bound (Program.run_of_done serve none d₂)
    have all : (Program.storeAndBind key v ttl length shape).run serve d =
        some (Report.after ⟨[outcome], none⟩ [.ok .done], d₂) :=
      Program.run_of_call stores stored rest
    exact all
  cases lasts with
  | @embedded c server now next lasts =>
      have live := Store.live_after_set c.store now key v.bytes ttl (now.later length) key
      have unexpired : (Entry.write v.bytes now ttl.ttl?).isExpired (now.later length) = false :=
        lasts
      rw [if_pos rfl, Option.filter_some, unexpired, Bool.not_false, if_pos rfl] at live
      have found := Store.fetch_of_live _ _ live (.json shape)
      have second := EmbeddedCache.ask_performs serve
        { c with store := (c.store.perform now (.set key v.bytes ttl)).2.2 } server
        (now.later length) (next + 1) (.get key (.json shape))
      have told : (((c.store.perform now (.set key v.bytes ttl)).2.2).perform (now.later length)
          (.get key (.json shape))).1 = Reading.of (.json shape) key v.bytes := found
      rw [told] at second
      exact ⟨_, runs (EmbeddedCache.ask_performs serve c server now next _) second⟩
  | @networked shows c keeps alone link patience server now next lasts =>
      obtain ⟨s, answer, stored⟩ := keeps.set server now (c.ns.keyWord key) v.bytes
        (Command.expiryMillis ttl) (Exchange.expiry_fits ttl)
      have sets : (Exchange.ofOperation (.set key v.bytes ttl)).Answered serve now c.ns server
          (.ok .done) _ s := .finished answer rfl
      obtain ⟨c', named, alone', first⟩ :=
        NetworkedCache.ask_of_answered alone sets link patience next
      have shown := (stored.mine (Instant.nanos_le_later now length) v.bytes).mpr ⟨rfl, lasts⟩
      obtain ⟨s', answer', _⟩ := keeps.get s (now.later length) (c.ns.keyWord key)
      rw [shown] at answer'
      rw [← named] at answer'
      have gets : (Exchange.ofOperation (.get key (.json shape))).Answered serve (now.later length)
          c'.ns s (Reading.of (.json shape) key v.bytes) _ s' := .finished answer' rfl
      obtain ⟨_, _, _, second⟩ :=
        NetworkedCache.ask_of_answered alone' gets link patience (next + 1)
      exact ⟨_, runs first second⟩

/-- A value can be stored whatever its depth, and is bound as it was if that is at most 127. -/
theorem objects_bind_back {shape : Json.Shape} {v : Json} (holds : shape.Holds v)
    {ttl length : Duration} {d : Desk σ} (lasts : d.Lasts serve ttl length) (key : String) :
    ∃ outcome d', (Program.storeAndBind key v ttl length shape).run serve d =
        some (⟨[.ok .done, outcome], none⟩, d') ∧
      v.Bound key outcome := by
  obtain ⟨d', ran⟩ := Desk.storing_gives_back lasts key v shape
  exact ⟨_, d', ran, Json.bound_of_held holds key⟩

/-- A record with the greatest number, an escape and a list in it, at a networked cache. -/
theorem account_binds_back :
    let shape : Json.Shape := .record "Account"
      [("id", .u64, none), ("email", .text, none), ("roles", .list .text, none)]
    let v : Json := .object [("id", .whole (2 ^ 64 - 1 : Nat)), ("email", .text "a\"b\x01é"),
      ("roles", .list [.text "admin"])]
    let d : Desk PlainServer := ⟨.networked 0 .zero (.opened ⟨['a', 'p', 'p']⟩), ⟨[]⟩, .start, 0⟩
    shape.Holds v ∧ d.Lasts PlainServer.serve (.ofMillis 5) (.ofMillis 4) ∧
      ∃ d', (Program.storeAndBind "k" v (.ofMillis 5) (.ofMillis 4) shape).run PlainServer.serve d =
        some (⟨[.ok .done, .ok (.json v)], none⟩, d') := by
  intro shape v d
  have holds : shape.Holds v := by
    refine .record "Account" rfl (by decide) ?_
    simp only [List.zip_cons_cons, List.zip_nil_left, List.forall_mem_cons]
    refine ⟨.unsigned "u64" (by decide) (by decide), .text _, .list ?_, nofun⟩
    rintro _ (_ | ⟨_, ⟨⟩⟩)
    exact .text "admin"
  have lasts : d.Lasts PlainServer.serve (.ofMillis 5) (.ofMillis 4) :=
    .networked (PlainServer.keeps _) rfl 0 .zero _ 0 (by
      have five : Command.expiryMillis (.ofMillis 5) = some 5 := by decide
      rw [five]
      rintro _ ⟨⟩
      decide)
  obtain ⟨outcome, d', ran, bound⟩ := objects_bind_back holds lasts "k"
  have shallow : v.depth ≤ 127 := by decide
  rw [bound.returned.mpr shallow] at ran
  exact ⟨holds, lasts, d', ran⟩

end ExpiringCache
