import ExpiringCache.Proofs.Cache.TtlMap
import ExpiringCache.Proofs.Remote.MapServer
import ExpiringCache.Proofs.Remote.Millis
/-!
A namespace as a map with deadlines. The keys of one namespace on a server show, at every instant
from now on, what a map with deadlines would; no other keys start like them.
-/

namespace ExpiringCache

open MapServer

/-- A time to live that a server can be told exactly: none, or whole milliseconds that it can add to
its clock. -/
def Duration.Sendable (ttl : Duration) : Prop :=
  ∃ millis ≤ Command.longestMillis, ttl.toNanos = millis * nanosPerMilli

theorem Duration.expiry_of_sendable {ttl : Duration} (sendable : ttl.Sendable) :
    ttl.toNanos = 0 ∧ Command.expiryMillis ttl = none ∨
      ∃ millis, 0 < millis ∧ millis ≤ Command.longestMillis ∧
        ttl.toNanos = millis * nanosPerMilli ∧ Command.expiryMillis ttl = some millis := by
  obtain ⟨millis, fits, exact⟩ := sendable
  by_cases zero : ttl.toNanos = 0
  · exact .inl ⟨zero, (Command.expiry_eq_none_iff ttl).mpr (.inl zero)⟩
  · have positive : 0 < millis := by
      apply Nat.pos_of_ne_zero
      rintro rfl
      exact zero (by rw [exact, Nat.zero_mul])
    have whole : ttl.toNanos / nanosPerMilli = millis := by
      rw [exact, Nat.mul_div_cancel _ (by decide)]
    have told : millis = max (ttl.toNanos / nanosPerMilli) 1 := by
      rw [whole, Nat.max_eq_left positive]
    exact .inr ⟨millis, positive, fits, exact,
      (Command.expiry_eq_some_iff ttl millis).mpr ⟨zero, told, fits⟩⟩

def TtlMap.Lasts (m : TtlMap) (nanos : Nat) (key : String) (payload : Payload) : Prop :=
  ∃ deadline, m.held key = some (payload, deadline) ∧ ∀ d ∈ deadline, nanos < d

variable {σ : Type} {shows : Showing σ} {ns : Namespace} {s s' : σ} {now : Instant} {m : TtlMap}

structure Namespace.Holds (ns : Namespace) (shows : Showing σ) (s : σ) (now : Instant)
    (m : TtlMap) : Prop where
  clock : m.clock = now.toNanos
  ahead : ∀ {key payload deadline}, m.held key = some (payload, some deadline) →
    now.toNanos < deadline
  values : ∀ {u : Instant}, now.toNanos ≤ u.toNanos → ∀ key payload,
    shows s u (ns.keyWord key) = some payload ↔ m.Lasts u.toNanos key payload
  own : ∀ {u : Instant}, now.toNanos ≤ u.toNanos → ∀ {raw payload}, ns.stem <+: raw →
    shows s u raw = some payload → ∃ key, raw = ns.keyWord key

namespace Namespace

theorem holds_nothing (now : Instant)
    (vacant : ∀ {u : Instant}, now.toNanos ≤ u.toNanos → ∀ {raw}, ns.stem <+: raw →
      shows s u raw = none) {m : TtlMap} (clock : m.clock = now.toNanos)
    (empty : ∀ key, m.held key = none) : ns.Holds shows s now m where
  clock := clock
  ahead := by
    intro key payload deadline found
    rw [empty] at found
    cases found
  values := by
    intro u later key payload
    rw [vacant later (ns.stem_of_key_word key)]
    constructor
    · intro found
      cases found
    · rintro ⟨deadline, found, _⟩
      rw [empty] at found
      cases found
  own := by
    intro u later raw payload stem found
    rw [vacant later stem] at found
    cases found

theorem shows_now (holds : ns.Holds shows s now m) (key : String) :
    shows s now (ns.keyWord key) = (m.held key).map (·.1) := by
  apply Option.ext
  intro payload
  rw [holds.values (Nat.le_refl _), Option.map_eq_some_iff]
  constructor
  · rintro ⟨deadline, found, _⟩
    exact ⟨_, found, rfl⟩
  · rintro ⟨⟨_, deadline⟩, found, rfl⟩
    refine ⟨deadline, found, ?_⟩
    intro d there
    rw [there] at found
    exact holds.ahead found

theorem holds_of_same (holds : ns.Holds shows s now m) (same : SameFrom shows now s s') :
    ns.Holds shows s' now m where
  clock := holds.clock
  ahead := holds.ahead
  values := by
    intro u later key payload
    rw [same later]
    exact holds.values later key payload
  own := by
    intro u later raw payload stem found
    rw [same later] at found
    exact holds.own later stem found

theorem holds_after_jump (holds : ns.Holds shows s now m) (length : Duration) :
    ns.Holds shows s (now.later length) (m.advance length.toNanos) := by
  have clock : (m.advance length.toNanos).clock = (now.later length).toNanos := by
    rw [TtlMap.clock_after_advance, Instant.later_nanos, holds.clock]
  have forward := Instant.nanos_le_later now length
  have held : ∀ key payload deadline,
      (m.advance length.toNanos).held key = some (payload, deadline) ↔
        m.held key = some (payload, deadline) ∧ ∀ d ∈ deadline, (now.later length).toNanos < d := by
    intro key payload deadline
    rw [TtlMap.held_after_advance, Option.filter_eq_some_iff, clock, Option.all_eq_true]
    simp only [decide_eq_true_eq, Option.mem_def]
  refine ⟨clock, ?_, ?_, ?_⟩
  · intro key payload deadline found
    exact ((held key payload _).mp found).2 deadline rfl
  · intro u later key payload
    rw [holds.values (Nat.le_trans forward later)]
    -- What the jump drops has come to its deadline at every later point.
    constructor
    · rintro ⟨deadline, found, lasts⟩
      refine ⟨deadline, (held key payload deadline).mpr ⟨found, ?_⟩, lasts⟩
      intro d there
      exact Nat.lt_of_le_of_lt later (lasts d there)
    · rintro ⟨deadline, found, lasts⟩
      exact ⟨deadline, ((held key payload deadline).mp found).1, lasts⟩
  · intro u later raw payload stem found
    exact holds.own (Nat.le_trans forward later) stem found

theorem deadline_is_ahead {ttl : Duration} {deadline : Nat} (set : m.deadline? ttl = some deadline) :
    m.clock < deadline := by
  unfold TtlMap.deadline? at set
  split at set
  · cases set
  · next lasts =>
    cases set
    exact Nat.lt_add_of_pos_right (Nat.pos_of_ne_zero fun zero => lasts (.inl zero))

/-- A value that is stored with the milliseconds of its time to live lasts as long as in the map. -/
theorem lasts_of_sendable (clock : m.clock = now.toNanos) {ttl : Duration}
    (sendable : ttl.Sendable) (u : Instant) :
    (∀ ms ∈ Command.expiryMillis ttl, u.toNanos < now.toNanos + ms * nanosPerMilli) ↔
      ∀ d ∈ m.deadline? ttl, u.toNanos < d := by
  have bound := u.to_nanos_le_last
  rw [TtlMap.deadline?, clock]
  rcases Duration.expiry_of_sendable sendable with ⟨zero, unsent⟩ | ⟨millis, positive, _, exact, sent⟩
  · rw [unsent, if_pos (.inl zero)]
    exact ⟨nofun, nofun⟩
  · rw [sent]
    simp only [Option.mem_some_iff, forall_eq', ← exact]
    by_cases beyond : Instant.lastNanos < now.toNanos + ttl.toNanos
    · -- The clock stops before the deadline.
      have before : u.toNanos < now.toNanos + ttl.toNanos := Nat.lt_of_le_of_lt bound beyond
      rw [if_pos (.inr beyond)]
      exact ⟨fun _ => nofun, fun _ => before⟩
    · have reaches : ¬(ttl.toNanos = 0 ∨ Instant.lastNanos < now.toNanos + ttl.toNanos) := by
        rintro (zero | late)
        · have none := Nat.mul_pos positive (by decide : 0 < nanosPerMilli)
          rw [← exact, zero] at none
          exact Nat.lt_irrefl _ none
        · exact beyond late
      rw [if_neg reaches]
      simp

/-- A value that is stored with the milliseconds of its time to live. -/
theorem holds_after_put (holds : ns.Holds shows s now m) {ttl : Duration}
    (sendable : ttl.Sendable) {key : String} {payload : Payload}
    (stored : Stored shows now s (ns.keyWord key) payload (Command.expiryMillis ttl) s') :
    ns.Holds shows s' now (m.put key payload ttl) where
  clock := holds.clock
  ahead := by
    intro k value deadline found
    simp only [TtlMap.put] at found
    split at found
    · rw [← holds.clock]
      exact deadline_is_ahead (Prod.mk.inj (Option.some.inj found)).2
    · exact holds.ahead found
  values := by
    intro u later k value
    by_cases same : k = key
    · subst same
      rw [stored.mine later, lasts_of_sendable holds.clock sendable u]
      simp only [TtlMap.Lasts, TtlMap.put, if_pos, Option.some.injEq, Prod.mk.injEq]
      constructor
      · rintro ⟨rfl, lasts⟩
        exact ⟨_, ⟨rfl, rfl⟩, lasts⟩
      · rintro ⟨_, ⟨rfl, rfl⟩, lasts⟩
        exact ⟨rfl, lasts⟩
    · have other : ns.keyWord k ≠ ns.keyWord key := mt ns.key_word_injective same
      rw [stored.others later _ other, holds.values later]
      simp only [TtlMap.Lasts, TtlMap.put, if_neg same]
  own := by
    intro u later raw value stem found
    by_cases same : raw = ns.keyWord key
    · exact ⟨key, same⟩
    · rw [stored.others later _ same] at found
      exact holds.own later stem found

theorem holds_after_remove (holds : ns.Holds shows s now m) {key : String}
    (deleted : Deleted shows now s [ns.keyWord key] s') :
    ns.Holds shows s' now (m.remove key) where
  clock := holds.clock
  ahead := by
    intro k payload deadline found
    simp only [TtlMap.remove] at found
    split at found
    · cases found
    · exact holds.ahead found
  values := by
    intro u later k payload
    by_cases same : k = key
    · rw [deleted.mine later _ (by rw [same]; exact List.mem_singleton_self _)]
      simp [TtlMap.Lasts, TtlMap.remove, same]
    · have other : ns.keyWord k ∉ [ns.keyWord key] := by
        rw [List.mem_singleton]
        exact mt ns.key_word_injective same
      rw [deleted.others later _ other, holds.values later]
      simp only [TtlMap.Lasts, TtlMap.remove, if_neg same]
  own := by
    intro u later raw payload stem found
    by_cases same : raw ∈ [ns.keyWord key]
    · rw [deleted.mine later _ same] at found
      cases found
    · rw [deleted.others later _ same] at found
      exact holds.own later stem found

end Namespace

end ExpiringCache
