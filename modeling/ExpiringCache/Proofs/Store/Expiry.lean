import ExpiringCache.Proofs.Store.Live
/-!
How long entries last. An entry is over from the nanosecond on at which its whole time to live has
passed since it was written, and what is left to it before is the difference. An entry that was
given no time to live, or one whose end the clock cannot show, is never over.
-/

namespace ExpiringCache

/-- Whether the clock can show the end of a length of time that begins at `t`: the seconds of both,
with what their nanoseconds carry. -/
def Instant.Reaches (t : Instant) (d : Duration) : Prop :=
  t.secs + d.secs + ((t.nanos + d.nanos) / nanosPerSecond : Nat) ≤ lastSecond

theorem Instant.reaches_iff_nanos (t : Instant) (d : Duration) :
    t.Reaches d ↔ t.toNanos + d.toNanos ≤ lastNanos := by
  have tFirst := t.secs_bounds.1
  have tNanos := t.nanos_lt
  have dNanos := d.nanos_lt
  simp only [Reaches, last_nanos_eq, to_nanos_eq, Duration.toNanos, nanosPerSecond, firstSecond,
    lastSecond] at *
  omega

namespace Entry

/-- What time does to an entry that was written with a time to live. -/
structure Lasts (e : Entry) (written : Instant) (ttl : Option Duration) : Prop where
  expires : ∀ {d now}, ttl = some d → written.Reaches d → written.toNanos ≤ now.toNanos →
    (e.isExpired now = true ↔ d.toNanos ≤ now.toNanos - written.toNanos)
  left : ∀ {d now}, ttl = some d → written.Reaches d → written.toNanos ≤ now.toNanos →
    e.timeLeft now = some (.ofNanos (d.toNanos - (now.toNanos - written.toNanos)))
  spent : ∀ now, e.isExpired now = true ↔ e.timeLeft now = some .zero
  endless : (∀ d, ttl = some d → ¬ written.Reaches d) →
    ∀ now, e.isExpired now = false ∧ e.timeLeft now = none
  forGood : ∀ {now later}, e.isExpired now = true → now.toNanos ≤ later.toNanos →
    e.isExpired later = true

/-- A time to live whose end the clock can show ends at a deadline. -/
theorem deadline_of_reached (payload : Payload) {written : Instant} {d : Duration}
    (reaches : written.Reaches d) :
    ∃ deadline, (write payload written (some d)).deadline = some deadline ∧
      deadline.toNanos = written.toNanos + d.toNanos := by
  have fits := (written.reaches_iff_nanos d).mp reaches
  cases sum : written.plus? d with
  | none => exact absurd ((Instant.plus_eq_none_iff written d).mp sum) (Nat.not_lt.mpr fits)
  | some deadline => exact ⟨deadline, sum, (Instant.plus_eq_some_iff written d deadline).mp sum⟩

theorem no_deadline_of_unreached (payload : Payload) {written : Instant} {ttl : Option Duration}
    (unreached : ∀ d, ttl = some d → ¬ written.Reaches d) :
    (write payload written ttl).deadline = none := by
  cases ttl with
  | none => rfl
  | some d =>
      have beyond := mt (written.reaches_iff_nanos d).mpr (unreached d rfl)
      exact (Instant.plus_eq_none_iff written d).mpr (Nat.lt_of_not_le beyond)

/-- An entry is over exactly when it has no time left, whatever its deadline. -/
theorem expired_iff_spent (e : Entry) (now : Instant) :
    e.isExpired now = true ↔ e.timeLeft now = some .zero := by
  rw [expired_iff_nanos, timeLeft, Option.map_eq_some_iff]
  constructor
  · rintro ⟨deadline, found, passed⟩
    refine ⟨deadline, found, Duration.to_nanos_injective ?_⟩
    rw [Instant.since_nanos]
    exact Nat.sub_eq_zero_of_le passed
  · rintro ⟨deadline, found, nothing⟩
    refine ⟨deadline, found, Nat.le_of_sub_eq_zero ?_⟩
    rw [← Instant.since_nanos, nothing]
    rfl

end Entry

theorem Store.time_left_positive (store : Store) (now : Instant) (key : String) :
    store.timeLeft? now key ≠ some (some .zero) := by
  intro shown
  obtain ⟨e, live, left⟩ := Option.map_eq_some_iff.mp shown
  have expired := (e.expired_iff_spent now).mpr left
  have lasting := (Option.filter_eq_some_iff.mp live).2
  rw [expired] at lasting
  cases lasting

/-- Times to live are kept to the nanosecond, and what a read transaction reports as left of one is
never nothing. -/
theorem Entry.time_to_live_is_exact (payload : Payload) (written : Instant)
    (ttl : Option Duration) :
    (write payload written ttl).Lasts written ttl ∧
      ∀ (store : Store) (now : Instant) (key : String),
        (store.view now (.timeLeft key)).1 ≠ .timeLeft (some (some .zero)) := by
  refine ⟨⟨?_, ?_, ?_, ?_, ?_⟩, ?_⟩
  · rintro d now rfl reaches order
    obtain ⟨deadline, found, value⟩ := deadline_of_reached payload reaches
    rw [expired_iff_nanos, found]
    simp only [Option.some.injEq, exists_eq_left', value]
    omega
  · rintro d now rfl reaches order
    obtain ⟨deadline, found, value⟩ := deadline_of_reached payload reaches
    rw [timeLeft, found, Option.map_some, Option.some.injEq]
    apply Duration.to_nanos_injective
    rw [Instant.since_nanos, Duration.to_nanos_of_nanos, value]
    omega
  · exact expired_iff_spent _
  · intro unreached now
    have lasting := no_deadline_of_unreached payload unreached
    simp only [isExpired, timeLeft, lasting, Option.map_none, and_self]
  · exact expired_later
  · intro store now key shown
    exact store.time_left_positive now key (ReadAnswer.timeLeft.inj shown)

end ExpiringCache
