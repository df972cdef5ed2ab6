import ExpiringCache.Proofs.Number.Whole
import ExpiringCache.Time
/-!
Clock arithmetic in plain numbers. Points and lengths of time are pairs of seconds and nanoseconds;
read as numbers of nanoseconds, comparison, addition with its carry and subtraction with its borrow
are those of the natural numbers, cut off at the last point that the clock can show.
-/

namespace ExpiringCache

namespace Duration

theorem to_nanos_of_nanos (n : Nat) : (ofNanos n).toNanos = n := by
  simp only [toNanos, ofNanos, nanosPerSecond]
  omega

theorem to_nanos_injective {d e : Duration} (same : d.toNanos = e.toNanos) : d = e := by
  obtain ⟨dSecs, dNanos, dBound⟩ := d
  obtain ⟨eSecs, eNanos, eBound⟩ := e
  simp only [toNanos, nanosPerSecond] at same dBound eBound
  have secs : dSecs = eSecs := by omega
  have nanos : dNanos = eNanos := by omega
  subst secs nanos
  rfl

theorem of_nanos_to_nanos (d : Duration) : ofNanos d.toNanos = d :=
  to_nanos_injective (to_nanos_of_nanos _)

theorem is_zero_iff_nanos (d : Duration) : d.isZero = true ↔ d.toNanos = 0 := by
  simp only [isZero, toNanos, nanosPerSecond, Bool.and_eq_true, beq_iff_eq]
  omega

theorem ttl_of_zero {d : Duration} (zero : d.toNanos = 0) : d.ttl? = none := by
  simp [ttl?, (is_zero_iff_nanos d).mpr zero]

theorem ttl_of_positive {d : Duration} (positive : d.toNanos ≠ 0) : d.ttl? = some d := by
  have nonzero : d.isZero ≠ true := mt (is_zero_iff_nanos d).mp positive
  simp [ttl?, nonzero]

theorem of_millis_nanos (ms : Nat) : (ofMillis ms).toNanos = ms * nanosPerMilli :=
  to_nanos_of_nanos _

theorem whole_millis_nanos (d : Duration) : d.wholeMillis = d.toNanos / nanosPerMilli := by
  simp only [wholeMillis, toNanos, nanosPerSecond, nanosPerMilli]
  omega

end Duration

namespace Instant

def lastNanos : Nat := last.toNanos

theorem to_nanos_eq (t : Instant) :
    t.toNanos = (t.secs - firstSecond).toNat * nanosPerSecond + t.nanos := rfl

theorem last_nanos_eq : lastNanos = 18446744073709551615999999999 := rfl

theorem secs_fit_iff (secs : Int) :
    (Number.Range.signed 64).contains secs = true ↔ firstSecond ≤ secs ∧ secs ≤ lastSecond :=
  Number.contains_iff _ secs

theorem secs_bounds (t : Instant) : firstSecond ≤ t.secs ∧ t.secs ≤ lastSecond :=
  (secs_fit_iff t.secs).mp t.secs_fit

theorem to_nanos_injective {s t : Instant} (same : s.toNanos = t.toNanos) : s = t := by
  have sFirst := s.secs_bounds.1
  have tFirst := t.secs_bounds.1
  obtain ⟨sSecs, sNanos, _, sBound⟩ := s
  obtain ⟨tSecs, tNanos, _, tBound⟩ := t
  simp only [to_nanos_eq, nanosPerSecond, firstSecond] at same sFirst tFirst sBound tBound
  have secs : sSecs = tSecs := by omega
  have nanos : sNanos = tNanos := by omega
  subst secs nanos
  rfl

theorem to_nanos_le_last (t : Instant) : t.toNanos ≤ lastNanos := by
  have secs := t.secs_bounds
  have nanos := t.nanos_lt
  simp only [last_nanos_eq, to_nanos_eq, nanosPerSecond, firstSecond, lastSecond] at *
  omega

theorem before_iff_nanos (s t : Instant) : s.before t = true ↔ s.toNanos < t.toNanos := by
  have sNanos := s.nanos_lt
  have tNanos := t.nanos_lt
  have sFirst := s.secs_bounds.1
  have tFirst := t.secs_bounds.1
  simp only [before, to_nanos_eq, nanosPerSecond, firstSecond, Bool.or_eq_true, Bool.and_eq_true,
    decide_eq_true_eq, beq_iff_eq] at *
  omega

theorem reached_iff_nanos (t now : Instant) : t.reached now = true ↔ t.toNanos ≤ now.toNanos := by
  simp only [reached, Bool.not_eq_true', Bool.eq_false_iff, ne_eq, before_iff_nanos]
  omega

theorem ahead_iff_not_reached (t now : Instant) :
    decide (now.toNanos < t.toNanos) = !t.reached now := by
  cases check : t.reached now with
  | true =>
      have passed := (reached_iff_nanos t now).mp check
      exact decide_eq_false (Nat.not_lt.mpr passed)
  | false =>
      have ahead := mt (reached_iff_nanos t now).mpr (by simp [check])
      exact decide_eq_true (Nat.lt_of_not_le ahead)

theorem plus_eq_some_iff (t : Instant) (d : Duration) (u : Instant) :
    t.plus? d = some u ↔ u.toNanos = t.toNanos + d.toNanos := by
  have second : nanosPerSecond = 1000000000 := rfl
  have firstOne : firstSecond = -9223372036854775808 := rfl
  have lastOne : lastSecond = 9223372036854775807 := rfl
  have begins := t.secs_bounds.1
  have exact : ∀ v, t.plus? d = some v → v.toNanos = t.toNanos + d.toNanos := by
    intro v sum
    simp only [plus?] at sum
    split at sum <;> split at sum
    · cases sum
      simp only [to_nanos_eq, Duration.toNanos, nanosPerSecond]
      omega
    · cases sum
    · cases sum
      simp only [to_nanos_eq, Duration.toNanos, nanosPerSecond]
      omega
    · cases sum
  constructor
  · exact exact u
  · intro same
    cases sum : t.plus? d with
    | some v => rw [to_nanos_injective (same.trans (exact v sum).symm)]
    | none =>
        have secs := u.secs_bounds
        have nanos := u.nanos_lt
        have tNanos := t.nanos_lt
        have dNanos := d.nanos_lt
        simp only [to_nanos_eq, Duration.toNanos, nanosPerSecond] at same
        simp only [plus?] at sum
        split at sum <;> split at sum
        · cases sum
        · next beyond =>
          rw [secs_fit_iff] at beyond
          omega
        · cases sum
        · next beyond =>
          rw [secs_fit_iff] at beyond
          omega

theorem of_nanos_exists {n : Nat} (fits : n ≤ lastNanos) : ∃ t : Instant, t.toNanos = n := by
  rw [last_nanos_eq] at fits
  refine ⟨⟨firstSecond + (n / nanosPerSecond : Nat), n % nanosPerSecond, ?_,
    Nat.mod_lt _ (by decide)⟩, ?_⟩
  · rw [secs_fit_iff]
    simp only [nanosPerSecond, firstSecond, lastSecond]
    omega
  · simp only [to_nanos_eq, nanosPerSecond]
    omega

/-- The clock fails to show a sum only where it has come to its end. -/
theorem plus_eq_none_iff (t : Instant) (d : Duration) :
    t.plus? d = none ↔ lastNanos < t.toNanos + d.toNanos := by
  cases sum : t.plus? d with
  | some u =>
      have value := (plus_eq_some_iff t d u).mp sum
      have bound := u.to_nanos_le_last
      simp only [reduceCtorEq, false_iff]
      omega
  | none =>
      simp only [true_iff]
      apply Nat.lt_of_not_le
      intro fits
      obtain ⟨u, value⟩ := of_nanos_exists fits
      rw [(plus_eq_some_iff t d u).mpr value] at sum
      cases sum

theorem later_nanos (t : Instant) (d : Duration) :
    (t.later d).toNanos = min (t.toNanos + d.toNanos) lastNanos := by
  unfold later
  cases sum : t.plus? d with
  | some u =>
      have value := (plus_eq_some_iff t d u).mp sum
      have bound := u.to_nanos_le_last
      simp only [Option.getD_some]
      omega
  | none =>
      have beyond := (plus_eq_none_iff t d).mp sum
      simp only [Option.getD_none, lastNanos] at *
      omega

theorem nanos_le_later (t : Instant) (d : Duration) : t.toNanos ≤ (t.later d).toNanos := by
  have bound := t.to_nanos_le_last
  rw [later_nanos]
  omega

theorem since_nanos (t earlier : Instant) :
    (t.since earlier).toNanos = t.toNanos - earlier.toNanos := by
  have tNanos := t.nanos_lt
  have tFirst := t.secs_bounds.1
  have earlierNanos := earlier.nanos_lt
  have earlierFirst := earlier.secs_bounds.1
  unfold since
  split
  · next first =>
      have order := (before_iff_nanos t earlier).mp first
      have zero : Duration.zero.toNanos = 0 := rfl
      omega
  · next notFirst =>
      have order := mt (before_iff_nanos t earlier).mpr notFirst
      split
      · simp only [to_nanos_eq, Duration.toNanos, nanosPerSecond, firstSecond] at *
        omega
      · simp only [to_nanos_eq, Duration.toNanos, nanosPerSecond, firstSecond] at *
        omega

/-! ### Timers -/

def Whole (t : Instant) : Prop := t.toNanos % nanosPerMilli = 0

theorem start_whole : start.Whole := rfl

theorem last_not_whole : ¬ last.Whole := by
  unfold Whole
  decide

/-- A timer stands at the first whole millisecond that is late enough, where the clock has one. -/
theorem timer_rounds_up (t : Instant) (d : Duration) :
    (t.timer d).toNanos =
      min (((t.later d).toNanos + (nanosPerMilli - 1)) / nanosPerMilli * nanosPerMilli)
        lastNanos := by
  have fromFirst : first.toNanos = 0 := rfl
  rw [timer, later_nanos, fromFirst, Duration.of_millis_nanos, Nat.zero_add]
  rfl

theorem timer_nanos {t : Instant} (whole : t.Whole) (ms : Nat) :
    (t.timer (.ofMillis ms)).toNanos = min (t.toNanos + ms * nanosPerMilli) lastNanos := by
  rw [timer_rounds_up, later_nanos, Duration.of_millis_nanos, last_nanos_eq]
  simp only [Whole, nanosPerMilli] at whole ⊢
  omega

theorem timer_whole_or_last (t : Instant) (d : Duration) :
    (t.timer d).Whole ∨ t.timer d = last := by
  have value := timer_rounds_up t d
  rcases Nat.le_total
    (((t.later d).toNanos + (nanosPerMilli - 1)) / nanosPerMilli * nanosPerMilli) lastNanos
    with fits | beyond
  · left
    rw [Nat.min_eq_left fits] at value
    rw [Whole, value]
    exact Nat.mul_mod_left _ _
  · right
    rw [Nat.min_eq_right beyond] at value
    exact to_nanos_injective value

/-- A clock at a whole millisecond waits until the last one that is not after the timer. -/
theorem wait_for_nanos {now : Instant} (whole : now.Whole) (t : Instant) :
    (now.waitFor t).toNanos = max now.toNanos (t.toNanos / nanosPerMilli * nanosPerMilli) := by
  have bound := now.to_nanos_le_last
  have tBound := t.to_nanos_le_last
  have same : now.age.toNanos = now.toNanos := rfl
  have tSame : t.age.toNanos = t.toNanos := rfl
  rw [waitFor, later_nanos, Duration.of_millis_nanos, Duration.whole_millis_nanos,
    Duration.whole_millis_nanos, same, tSame]
  simp only [Whole, nanosPerMilli] at whole ⊢
  omega

theorem wait_for_whole {now : Instant} (whole : now.Whole) (t : Instant) :
    (now.waitFor t).Whole := by
  have value := wait_for_nanos whole t
  simp only [Whole, nanosPerMilli] at *
  omega

end Instant

end ExpiringCache
