import ExpiringCache.Proofs.Time
import ExpiringCache.Remote.Command
/-!
The milliseconds that a server is told. They are those of the time to live, a begun one dropped but
never the only one, and a server can add them to its clock; a time to live that is no time, or too
long to be added, is not told.
-/

namespace ExpiringCache

namespace Command

variable {ttl longer : Duration} {n m : Nat}

theorem expiry_eq_some_iff (ttl : Duration) (n : Nat) :
    expiryMillis ttl = some n ↔
      ttl.toNanos ≠ 0 ∧ n = max (ttl.toNanos / nanosPerMilli) 1 ∧ n ≤ longestMillis := by
  unfold expiryMillis
  rw [← Duration.whole_millis_nanos]
  split
  · next zero => simp [(Duration.is_zero_iff_nanos ttl).mp zero]
  · next positive =>
    have lasting := mt (Duration.is_zero_iff_nanos ttl).mpr positive
    simp only
    split
    · next fits =>
      constructor
      · intro same
        cases same
        exact ⟨lasting, rfl, fits⟩
      · rintro ⟨_, rfl, _⟩
        rfl
    · next beyond =>
      constructor
      · nofun
      · rintro ⟨_, rfl, fits⟩
        exact absurd fits beyond

theorem expiry_eq_none_iff (ttl : Duration) :
    expiryMillis ttl = none ↔
      ttl.toNanos = 0 ∨ longestMillis < ttl.toNanos / nanosPerMilli := by
  have one : 1 ≤ longestMillis := by decide
  have sent := expiry_eq_some_iff ttl
  constructor
  · intro unsent
    by_cases zero : ttl.toNanos = 0
    · exact .inl zero
    · refine .inr (Nat.lt_of_not_le fun fits => ?_)
      have found := (sent _).mpr ⟨zero, rfl, Nat.max_le.mpr ⟨fits, one⟩⟩
      rw [unsent] at found
      cases found
  · intro never
    cases found : expiryMillis ttl with
    | none => rfl
    | some n =>
        obtain ⟨lasting, rfl, fits⟩ := (sent n).mp found
        rcases never with zero | beyond
        · exact absurd zero lasting
        · exact absurd (Nat.le_trans (Nat.le_max_left _ _) fits) (Nat.not_le.mpr beyond)

theorem expiry_bounds (sent : expiryMillis ttl = some n) : 1 ≤ n ∧ n ≤ longestMillis := by
  obtain ⟨_, rfl, fits⟩ := (expiry_eq_some_iff ttl n).mp sent
  exact ⟨Nat.le_max_right _ _, fits⟩

/-- What is dropped, or added to make one whole millisecond, is less than one. -/
theorem expiry_close (sent : expiryMillis ttl = some n) :
    n * nanosPerMilli < ttl.toNanos + nanosPerMilli ∧
      ttl.toNanos < n * nanosPerMilli + nanosPerMilli := by
  obtain ⟨lasting, rfl, _⟩ := (expiry_eq_some_iff ttl n).mp sent
  simp only [nanosPerMilli]
  omega

theorem expiry_ordered (sent : expiryMillis ttl = some n) (later : expiryMillis longer = some m)
    (order : ttl.toNanos ≤ longer.toNanos) : n ≤ m := by
  obtain ⟨_, rfl, _⟩ := (expiry_eq_some_iff ttl n).mp sent
  obtain ⟨_, rfl, _⟩ := (expiry_eq_some_iff longer m).mp later
  simp only [nanosPerMilli]
  omega

end Command

end ExpiringCache
