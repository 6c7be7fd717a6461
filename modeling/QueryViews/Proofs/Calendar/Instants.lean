import QueryViews.Calendar.Instant
import QueryViews.Proofs.Calendar.DayNumbers

/-! Instants and moments. Leap seconds stand at the end of a minute on every clock whose offset is
one of whole minutes, so the UTC moment of an instant that was read stands for that instant. -/

namespace QueryViews.Calendar

/-- Less than a second on top of the seconds, or less than two at the end of a minute. -/
def Instant.Regular (i : Instant) : Prop :=
  i.nanos < nanosPerSecond ∨ i.seconds % 60 = 59 ∧ i.nanos < 2 * nanosPerSecond

namespace Moment
variable {m : Moment}

/-- The time of day is one that a clock shows, and the date is in the calendar. -/
structure OnClock (m : Moment) : Prop where
  date : m.date.InYear
  hour : m.hour < 24
  minute : m.minute < 60
  second : m.second ≤ 60
  nanos : m.nanos < nanosPerSecond

theorem isValid_iff : m.isValid = true ↔
    m.date.isValid = true ∧ m.hour < 24 ∧ m.minute < 60 ∧ m.second ≤ 60 := by
  simp only [isValid, Bool.and_eq_true, decide_eq_true_eq, and_assoc]

theorem regular_toInstant (valid : m.isValid = true) (nanos : m.nanos < nanosPerSecond)
    {ahead : Int} (minutes : ahead % 60 = 0) : (m.toInstant ahead).Regular := by
  obtain ⟨-, -, -, second⟩ := isValid_iff.1 valid
  unfold Instant.Regular toInstant
  simp only [secondsPerDay, nanosPerSecond] at nanos ⊢
  split <;> omega

end Moment

namespace Instant

theorem onClock_toMoment {i : Instant} (regular : i.Regular) : i.toMoment.OnClock := by
  unfold Regular at regular
  simp only [nanosPerSecond] at regular
  constructor
  · exact (Date.dayNumber_ofDayNumber _).1
  all_goals simp only [toMoment, secondsPerDay, nanosPerSecond]; omega

/-- A regular instant is that of its moment. -/
theorem toInstant_toMoment {i : Instant} (regular : i.Regular) :
    i.toMoment.toInstant 0 = i := by
  obtain ⟨seconds, nanos⟩ := i
  have stands : nanos < 1000000000 ∨ seconds % 60 = 59 ∧ nanos < 2 * 1000000000 := regular
  have day : (toMoment ⟨seconds, nanos⟩).date.dayNumber = seconds / 86400 :=
    (Date.dayNumber_ofDayNumber _).2
  have second : (toMoment ⟨seconds, nanos⟩).second =
    (seconds % 86400).toNat % 60 + nanos / 1000000000 := rfl
  by_cases leap : (toMoment ⟨seconds, nanos⟩).second = 60
  · simp only [Moment.toInstant, if_pos leap, day]
    simp only [toMoment, secondsPerDay, nanosPerSecond, Instant.mk.injEq]
    omega
  · simp only [Moment.toInstant, if_neg leap, day]
    simp only [toMoment, secondsPerDay, nanosPerSecond, Instant.mk.injEq]
    omega

theorem regular_of_seconds (seconds : Int) : Regular ⟨seconds, 0⟩ := .inl (Nat.zero_lt_succ _)

theorem eq_of_ofSeconds? {seconds : Int} {i : Instant} (given : ofSeconds? seconds = some i) :
    i = ⟨seconds, 0⟩ := by
  unfold ofSeconds? at given
  simp only at given
  split at given
  · exact (Option.some.inj given).symm
  · cases given

end Instant
end QueryViews.Calendar
