import QueryViews.Decode.Format
import QueryViews.Proofs.Calendar.PrintedInstants

/-! Timestamps are printed as instants. What the format returns is a date-time of RFC 3339, and its
own timestamp, in the years 0 to 9999. Instants of other years are taken too, but what they are
printed as is neither. -/

namespace QueryViews.Format

open Calendar

theorem timestamp_string (text : String) :
    timestamp (.string text) =
      match Instant.read? text with
      | some i => .ok (.string i.toString)
      | none => .error (.format (.string text) .notTimestamp) := rfl

/-- What is returned is the text of the instant that was found in the value. -/
theorem exists_instant {v w : Json} (taken : timestamp v = .ok w) :
    ∃ i : Instant, w = .string i.toString ∧ i.Regular ∧
      ((∃ text, v = .string text ∧ Instant.read? text = some i) ∨
        ∃ seconds, v = .whole seconds ∧ i = ⟨seconds, 0⟩) := by
  cases v with
  | string text =>
    rw [timestamp_string] at taken
    split at taken
    next i read =>
      exact ⟨i, (Except.ok.inj taken).symm, Instant.regular_of_read? read, .inl ⟨text, rfl, read⟩⟩
    next => cases taken
  | whole seconds =>
    simp only [timestamp] at taken
    split at taken
    next i found =>
      split at found
      next =>
        obtain rfl := Instant.eq_of_ofSeconds? found
        exact ⟨_, (Except.ok.inj taken).symm, Instant.regular_of_seconds seconds,
          .inr ⟨seconds, rfl, rfl⟩⟩
      next => cases found
    next => cases taken
  | null => cases taken
  | bool => cases taken
  | float => cases taken
  | array => cases taken
  | object => cases taken

/-- A timestamp is the text of the instant that was given as text or in seconds. If that is in the
years 0 to 9999, the text is a date-time of RFC 3339 and its own timestamp. Otherwise it is no such
date-time, and no timestamp either. -/
theorem timestamp_of_timestamp {v w : Json} (taken : timestamp v = .ok w) :
    ∃ i : Instant, w = .string i.toString ∧
      ((∃ text, v = .string text ∧ Instant.read? text = some i) ∨
        ∃ seconds, v = .whole seconds ∧ i = ⟨seconds, 0⟩) ∧
      if 0 ≤ i.toMoment.date.year ∧ i.toMoment.date.year ≤ 9999 then
        IsDateTime i.toString.toList ∧ timestamp w = .ok w
      else
        ¬IsDateTime i.toString.toList ∧ timestamp w = .error (.format w .notTimestamp) := by
  obtain ⟨i, rfl, regular, given⟩ := exists_instant taken
  refine ⟨i, rfl, given, ?_⟩
  rw [Instant.toList_toString, timestamp_string]
  split
  next short =>
    rw [Instant.read?_toString regular short]
    exact ⟨(Instant.onClock_toMoment regular).isDateTime short, rfl⟩
  next long =>
    rw [Instant.read?_of_sign regular long]
    exact ⟨Moment.not_isDateTime long, rfl⟩

/-- A leap second just before a new year, on a clock that is an hour ahead. -/
theorem timestamp_of_timestamp_leap :
    timestamp (.string "2017-01-01 00:59:60.25+01:00") =
        .ok (.string "2016-12-31T23:59:60.250Z") ∧
      IsDateTime "2016-12-31T23:59:60.250Z".toList ∧
      timestamp (.string "2016-12-31T23:59:60.250Z") =
        .ok (.string "2016-12-31T23:59:60.250Z") := by
  have read : Instant.read? "2017-01-01 00:59:60.25+01:00" = some ⟨1483228799, 1250000000⟩ := by
    decide
  have printed : Instant.toString ⟨1483228799, 1250000000⟩ = "2016-12-31T23:59:60.250Z" := by
    decide
  have taken : timestamp (.string "2017-01-01 00:59:60.25+01:00") =
      .ok (.string "2016-12-31T23:59:60.250Z") := by
    rw [timestamp_string, read, ← printed]
  obtain ⟨i, same, given, normal⟩ := timestamp_of_timestamp taken
  rcases given with ⟨text, same, found⟩ | ⟨seconds, none, -⟩
  · obtain rfl := Json.string.inj same
    obtain rfl := Option.some.inj (read.symm.trans found)
    rw [if_pos (by decide), printed] at normal
    exact ⟨taken, normal⟩
  · cases none

/-- The first second of the year 10000 is taken, and its timestamp is not. -/
theorem not_timestamp_of_year :
    timestamp (.whole 253402300800) = .ok (.string "+10000-01-01T00:00:00Z") ∧
      ¬IsDateTime "+10000-01-01T00:00:00Z".toList ∧
      timestamp (.string "+10000-01-01T00:00:00Z") =
        .error (.format (.string "+10000-01-01T00:00:00Z") .notTimestamp) := by
  have found : Instant.ofSeconds? 253402300800 = some ⟨253402300800, 0⟩ := by decide
  have printed : Instant.toString ⟨253402300800, 0⟩ = "+10000-01-01T00:00:00Z" := by decide
  have signed : "+10000-01-01T00:00:00Z".toList = '+' :: "10000-01-01T00:00:00Z".toList := by
    decide
  have unread : Instant.read? "+10000-01-01T00:00:00Z" = none := by decide
  have inRange : (253402300800 : Int) < Text.integerBound := by decide
  refine ⟨?_, fun written => ?_, ?_⟩
  · simp only [timestamp, if_pos inRange, found, printed]
  · rw [signed] at written
    cases written.isDigit_head
  · rw [timestamp_string, unread]

end QueryViews.Format
