import QueryViews.Calendar.Date

/-! Dates and their numbers. Taking cycles of years off a number of days leaves a day of the year
that is found, and the date that is found has this number again. -/

namespace QueryViews.Calendar

def yearLength (year : Int) : Nat := if isLeapYear year then 366 else 365

theorem days_monthLengths (year : Int) :
    (monthLengths year).foldl (· + ·) 0 = yearLength year := by
  unfold monthLengths yearLength
  cases isLeapYear year <;> rfl

namespace Date

/-- Month and day are in the calendar of the year. -/
def InYear (d : Date) : Prop :=
  1 ≤ d.month ∧ d.month ≤ 12 ∧ 1 ≤ d.day ∧ d.day ≤ (monthLengths d.year).getD (d.month - 1) 0

theorem isValid_iff {d : Date} :
    d.isValid = true ↔ (firstYear ≤ d.year ∧ d.year ≤ lastYear) ∧ d.InYear := by
  simp only [isValid, Bool.and_eq_true, decide_eq_true_eq, InYear, and_assoc]

theorem foldl_add_eq (lengths : List Nat) (start : Nat) :
    lengths.foldl (· + ·) start = start + lengths.foldl (· + ·) 0 := by
  induction lengths generalizing start with
  | nil => rfl
  | cons length rest ih =>
    rw [List.foldl_cons, List.foldl_cons, ih (start + length), ih (0 + length)]
    omega

/-- Days within the months given fall into one of them, behind the days of those before it. -/
theorem monthAndDay_spec {lengths : List Nat} {days : Nat}
    (within : days < lengths.foldl (· + ·) 0) (first : Nat) :
    ∃ passed < lengths.length, ∃ day,
      monthAndDay first lengths days = (first + passed, day) ∧ 1 ≤ day ∧
        day ≤ lengths.getD passed 0 ∧ (lengths.take passed).foldl (· + ·) 0 + day = days + 1 := by
  induction lengths generalizing first days with
  | nil => exact absurd within (Nat.not_lt_zero days)
  | cons length rest ih =>
    rw [monthAndDay]
    split
    next inside =>
      exact ⟨0, Nat.zero_lt_succ _, days + 1, rfl, Nat.le_add_left 1 days, inside, Nat.zero_add _⟩
    next beyond =>
      rw [List.foldl_cons, foldl_add_eq] at within
      have left : days - length < rest.foldl (· + ·) 0 := by omega
      obtain ⟨passed, short, day, found, positive, bounded, count⟩ := ih left (first + 1)
      refine ⟨passed + 1, Nat.succ_lt_succ short, day, ?_, positive, bounded, ?_⟩
      · rw [found, Nat.add_right_comm, Nat.add_assoc]
      · rw [List.take_succ_cons, List.foldl_cons, foldl_add_eq]
        omega

/-- Four centuries, one, four years and one year of a cycle make up the days before a year. -/
theorem daysBeforeYear_of_cycles {eras centuries quads years : Int} (century : 0 ≤ centuries)
    (fourth : centuries ≤ 3) (quad : 0 ≤ quads) (last : quads ≤ 24) (year : 0 ≤ years)
    (third : years ≤ 3) :
    daysBeforeYear (eras * 400 + centuries * 100 + quads * 4 + years + 1) =
      eras * 146097 + centuries * 36524 + quads * 1461 + years * 365 := by
  unfold daysBeforeYear
  omega

theorem isLeapYear_of_cycles {eras centuries quads years : Int} (last : years = 3)
    (regular : quads ≠ 24 ∨ centuries = 3) (quad : 0 ≤ quads) (most : quads ≤ 24) :
    isLeapYear (eras * 400 + centuries * 100 + quads * 4 + years + 1) = true := by
  simp only [isLeapYear, Bool.and_eq_true, Bool.or_eq_true, decide_eq_true_eq]
  omega

/-- Behind the years that are taken off, the days left belong to the year that follows. -/
theorem ofDayNumber_year (number : Int) :
    ∃ year, ∃ days < yearLength year, daysBeforeYear year + days = number + epochDays ∧
      ofDayNumber number =
        ⟨year, (monthAndDay 1 (monthLengths year) days).1,
          (monthAndDay 1 (monthLengths year) days).2⟩ := by
  let days := number + epochDays
  let eras := days / 146097
  let inCycle := days % 146097
  let centuries := min (inCycle / 36524) 3
  let inCentury := inCycle - centuries * 36524
  let quads := inCentury / 1461
  let inQuad := inCentury - quads * 1461
  let years := min (inQuad / 365) 3
  have cycles : days = eras * 146097 + inCycle ∧ 0 ≤ inCycle ∧ inCycle < 146097 := by omega
  have century : 0 ≤ centuries ∧ centuries ≤ 3 ∧ 0 ≤ inCentury ∧
      (inCentury < 36524 ∨ centuries = 3 ∧ inCentury = 36524) := by omega
  have quad : 0 ≤ quads ∧ quads ≤ 24 ∧ 0 ≤ inQuad ∧ inQuad < 1461 := by omega
  have year : 0 ≤ years ∧ years ≤ 3 ∧ 0 ≤ inQuad - years * 365 ∧
      (inQuad - years * 365 < 365 ∨ years = 3 ∧ inQuad - years * 365 = 365) := by omega
  refine ⟨eras * 400 + centuries * 100 + quads * 4 + years + 1, (inQuad - years * 365).toNat,
    ?_, ?_, rfl⟩
  · unfold yearLength
    split
    · omega
    next common =>
      rcases year.2.2.2 with inside | ⟨last, extra⟩
      · omega
      · refine absurd (isLeapYear_of_cycles last ?_ quad.1 quad.2.1) common
        omega
  · rw [daysBeforeYear_of_cycles century.1 century.2.1 quad.1 quad.2.1 year.1 year.2.1]
    omega

/-- The date of a number is in the calendar, and has that number. -/
theorem dayNumber_ofDayNumber (number : Int) :
    (ofDayNumber number).InYear ∧ (ofDayNumber number).dayNumber = number := by
  obtain ⟨year, days, inside, count, found⟩ := ofDayNumber_year number
  have within : days < (monthLengths year).foldl (· + ·) 0 := (days_monthLengths year).symm ▸ inside
  obtain ⟨passed, months, day, split, positive, bounded, before⟩ := monthAndDay_spec within 1
  have twelve : (monthLengths year).length = 12 := rfl
  have place : 1 + passed - 1 = passed := Nat.add_sub_cancel_left 1 passed
  rw [found, split]
  refine ⟨⟨?_, ?_, positive, ?_⟩, ?_⟩
  · exact Nat.le_add_right 1 passed
  · show 1 + passed ≤ 12
    omega
  · show day ≤ (monthLengths year).getD (1 + passed - 1) 0
    rw [place]
    exact bounded
  · have months : daysBeforeMonth year (1 + passed) =
        ((monthLengths year).take passed).foldl (· + ·) 0 := by
      rw [daysBeforeMonth, place]
    simp only [dayNumber, months]
    omega

end Date
end QueryViews.Calendar
