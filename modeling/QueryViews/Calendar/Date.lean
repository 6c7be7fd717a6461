/-! Dates of the proleptic Gregorian calendar and their numbers, counted in days from the first
of January 1970. -/

namespace QueryViews.Calendar

structure Date where
  year : Int
  month : Nat
  day : Nat
deriving DecidableEq, Repr

def isLeapYear (year : Int) : Bool := year % 4 = 0 && (year % 100 ≠ 0 || year % 400 = 0)

def monthLengths (year : Int) : List Nat :=
  [31, if isLeapYear year then 29 else 28, 31, 30, 31, 30, 31, 31, 30, 31, 30, 31]

/-- The years that dates can be given in. -/
def firstYear : Int := -262143
def lastYear : Int := 262142

namespace Date

def isValid (d : Date) : Bool :=
  firstYear ≤ d.year && d.year ≤ lastYear && 1 ≤ d.month && d.month ≤ 12 && 1 ≤ d.day
    && d.day ≤ (monthLengths d.year).getD (d.month - 1) 0

/-- The days of the months before this one. -/
def daysBeforeMonth (year : Int) (month : Nat) : Nat :=
  ((monthLengths year).take (month - 1)).foldl (· + ·) 0

/-- The days from the first of January of the year 1 to that of this year. -/
def daysBeforeYear (year : Int) : Int :=
  365 * (year - 1) + (year - 1) / 4 - (year - 1) / 100 + (year - 1) / 400

def epochDays : Int := daysBeforeYear 1970

def dayNumber (d : Date) : Int :=
  daysBeforeYear d.year + daysBeforeMonth d.year d.month + d.day - 1 - epochDays

/-- Month and day of the day that follows so many days of the months given. -/
def monthAndDay (month : Nat) : List Nat → Nat → Nat × Nat
  | [], days => (month, days + 1)
  | length :: lengths, days =>
    if days < length then (month, days + 1)
    else monthAndDay (month + 1) lengths (days - length)

/-- Takes whole cycles of 400, 100, 4 years and 1 year off the days since the year 1; the last
day of a cycle of 400 or of 4 years belongs to its last part. -/
def ofDayNumber (number : Int) : Date :=
  let days := number + epochDays
  let inCycle := days % 146097
  let centuries := min (inCycle / 36524) 3
  let inCentury := inCycle - centuries * 36524
  let quads := inCentury / 1461
  let inQuad := inCentury - quads * 1461
  let years := min (inQuad / 365) 3
  let year := days / 146097 * 400 + centuries * 100 + quads * 4 + years + 1
  let (month, day) := monthAndDay 1 (monthLengths year) (inQuad - years * 365).toNat
  ⟨year, month, day⟩

end Date
end QueryViews.Calendar
