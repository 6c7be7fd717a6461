import QueryViews.Calendar.Date

/-! Instants on the UTC time scale, and their RFC 3339 text. -/

namespace QueryViews.Calendar

/-- Seconds from the start of 1970 and nanoseconds on top of them. During a leap second the
seconds stand still and the nanoseconds run on to the second billion. -/
structure Instant where
  seconds : Int
  nanos : Nat
deriving DecidableEq, Repr

/-- A date and a time of day; the sixtieth second is a leap second. -/
structure Moment where
  date : Date
  hour : Nat
  minute : Nat
  second : Nat
  nanos : Nat
deriving DecidableEq, Repr

def secondsPerDay : Int := 86400
def nanosPerSecond : Nat := 1000000000

namespace Moment

def isValid (m : Moment) : Bool :=
  m.date.isValid && m.hour < 24 && m.minute < 60 && m.second ≤ 60

/-- The instant of a moment on a clock that is `ahead` seconds ahead of UTC. -/
def toInstant (m : Moment) (ahead : Int) : Instant :=
  let leap := if m.second = 60 then 1 else 0
  ⟨m.date.dayNumber * secondsPerDay + m.hour * 3600 + m.minute * 60 + (m.second - leap : Nat)
      - ahead, m.nanos + leap * nanosPerSecond⟩

end Moment

namespace Instant

def toMoment (i : Instant) : Moment :=
  let inDay := (i.seconds % secondsPerDay).toNat
  { date := .ofDayNumber (i.seconds / secondsPerDay)
    hour := inDay / 3600
    minute := inDay / 60 % 60
    second := inDay % 60 + i.nanos / nanosPerSecond
    nanos := i.nanos % nanosPerSecond }

/-- The start of a second, if its year can be given. -/
def ofSeconds? (seconds : Int) : Option Instant :=
  let i : Instant := ⟨seconds, 0⟩
  if i.toMoment.date.isValid then some i else none

end Instant

/-- At least `width` digits. -/
def padded (width n : Nat) : List Char :=
  let digits := Nat.toDigits 10 n
  List.replicate (width - digits.length) '0' ++ digits

/-- Four digits, or a sign and at least four digits outside the years 0 to 9999. -/
def yearText (year : Int) : List Char :=
  if 0 ≤ year ∧ year ≤ 9999 then padded 4 year.toNat
  else (if year < 0 then '-' else '+') :: padded 4 year.natAbs

/-- No fraction if it is zero, else the fewest of three, six or nine digits that are exact. -/
def fractionText (nanos : Nat) : List Char :=
  if nanos = 0 then []
  else if nanos % 1000000 = 0 then '.' :: padded 3 (nanos / 1000000)
  else if nanos % 1000 = 0 then '.' :: padded 6 (nanos / 1000)
  else '.' :: padded 9 nanos

def Moment.toList (m : Moment) : List Char :=
  yearText m.date.year ++ '-' :: padded 2 m.date.month ++ '-' :: padded 2 m.date.day
    ++ 'T' :: padded 2 m.hour ++ ':' :: padded 2 m.minute ++ ':' :: padded 2 m.second
    ++ fractionText m.nanos ++ ['Z']

def Instant.toString (i : Instant) : String := String.ofList i.toMoment.toList

end QueryViews.Calendar
