import QueryViews.Proofs.Calendar.Instants
import QueryViews.Proofs.Calendar.Scans

/-! The text of instants. In the years 0 to 9999 it is a date-time of RFC 3339, and it is read back
as the same instant. The sign that other years have in front of them is in no such text, and the
plain form of date and time has no letter between the two. -/

namespace QueryViews.Calendar

open Scan (Digits)

theorem digit_of_padded {width n : Nat} : ∀ c ∈ padded width n, c.isDigit = true := by
  refine List.forall_mem_append.2 ⟨fun c zero => ?_, fun c => Text.isDigit_of_mem_toDigits⟩
  exact List.eq_of_mem_replicate zero ▸ rfl

theorem digits_padded {width n : Nat} (positive : 0 < width) (small : n < tenTo width) :
    Digits width (padded width n) := by
  have short := (Nat.length_toDigits_le_iff (b := 10) (by decide) positive).2 small
  refine ⟨?_, digit_of_padded⟩
  rw [padded, List.length_append, List.length_replicate]
  exact Nat.sub_add_cancel short

theorem digitsValue_padded (width n : Nat) : Text.digitsValue (padded width n) = n := by
  rw [padded, Text.digitsValue_zeros, Text.digitsValue_toDigits]

theorem padded_ne_nil (width n : Nat) : padded width n ≠ [] :=
  List.append_ne_nil_of_right_ne_nil _ Nat.toDigits_ne_nil

/-- A fraction of a second is written in digits that are exact, or not at all. -/
theorem fractionText_spec {nanos : Nat} (small : nanos < nanosPerSecond) :
    nanos = 0 ∧ fractionText nanos = [] ∨
      ∃ width ≤ 9, ∃ n < tenTo width, 0 < width ∧ n * tenTo (9 - width) = nanos ∧
        fractionText nanos = '.' :: padded width n := by
  have three : tenTo 3 = 1000 := by decide
  have six : tenTo 6 = 1000000 := by decide
  unfold nanosPerSecond at small
  unfold fractionText
  split
  next zero => exact .inl ⟨zero, rfl⟩
  next =>
    refine .inr ?_
    split
    next whole =>
      have exact : nanos / 1000000 * tenTo 6 = nanos :=
        six ▸ Nat.div_mul_cancel (Nat.dvd_of_mod_eq_zero whole)
      exact ⟨3, by decide, nanos / 1000000, by omega, by decide, exact, rfl⟩
    next =>
      split
      next whole =>
        have exact : nanos / 1000 * tenTo 3 = nanos :=
          three ▸ Nat.div_mul_cancel (Nat.dvd_of_mod_eq_zero whole)
        exact ⟨6, by decide, nanos / 1000, by omega, by decide, exact, rfl⟩
      next => exact ⟨9, by decide, nanos, small, by decide, Nat.mul_one _, rfl⟩

/-- The parts of a date-time as they are written. -/
structure Stamp where
  year : List Char
  month : List Char
  day : List Char
  separator : Char
  hour : List Char
  minute : List Char
  second : List Char
  fraction : List Char
  offset : List Char

namespace Stamp

def toList (s : Stamp) : List Char :=
  s.year ++ '-' :: s.month ++ '-' :: s.day
    ++ s.separator :: s.hour ++ ':' :: s.minute ++ ':' :: s.second
    ++ s.fraction ++ s.offset

def date (s : Stamp) : Date :=
  ⟨Text.digitsValue s.year, Text.digitsValue s.month, Text.digitsValue s.day⟩

/-- The parts are those of RFC 3339: numbers in fixed widths, a day of the calendar, a time of the
day, possibly a leap second, a fraction or none, and `Z` or hours and minutes with a sign. -/
structure WellFormed (s : Stamp) : Prop where
  year : Digits 4 s.year
  month : Digits 2 s.month
  day : Digits 2 s.day
  date : s.date.InYear
  separator : s.separator ∈ ['T', 't']
  hour : Digits 2 s.hour ∧ Text.digitsValue s.hour < 24
  minute : Digits 2 s.minute ∧ Text.digitsValue s.minute < 60
  second : Digits 2 s.second ∧ Text.digitsValue s.second ≤ 60
  fraction : s.fraction = [] ∨
    ∃ digits, s.fraction = '.' :: digits ∧ digits ≠ [] ∧ ∀ c ∈ digits, c.isDigit = true
  offset : s.offset ∈ [['Z'], ['z']] ∨
    ∃ sign hours minutes, s.offset = sign :: hours ++ ':' :: minutes ∧ sign ∈ ['+', '-'] ∧
      (Digits 2 hours ∧ Text.digitsValue hours < 24) ∧
      (Digits 2 minutes ∧ Text.digitsValue minutes < 60)

end Stamp

/-- The text is a date-time in the grammar of RFC 3339. -/
def IsDateTime (text : List Char) : Prop := ∃ s : Stamp, s.WellFormed ∧ text = s.toList

theorem IsDateTime.isDigit_head {c : Char} {rest : List Char} (written : IsDateTime (c :: rest)) :
    c.isDigit = true := by
  obtain ⟨s, formed, shape⟩ := written
  have four := formed.year.length
  rw [Stamp.toList] at shape
  cases year : s.year with
  | nil =>
    rw [year] at four
    cases four
  | cons d others =>
    rw [year] at shape
    obtain rfl : c = d := (List.cons.inj shape).1
    exact formed.year.digit c (year ▸ List.mem_cons_self)

namespace Moment
variable {m : Moment}

/-- The years that four digits write. -/
def FourDigits (m : Moment) : Prop := 0 ≤ m.date.year ∧ m.date.year ≤ 9999

/-- The parts that a moment is printed in. -/
def stamp (m : Moment) : Stamp where
  year := padded 4 m.date.year.toNat
  month := padded 2 m.date.month
  day := padded 2 m.date.day
  separator := 'T'
  hour := padded 2 m.hour
  minute := padded 2 m.minute
  second := padded 2 m.second
  fraction := fractionText m.nanos
  offset := ['Z']

theorem toList_eq_stamp (short : m.FourDigits) : m.toList = m.stamp.toList := by
  have year : yearText m.date.year = padded 4 m.date.year.toNat := if_pos short
  rw [toList, year]
  rfl

theorem OnClock.day_le (shown : m.OnClock) : m.date.day ≤ 31 := by
  have longest : ∀ length ∈ monthLengths m.date.year, length ≤ 31 := by
    unfold monthLengths
    cases isLeapYear m.date.year <;> decide
  refine Nat.le_trans shown.date.2.2.2 ?_
  rw [List.getD_eq_getElem?_getD]
  cases found : (monthLengths m.date.year)[m.date.month - 1]? with
  | none => exact Nat.zero_le 31
  | some length => exact longest length (List.mem_of_getElem? found)

theorem OnClock.wellFormed_stamp (shown : m.OnClock) (short : m.FourDigits) :
    m.stamp.WellFormed := by
  have two : ∀ {n : Nat}, n < 100 → Digits 2 (padded 2 n) := fun small =>
    digits_padded (by decide) small
  constructor
  case year =>
    have small := short.2
    have four : tenTo 4 = 10000 := by decide
    exact digits_padded (by decide) (by omega)
  case month => exact two (Nat.lt_of_le_of_lt shown.date.2.1 (by decide))
  case day => exact two (Nat.lt_of_le_of_lt shown.day_le (by decide))
  case date =>
    have same : m.stamp.date = m.date := by
      simp only [Stamp.date, stamp, digitsValue_padded, Int.toNat_of_nonneg short.1]
    exact same ▸ shown.date
  case separator => exact List.mem_cons_self
  case hour =>
    exact ⟨two (Nat.lt_trans shown.hour (by decide)),
      (digitsValue_padded 2 _).symm ▸ shown.hour⟩
  case minute =>
    exact ⟨two (Nat.lt_trans shown.minute (by decide)),
      (digitsValue_padded 2 _).symm ▸ shown.minute⟩
  case second =>
    exact ⟨two (Nat.lt_of_le_of_lt shown.second (by decide)),
      (digitsValue_padded 2 _).symm ▸ shown.second⟩
  case fraction =>
    rcases fractionText_spec shown.nanos with ⟨-, none⟩ | ⟨width, -, n, -, -, -, written⟩
    · exact .inl none
    · exact .inr ⟨_, written, padded_ne_nil width n, digit_of_padded⟩
  case offset => exact .inl List.mem_cons_self

theorem OnClock.isDateTime (shown : m.OnClock) (short : m.FourDigits) : IsDateTime m.toList :=
  ⟨m.stamp, shown.wellFormed_stamp short, toList_eq_stamp short⟩

theorem OnClock.isValid (shown : m.OnClock) (short : m.FourDigits) : m.isValid = true := by
  have years : firstYear ≤ m.date.year ∧ m.date.year ≤ lastYear :=
    ⟨Int.le_trans (by decide) short.1, Int.le_trans short.2 (by decide)⟩
  exact isValid_iff.2 ⟨Date.isValid_iff.2 ⟨years, shown.date⟩, shown.hour, shown.minute,
    shown.second⟩

end Moment

namespace Scan
variable {m : Moment}

theorem fraction_fractionText {nanos : Nat} (small : nanos < nanosPerSecond) (rest : List Char) :
    fraction (fractionText nanos ++ 'Z' :: rest) = some (nanos, 'Z' :: rest) := by
  have letter : ∀ c ∈ ('Z' :: rest).head?, c.isDigit = false := fun c first =>
    Option.some.inj first ▸ rfl
  rcases fractionText_spec small with
    ⟨rfl, none⟩ | ⟨width, narrow, n, fits, positive, scaled, written⟩
  · exact none ▸ fraction_of_head fun c first => Option.some.inj first ▸ by decide
  · have digits := digits_padded positive fits
    have kept : (padded width n).take 9 = padded width n :=
      List.take_of_length_le (Nat.le_trans (Nat.le_of_eq digits.length) narrow)
    have present : ¬(padded width n).isEmpty = true :=
      fun empty => padded_ne_nil width n (List.isEmpty_iff.1 empty)
    rw [written, List.cons_append, fraction_point, takeWhile_digits digits.digit letter,
      if_neg present, kept, digitsValue_padded, digits.length, List.drop_left' digits.length]
    exact congrArg (fun read => some (read, _)) scaled

theorem strict_toList (shown : m.OnClock) (short : m.FourDigits) :
    strict m.toList = some (m.toInstant 0, []) := by
  have formed := shown.wellFormed_stamp short
  have year : ((Text.digitsValue m.stamp.year : Nat) : Int) = m.date.year :=
    (congrArg Int.ofNat (digitsValue_padded 4 _)).trans (Int.toNat_of_nonneg short.1)
  have text : m.toList = m.stamp.year ++ '-' :: (m.stamp.month ++ '-' :: (m.stamp.day ++
      'T' :: (m.stamp.hour ++ ':' :: (m.stamp.minute ++ ':' :: (m.stamp.second ++
        (fractionText m.nanos ++ ['Z'])))))) := by
    rw [Moment.toList_eq_stamp short]
    simp only [Stamp.toList, List.append_assoc, List.cons_append]
    rfl
  rw [text, strict, bind_of_some (digits_append formed.year), bind_of_some (exactly_cons '-'),
    bind_of_some (digits_append formed.month), bind_of_some (exactly_cons '-'),
    bind_of_some (digits_append formed.day), bind_of_some (oneOf_cons List.mem_cons_self),
    bind_of_some (digits_append formed.hour.1), bind_of_some (exactly_cons ':'),
    bind_of_some (digits_append formed.minute.1), bind_of_some (exactly_cons ':'),
    bind_of_some (digits_append formed.second.1),
    bind_of_some (fraction_fractionText shown.nanos []), bind_of_some offset_zulu]
  have same : (⟨⟨Text.digitsValue m.stamp.year, Text.digitsValue m.stamp.month,
      Text.digitsValue m.stamp.day⟩, Text.digitsValue m.stamp.hour,
      Text.digitsValue m.stamp.minute, Text.digitsValue m.stamp.second, m.nanos⟩ : Moment) = m := by
    rw [year]
    simp only [Moment.stamp, digitsValue_padded]
  rw [same]
  exact congrFun (if_pos (shown.isValid short)) []

end Scan

namespace Moment
variable {m : Moment}

/-- The sign in front of a year of more or other than four digits. -/
theorem exists_sign (long : ¬m.FourDigits) :
    ∃ sign behind, (sign = '-' ∨ sign = '+') ∧
      m.toList = sign :: (padded 4 m.date.year.natAbs ++ '-' :: (padded 2 m.date.month ++
        '-' :: (padded 2 m.date.day ++ 'T' :: behind))) := by
  have year : yearText m.date.year =
    (if m.date.year < 0 then '-' else '+') :: padded 4 m.date.year.natAbs := if_neg long
  refine ⟨if m.date.year < 0 then '-' else '+', padded 2 m.hour ++ ':' :: (padded 2 m.minute ++
    ':' :: (padded 2 m.second ++ (fractionText m.nanos ++ ['Z']))), ?_, ?_⟩
  · split
    · exact .inl rfl
    · exact .inr rfl
  · rw [toList, year]
    simp only [List.append_assoc, List.cons_append]

theorem not_isDateTime (long : ¬m.FourDigits) : ¬IsDateTime m.toList := by
  obtain ⟨sign, behind, signed, text⟩ := exists_sign long
  intro written
  rw [text] at written
  have digit := written.isDigit_head
  rcases signed with rfl | rfl <;> cases digit

end Moment

namespace Scan
variable {m : Moment}

theorem strict_of_sign (long : ¬m.FourDigits) : strict m.toList = none := by
  obtain ⟨sign, behind, signed, text⟩ := Moment.exists_sign long
  have other : sign.isDigit = false := by rcases signed with rfl | rfl <;> rfl
  rw [text, strict]
  exact bind_of_none (digits_of_head (by decide) other)

theorem loose_of_sign (shown : m.OnClock) (long : ¬m.FourDigits) : loose m.toList = none := by
  obtain ⟨sign, behind, signed, text⟩ := Moment.exists_sign long
  have ends : ∀ {c : Char}, c.isDigit = false →
      ∀ rest, ∀ d ∈ (c :: rest : List Char).head?, d.isDigit = false :=
    fun other _ d first => Option.some.inj first ▸ other
  have hyphen := ends (c := '-') rfl
  have letter := ends (c := 'T') rfl
  have month : Digits 2 (padded 2 m.date.month) :=
    digits_padded (by decide) (Nat.lt_of_le_of_lt shown.date.2.1 (by decide))
  have day : Digits 2 (padded 2 m.date.day) :=
    digits_padded (by decide) (Nat.lt_of_le_of_lt shown.day_le (by decide))
  obtain ⟨year, read⟩ := exists_looseYear signed digit_of_padded
    (padded_ne_nil 4 m.date.year.natAbs) (hyphen (padded 2 m.date.month ++
      '-' :: (padded 2 m.date.day ++ 'T' :: behind)))
  rw [text, loose, bind_of_some read, bind_of_some (exactly_cons '-'),
    bind_of_some (looseField_append month (hyphen _)), bind_of_some (exactly_cons '-'),
    bind_of_some (looseField_append day (letter _))]
  have visible : ∀ c ∈ ('T' :: behind).head?, Text.isBlank c = false := fun c first =>
    Option.some.inj first ▸ by decide
  rw [bind_of_some (skipBlanks_of_head visible)]
  exact bind_of_none (looseField_of_head (by decide) rfl)

theorem whole?_eq_some_iff {α : Type} {scan : Scan α} {text : List Char} {a : α} :
    whole? scan text = some a ↔ scan text = some (a, []) := by
  unfold whole?
  constructor
  · intro read
    split at read
    next found => exact found.trans (congrArg (fun b => some (b, [])) (Option.some.inj read))
    next => cases read
  · intro found
    rw [found]

theorem whole?_of_none {α : Type} {scan : Scan α} {text : List Char}
    (nothing : scan text = none) : whole? scan text = none := by
  rw [whole?, nothing]

end Scan

namespace Instant

theorem toList_toString (i : Instant) : i.toString.toList = i.toMoment.toList :=
  String.toList_ofList

/-- What is read is regular. -/
theorem regular_of_read? {text : String} {i : Instant} (read : read? text = some i) :
    i.Regular := by
  rw [read?, Option.orElse_eq_orElse, Option.orElse_eq_or] at read
  rcases Option.or_eq_some_iff.1 read with strict | ⟨-, loose⟩
  · exact Scan.strict_yields _ _ _ (Scan.whole?_eq_some_iff.1 strict)
  · exact Scan.loose_yields _ _ _ (Scan.whole?_eq_some_iff.1 loose)

/-- In the years of four digits the text of an instant is read back as the instant. -/
theorem read?_toString {i : Instant} (regular : i.Regular) (short : i.toMoment.FourDigits) :
    read? i.toString = some i := by
  have read := Scan.strict_toList (onClock_toMoment regular) short
  rw [toInstant_toMoment regular] at read
  rw [read?, toList_toString, Scan.whole?_eq_some_iff.2 read]
  rfl

/-- In other years it is not read at all. -/
theorem read?_of_sign {i : Instant} (regular : i.Regular) (long : ¬i.toMoment.FourDigits) :
    read? i.toString = none := by
  have shown := onClock_toMoment regular
  rw [read?, toList_toString, Scan.whole?_of_none (Scan.strict_of_sign long),
    Scan.whole?_of_none (Scan.loose_of_sign shown long)]
  rfl

end Instant
end QueryViews.Calendar
