import QueryViews.Calendar.Instant
import QueryViews.Text.CharClass
import QueryViews.Text.Number

/-! Dates and times in text: RFC 3339, and plain date and time with loosely spaced numbers. -/

namespace QueryViews.Calendar

/-- Reads from the front of a text, or fails. -/
abbrev Scan := StateT (List Char) Option

namespace Scan

def exactly (expected : Char) : Scan Unit := do
  match ← get with
  | found :: rest => if found = expected then set rest else failure
  | [] => failure

def oneOf (choices : List Char) : Scan Char := do
  match ← get with
  | found :: rest => if found ∈ choices then set rest; return found else failure
  | [] => failure

/-- A number of just so many digits. -/
def digits (count : Nat) : Scan Nat := do
  let text ← get
  let taken := text.take count
  if taken.length = count ∧ taken.all Char.isDigit then
    set (text.drop count)
    return Text.digitsValue taken
  else failure

/-- A number of at least one digit, and of at most `limit` if there is a limit. -/
def someDigits (limit : Option Nat) : Scan Nat := do
  let text ← get
  let run := text.takeWhile Char.isDigit
  let taken := (limit.map run.take).getD run
  if taken.isEmpty then failure
  set (text.drop taken.length)
  return Text.digitsValue taken

def skipBlanks : Scan Unit := modify Text.trimStart

/-- The nanoseconds behind a decimal point, if there is one; digits past the ninth do not
count. -/
def fraction : Scan Nat := do
  match ← get with
  | '.' :: text =>
    let run := text.takeWhile Char.isDigit
    if run.isEmpty then failure
    set (text.drop run.length)
    let kept := run.take 9
    return Text.digitsValue kept * tenTo (9 - kept.length)
  | _ => return 0

/-- Whole hours and minutes with a sign, or `Z`, as the seconds a clock is ahead of UTC. -/
def offset : Scan Int := do
  let sign ← oneOf ['Z', 'z', '+', '-', '−']
  if sign = 'Z' ∨ sign = 'z' then return 0
  let hours ← digits 2
  exactly ':'
  let minutes ← digits 2
  if 24 ≤ hours ∨ 60 ≤ minutes then failure
  let seconds : Int := hours * 3600 + minutes * 60
  return if sign = '+' then seconds else -seconds

def strict : Scan Instant := do
  let year ← digits 4
  exactly '-'
  let month ← digits 2
  exactly '-'
  let day ← digits 2
  let _ ← oneOf ['T', 't', ' ']
  let hour ← digits 2
  exactly ':'
  let minute ← digits 2
  exactly ':'
  let second ← digits 2
  let nanos ← fraction
  let ahead ← offset
  let moment : Moment := ⟨⟨year, month, day⟩, hour, minute, second, nanos⟩
  if moment.isValid then return moment.toInstant ahead else failure

/-- A year of at most four digits, or with a sign and of any length. -/
def looseYear : Scan Int := do
  skipBlanks
  match ← get with
  | '-' :: rest => set rest; return -(← someDigits none)
  | '+' :: rest => set rest; return ← someDigits none
  | _ => return ← someDigits (some 4)

def looseField : Scan Nat := do
  skipBlanks
  someDigits (some 2)

def loose : Scan Instant := do
  let year ← looseYear
  exactly '-'
  let month ← looseField
  exactly '-'
  let day ← looseField
  skipBlanks
  let hour ← looseField
  exactly ':'
  let minute ← looseField
  exactly ':'
  let second ← looseField
  let nanos ← fraction
  let moment : Moment := ⟨⟨year, month, day⟩, hour, minute, second, nanos⟩
  if moment.isValid then return moment.toInstant 0 else failure

/-- What a scan makes of a whole text. -/
def whole? {α : Type} (scan : Scan α) (text : List Char) : Option α :=
  match scan text with
  | some (result, []) => some result
  | _ => none

end Scan

/-- The instant of an RFC 3339 text, or of a plain date and time taken as UTC. -/
def Instant.read? (text : String) : Option Instant :=
  Scan.whole? Scan.strict text.toList <|> Scan.whole? Scan.loose text.toList

end QueryViews.Calendar
