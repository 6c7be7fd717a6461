import QueryViews.Calendar.Scan
import QueryViews.Decode.Error
import QueryViews.Json.Reader
import QueryViews.Text.Number
import QueryViews.Text.Real

/-! Stock conversions of raw values. Databases disagree on how they hand back scalars; these
bring the common spellings to one form. -/

namespace QueryViews

abbrev Format := Json → Except DecodeError Json

namespace Format

def refuse {α : Type} (value : Json) (fault : FormatFault) : Except DecodeError α :=
  .error (.format value fault)

def boolean (v : Json) : Except DecodeError Json :=
  match v with
  | .bool _ => .ok v
  | .whole n =>
    if n = 0 then .ok (.bool false)
    else if n = 1 then .ok (.bool true)
    else refuse v .notZeroOrOne
  | .float _ => refuse v .notZeroOrOne
  | .string text =>
    let word := text.map Char.toLower
    if word ∈ ["t", "true", "1"] then .ok (.bool true)
    else if word ∈ ["f", "false", "0"] then .ok (.bool false)
    else refuse v .notBoolean
  | .null | .array _ | .object _ => refuse v .notBoolean

def ofIntegerFault : Text.IntegerFault → FormatFault
  | .empty => .emptyInteger
  | .invalidDigit => .invalidDigit
  | .tooLarge => .integerTooLarge
  | .tooSmall => .integerTooSmall

/-- The integer that a finite float is equal to. -/
def exactInteger? (x : Float) : Option Int :=
  let b := Binary64.ofFloat x
  let divisor := twoTo (-b.exponent).toNat
  if b.significand % divisor = 0 then
    let magnitude : Int := (b.significand / divisor * twoTo b.exponent.toNat : Nat)
    some (if b.negative then -magnitude else magnitude)
  else none

def integer (v : Json) : Except DecodeError Json :=
  match v with
  | .whole _ => .ok v
  | .float x =>
    match exactInteger? x with
    | none => refuse v .notInteger
    | some n =>
      if Text.integerMin ≤ n ∧ n < Text.integerBound then .ok (.whole n)
      else refuse v .outOfRange
  | .string text =>
    match Text.integer (Text.trim text.toList) with
    | .ok n => .ok (.whole n)
    | .error fault => refuse v (ofIntegerFault fault)
  | .null | .bool _ | .array _ | .object _ => refuse v .notInteger

def ofRealFault : Text.RealFault → FormatFault
  | .empty => .emptyFloat
  | .malformed => .invalidFloat

def float (v : Json) : Except DecodeError Json :=
  match v with
  | .whole n => .ok (.ofFloat (Float.ofInt n))
  | .float x => .ok (.ofFloat x)
  | .string text =>
    match Text.real (Text.trim text.toList) with
    | .ok r => .ok ((r.toFloat?.map Json.ofFloat).getD .null)
    | .error fault => refuse v (ofRealFault fault)
  | .null | .bool _ | .array _ | .object _ => refuse v .notFloat

def text (v : Json) : Except DecodeError Json :=
  match v with
  | .string _ => .ok v
  | .whole _ | .float _ | .bool _ => .ok (.string v.compact)
  | .null | .array _ | .object _ => refuse v .notScalar

def timestamp (v : Json) : Except DecodeError Json :=
  let instant? := match v with
    | .string text => Calendar.Instant.read? text
    | .whole n => if n < Text.integerBound then Calendar.Instant.ofSeconds? n else none
    | _ => none
  match instant? with
  | some instant => .ok (.string instant.toString)
  | none => refuse v .notTimestamp

/-- Reads a JSON document that comes as text. -/
def json (v : Json) : Except DecodeError Json :=
  match v with
  | .string text =>
    match Json.read text with
    | .ok document => .ok document
    | .error error => refuse v (.notJson error)
  | _ => .ok v

end Format
end QueryViews
