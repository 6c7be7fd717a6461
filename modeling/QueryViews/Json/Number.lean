import QueryViews.Json.Basic
import QueryViews.Json.ReadError
import QueryViews.Text.Number

/-! JSON numbers. Digits are gathered into a 64-bit significand as long as they fit; the others
only raise the exponent. Anything but a whole number in range is a float: the significand, scaled
by one power of ten. -/

namespace QueryViews.Json

/-- The float nearest to a power of ten. -/
def powerOfTen (exponent : Nat) : Float := Float.ofScientific 1 false exponent

/-- The largest power of ten that is a finite float. -/
def largestPower : Nat := 308

/-- A significand times a power of ten; nothing if that is infinite. -/
def scale? (significand : Float) (exponent : Int) : Option Float :=
  if exponent.natAbs ≤ largestPower then
    if 0 ≤ exponent then
      let scaled := significand * powerOfTen exponent.natAbs
      if scaled.isInf then none else some scaled
    else some (significand / powerOfTen exponent.natAbs)
  else if significand == 0 then some significand
  else if 0 ≤ exponent then none
  else scale? (significand / powerOfTen largestPower) (exponent + largestPower)
termination_by exponent.natAbs
decreasing_by simp only [largestPower] at *; omega

/-- Appends digits to a significand while it stays within 64 bits, and returns those left. -/
def gather (significand : Nat) : List Char → Nat × List Char
  | [] => (significand, [])
  | c :: rest =>
    let longer := significand * 10 + (c.toNat - '0'.toNat)
    if longer < Text.registerBound then gather longer rest else (significand, c :: rest)

def signed (negative : Bool) (magnitude : Float) : Json :=
  .float (if negative then -magnitude else magnitude)

def finishFloat (negative : Bool) (significand : Nat) (exponent : Int) (c : Cursor) :
    Except ReadError (Json × Cursor) :=
  match scale? (Float.ofNat significand) exponent with
  | some magnitude => .ok (signed negative magnitude, c)
  | none => c.failBefore .numberTooLarge

/-- The first too large value that an exponent is not gathered to. -/
def exponentBound : Nat := 0x80000000

/-- The number of digits at whose end an exponent is too large, if it ever is. -/
def tooLargeAfter? (value count : Nat) : List Char → Option Nat
  | [] => none
  | c :: rest =>
    let longer := value * 10 + (c.toNat - '0'.toNat)
    if longer < exponentBound then tooLargeAfter? longer (count + 1) rest else some (count + 1)

/-- What follows the letter of an exponent. -/
def readExponent (negative : Bool) (significand : Nat) (exponent : Int) (c : Cursor) :
    Except ReadError (Json × Cursor) :=
  let (down, c) := match c.rest with
    | '+' :: _ => (false, c.next)
    | '-' :: _ => (true, c.next)
    | _ => (false, c)
  let digits := c.rest.takeWhile Char.isDigit
  if digits.isEmpty then
    c.fail (if c.rest.isEmpty then .endInValue else .malformedNumber)
  else
    match tooLargeAfter? 0 0 digits with
    | none =>
      let power : Int := Text.digitsValue digits
      finishFloat negative significand (if down then exponent - power else exponent + power)
        (c.advance digits)
    | some count =>
      if significand ≠ 0 ∧ !down then (c.advance (digits.take count)).failBefore .numberTooLarge
      else .ok (signed negative 0, c.advance digits)

/-- What follows the digits of a number. -/
def readEnding (negative : Bool) (significand : Nat) (exponent : Int) (c : Cursor) :
    Except ReadError (Json × Cursor) :=
  match c.rest with
  | 'e' :: _ | 'E' :: _ => readExponent negative significand exponent c.next
  | _ => finishFloat negative significand exponent c

/-- What follows the decimal point. -/
def readFraction (negative : Bool) (significand : Nat) (exponent : Int) (c : Cursor) :
    Except ReadError (Json × Cursor) :=
  let digits := c.rest.takeWhile Char.isDigit
  if digits.isEmpty then
    c.fail (if c.rest.isEmpty then .endInValue else .malformedNumber)
  else
    let (longer, left) := gather significand digits
    readEnding negative longer (exponent - (digits.length - left.length : Nat)) (c.advance digits)

/-- An integer literal; zero with a sign and numbers out of range are floats. -/
def ofInteger (negative : Bool) (significand : Nat) : Json :=
  if !negative then .whole significand
  else if significand = 0 ∨ wholeMin.natAbs < significand then signed true (Float.ofNat significand)
  else .whole (-significand)

/-- A number whose sign has been read. -/
def readNumber (negative : Bool) (c : Cursor) : Except ReadError (Json × Cursor) :=
  match c.rest with
  | [] => c.fail .endInValue
  | first :: _ =>
    let digits := c.rest.takeWhile Char.isDigit
    if digits.isEmpty then c.fail .malformedNumber
    else if first = '0' ∧ 1 < digits.length then c.next.fail .malformedNumber
    else
      let (significand, left) := gather 0 digits
      let after := c.advance digits
      match after.rest with
      | '.' :: _ => readFraction negative significand left.length after.next
      | 'e' :: _ | 'E' :: _ => readExponent negative significand left.length after.next
      | _ =>
        if left.isEmpty then .ok (ofInteger negative significand, after)
        else finishFloat negative significand left.length after

end QueryViews.Json
