import QueryViews.Text.Number

/-! Floats in decimal text: an optional sign, then a word for infinity or for no number, or
digits with at most one point and an optional exponent. -/

namespace QueryViews.Text

/-- A float as written. -/
inductive Real where
  | notFinite
  | finite (negative : Bool) (significand : Nat) (exponent : Int)
deriving DecidableEq, Repr

inductive RealFault where
  | empty
  | malformed
deriving DecidableEq, Repr

/-- The exponent behind the digits, zero if there is none. -/
def exponent? : List Char → Option Int
  | [] => some 0
  | 'e' :: text | 'E' :: text =>
    match text with
    | '-' :: digits => (natural? digits).map fun power => -power
    | '+' :: digits => (natural? digits).map Int.ofNat
    | digits => (natural? digits).map Int.ofNat
  | _ => none

def finite? (negative : Bool) (text : List Char) : Option Real :=
  let whole := text.takeWhile Char.isDigit
  let rest := text.dropWhile Char.isDigit
  let afterPoint := match rest with
    | '.' :: behind => behind
    | _ => []
  let fraction := afterPoint.takeWhile Char.isDigit
  let ending := match rest with
    | '.' :: behind => behind.dropWhile Char.isDigit
    | other => other
  if whole.isEmpty && fraction.isEmpty then none
  else (exponent? ending).map fun power =>
    .finite negative (digitsValue (whole ++ fraction)) (power - fraction.length)

def notFiniteWords : List String := ["inf", "infinity", "nan"]

def unsigned? (negative : Bool) (text : List Char) : Option Real :=
  if String.ofList (text.map Char.toLower) ∈ notFiniteWords then some .notFinite
  else finite? negative text

def real (text : List Char) : Except RealFault Real :=
  let read := match text with
    | '-' :: rest => unsigned? true rest
    | '+' :: rest => unsigned? false rest
    | _ => unsigned? false text
  match text, read with
  | [], _ => .error .empty
  | _, some r => .ok r
  | _, none => .error .malformed

/-- Powers of ten beyond these lead out of the range of floats, or to zero. -/
def exponentLimit : Int := 400

/-- The nearest float; nothing if the number is not finite or rounds to infinity. -/
def Real.toFloat? : Real → Option Float
  | .notFinite => none
  | .finite negative significand exponent =>
    let leading : Int := exponent + (Nat.toDigits 10 significand).length
    let magnitude :=
      if significand = 0 || leading < -exponentLimit then 0
      else if exponentLimit < leading then Float.ofScientific 1 false exponentLimit.toNat
      else if exponent < 0 then Float.ofScientific significand true exponent.natAbs
      else Float.ofScientific significand false exponent.natAbs
    if magnitude.isInf then none else some (if negative then -magnitude else magnitude)

end QueryViews.Text
