/-! Numbers in decimal text: natural numbers of ASCII digits, and signed integers of 64 bits. -/

namespace QueryViews

def tenTo (exponent : Nat) : Nat := Nat.pow 10 exponent

theorem tenTo_pos (exponent : Nat) : 0 < tenTo exponent := Nat.pow_pos (by decide)

theorem tenTo_succ (exponent : Nat) : tenTo (exponent + 1) = tenTo exponent * 10 := rfl

namespace Text

/-- The number a list of ASCII digits denotes, read after `high`. -/
def digitsValueFrom (high : Nat) : List Char → Nat
  | [] => high
  | c :: rest => digitsValueFrom (high * 10 + (c.toNat - '0'.toNat)) rest

def digitsValue (digits : List Char) : Nat := digitsValueFrom 0 digits

/-- The number written by one or more ASCII digits and nothing else. -/
def natural? (text : List Char) : Option Nat :=
  if text ≠ [] ∧ text.all Char.isDigit then some (digitsValue text) else none

/-- The first number that no 64-bit register holds. -/
def registerBound : Nat := 0x10000000000000000

inductive IntegerFault where
  | empty
  | invalidDigit
  | tooLarge
  | tooSmall
deriving DecidableEq, Repr

def integerMin : Int := -0x8000000000000000
def integerBound : Int := 0x8000000000000000

/-- The integer that digits denote after those read into `value`; the first character that is
no digit or leaves the range decides. -/
def integerAfter (negative : Bool) (value : Int) : List Char → Except IntegerFault Int
  | [] => .ok value
  | c :: rest =>
    if !c.isDigit then .error .invalidDigit
    else
      let digit : Int := c.toNat - '0'.toNat
      let longer := if negative then value * 10 - digit else value * 10 + digit
      if integerBound ≤ longer then .error .tooLarge
      else if longer < integerMin then .error .tooSmall
      else integerAfter negative longer rest

/-- An optional sign and at least one digit. -/
def integer : List Char → Except IntegerFault Int
  | [] => .error .empty
  | [c] => if c.isDigit then integerAfter false 0 [c] else .error .invalidDigit
  | '-' :: digits => integerAfter true 0 digits
  | '+' :: digits => integerAfter false 0 digits
  | digits => integerAfter false 0 digits

end Text
end QueryViews
