import QueryViews.Decimal.Binary64
import QueryViews.Text.Number

/-! The shortest decimal that reads back as a given float: on the coarsest decimal grid with a
point that rounds to the float, the point nearest to it, and of two equally near the even one. -/

namespace QueryViews

/-- The number `0.d₁d₂… * 10 ^ exponent`. -/
structure Decimal where
  digits : List Char
  exponent : Int
deriving DecidableEq, Repr

namespace Decimal

def digitCount (n : Nat) : Nat := (Nat.toDigits 10 n).length

/-- The exponent for which a positive quotient is `0.d₁d₂… * 10 ^ exponent` with `d₁` not zero. -/
def leadingExponent (value unit : Nat) : Int :=
  let guess : Int := digitCount value - digitCount unit
  if value * tenTo (-guess).toNat < unit * tenTo guess.toNat then guess else guess + 1

/-- The point of the grid of spacing `10 ^ spacing` that a neighbourhood is written as. -/
def gridPoint? (n : Binary64.Neighbourhood) (spacing : Int) : Option Nat :=
  let scale := tenTo (-spacing).toNat
  let step := n.unit * tenTo spacing.toNat
  let value := n.value * scale
  let inside point :=
    if n.closed then n.low * scale ≤ point * step && point * step ≤ n.high * scale
    else n.low * scale < point * step && point * step < n.high * scale
  let below := value / step
  let above := below + 1
  match inside below, inside above with
  | true, true =>
    let toBelow := value - below * step
    let toAbove := above * step - value
    if toBelow < toAbove || (toBelow = toAbove && below % 2 = 0) then some below else some above
  | true, false => some below
  | false, true => some above
  | false, false => none

/-- The point on the coarsest grid that has one, with its spacing, trying at most `grids` grids
from a spacing downwards. -/
def coarsest? (n : Binary64.Neighbourhood) (spacing : Int) : Nat → Option (Nat × Int)
  | 0 => none
  | grids + 1 =>
    match gridPoint? n spacing with
    | some point => some (point, spacing)
    | none => coarsest? n (spacing - 1) grids

def ofGridPoint (point : Nat) (spacing : Int) : Decimal :=
  let digits := Nat.toDigits 10 point
  ⟨(digits.reverse.dropWhile (· == '0')).reverse, digits.length + spacing⟩

/-- Seventeen digits are enough for every binary64 number; zero has no digits. -/
def shortest (b : Binary64) : Decimal :=
  let n := b.neighbourhood
  match coarsest? n (leadingExponent n.value n.unit - 1) 17 with
  | some (point, spacing) => if point = 0 then ⟨[], 0⟩ else ofGridPoint point spacing
  | none => ⟨[], 0⟩

end Decimal
end QueryViews
