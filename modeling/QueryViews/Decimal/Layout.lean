import QueryViews.Decimal.Shortest

/-! How the digits of a decimal number are laid out as text. -/

namespace QueryViews.Decimal

/-- The exponents that are written positionally: those above `positionalAbove`, up to
`positionalUpTo`. -/
structure Layout where
  positionalAbove : Int
  positionalUpTo : Int

def zeros (count : Nat) : List Char := List.replicate count '0'

/-- Digits around a decimal point, with at least one digit on either side of it. -/
def positional (d : Decimal) : List Char :=
  let whole := d.digits.take d.exponent.toNat ++ zeros (d.exponent.toNat - d.digits.length)
  let fraction := zeros (-d.exponent).toNat ++ d.digits.drop d.exponent.toNat
  (if whole = [] then ['0'] else whole) ++ '.' :: (if fraction = [] then ['0'] else fraction)

/-- One digit before the point, no point without a digit after it, and a signed exponent. -/
def scientific (d : Decimal) : List Char :=
  let power := d.exponent - 1
  let mantissa := match d.digits with
    | first :: second :: rest => first :: '.' :: second :: rest
    | digits => digits
  mantissa ++ 'e' :: (if power < 0 then '-' else '+') :: Nat.toDigits 10 power.natAbs

def layOut (layout : Layout) (d : Decimal) : List Char :=
  if layout.positionalAbove < d.exponent ∧ d.exponent ≤ layout.positionalUpTo then positional d
  else scientific d

end QueryViews.Decimal
