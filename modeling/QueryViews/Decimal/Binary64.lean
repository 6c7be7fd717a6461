/-! The exact value of a binary64 float and the reals that round to it. -/

namespace QueryViews

def twoTo (exponent : Nat) : Nat := Nat.pow 2 exponent

theorem twoTo_succ (exponent : Nat) : twoTo (exponent + 1) = twoTo exponent * 2 := rfl

/-- The magnitude `significand * 2 ^ exponent` of a float. -/
structure Binary64 where
  negative : Bool
  significand : Nat
  exponent : Int
  /-- The next smaller magnitude is only half as far away as the next larger one. -/
  closerBelow : Bool
deriving DecidableEq, Repr

namespace Binary64

/-- The value of a finite float with these bits. -/
def ofBits (bits : Nat) : Binary64 :=
  let fraction : Nat := bits % twoTo 52
  let biased : Nat := bits / twoTo 52 % twoTo 11
  let negative := bits.testBit 63
  if biased = 0 then ⟨negative, fraction, -1074, false⟩
  else ⟨negative, twoTo 52 + fraction, (biased : Int) - 1075, fraction = 0 && biased > 1⟩

def ofFloat (x : Float) : Binary64 := ofBits x.toBits.toNat

/-- The reals that round to a magnitude, over a common denominator: from `low` to `high`, with
the magnitude itself at `value`. The ends belong to it if its significand is even. -/
structure Neighbourhood where
  low : Nat
  value : Nat
  high : Nat
  unit : Nat
  closed : Bool
deriving Repr

def neighbourhood (b : Binary64) : Neighbourhood :=
  let quarters := 4 * b.significand
  let below := if b.closerBelow then 1 else 2
  let scale := twoTo (b.exponent - 2).toNat
  { low := (quarters - below) * scale
    value := quarters * scale
    high := (quarters + 2) * scale
    unit := twoTo (2 - b.exponent).toNat
    closed := b.significand % 2 = 0 }

end Binary64
end QueryViews
