/-! Decimals `digits · 10 ^ exponent`, and the double that one is read as. The arithmetic is that of doubles, which
    rounds after each operation, so the result may be a neighbour of the nearest double. -/

namespace Ovsdb.Decimal

/-- The decimal number `digits * 10 ^ exponent`. -/
structure Scaled where
  digits : Nat
  exponent : Int
deriving DecidableEq

/-- The double nearest to `10 ^ k`. -/
def powerOfTen (k : Nat) : Float :=
  Float.ofScientific 1 false k

/-- The double nearest to the digits of a decimal, multiplied by a power of ten or divided by one. No power beyond
    `10 ^ 308` is a double: a larger one makes everything but zero infinite, and division by one takes two steps.
    Digits that fit a 64-bit word vanish when they are divided by more than `10 ^ 616`. -/
def Scaled.toFloat (d : Scaled) : Float :=
  let x := Float.ofNat d.digits
  if d.digits = 0 ∨ d.exponent < -616 then 0
  else if d.exponent < -308 then x / powerOfTen 308 / powerOfTen (-308 - d.exponent).toNat
  else if d.exponent < 0 then x / powerOfTen (-d.exponent).toNat
  else if d.exponent ≤ 308 then x * powerOfTen d.exponent.toNat
  else 1 / 0

end Ovsdb.Decimal
