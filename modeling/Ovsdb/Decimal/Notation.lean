import Ovsdb.Decimal.Shortest

/-! The text of numbers. Integers are plain decimal digits. A double has the fewest digits that round to it,
    with a point in its place when the decimal exponent is at least -5 and below 16, and in the form
    `d.ddde±x` otherwise. -/

namespace Ovsdb.Decimal

def natChars (n : Nat) : List Char :=
  Nat.toDigits 10 n

def intChars (n : Int) : List Char :=
  if n < 0 then '-' :: natChars n.natAbs else natChars n.natAbs

/-- A decimal whose digits stand around a point; there is always a digit on either side of it. -/
def Scaled.positional (d : Scaled) : List Char :=
  let ds := natChars d.digits
  let whole := (ds.length : Int) + d.exponent
  if 0 ≤ d.exponent then ds ++ List.replicate d.exponent.toNat '0' ++ ['.', '0']
  else if 0 < whole then ds.take whole.toNat ++ '.' :: ds.drop whole.toNat
  else '0' :: '.' :: (List.replicate (-whole).toNat '0' ++ ds)

/-- A decimal with one digit before the point and an exponent that always has a sign. -/
def Scaled.scientific (d : Scaled) : List Char :=
  let ds := natChars d.digits
  let power := (ds.length : Int) + d.exponent - 1
  let sign := if power < 0 then '-' else '+'
  let fraction := if ds.length = 1 then [] else '.' :: ds.drop 1
  ds.take 1 ++ fraction ++ 'e' :: sign :: natChars power.natAbs

/-- A decimal number in plain notation, or in scientific notation if it is very large or very small. -/
def Scaled.chars (d : Scaled) : List Char :=
  let power := ((natChars d.digits).length : Int) + d.exponent - 1
  if -5 ≤ power ∧ power < 16 then d.positional else d.scientific

/-- The text of a finite double. Zero keeps its sign. -/
def floatChars (x : Float) : List Char :=
  let b := Binary.ofFloat x
  let text := if b.mantissa = 0 then ['0', '.', '0'] else b.shortest.chars
  if x.toBits.toNat < 0x8000000000000000 then text else '-' :: text

end Ovsdb.Decimal
