import Ovsdb.Decimal.Scaled

/-! The fewest decimal digits that round to a given double. A finite double other than zero is
    `mantissa · 2 ^ exponent`, and the reals that round to it form an interval around it; the wanted decimal is
    the point of the coarsest grid `10 ^ k` that falls into this interval. All of it is exact arithmetic on
    natural numbers. -/

namespace Ovsdb.Decimal

/-- The absolute value `mantissa · 2 ^ exponent` of a finite double. `tight` says that the double below is only
    half as far away as the one above, which is so at the powers of two. -/
structure Binary where
  mantissa : Nat
  exponent : Int
  tight : Bool

namespace Binary

/-- Reads the fields of a double's 64-bit pattern. -/
def ofFloat (x : Float) : Binary :=
  let bits := x.toBits.toNat
  let fraction := bits % 0x10000000000000
  let raised : Nat := bits / 0x10000000000000 % 0x800
  if raised = 0 then ⟨fraction, -1074, false⟩
  else ⟨0x10000000000000 + fraction, raised - 1075, fraction == 0 && raised != 1⟩

/-- Four times the mantissa and the two ends of the rounding interval, counted in quarters of the last place. -/
def quarters (b : Binary) : Nat := 4 * b.mantissa
def low (b : Binary) : Nat := b.quarters - if b.tight then 1 else 2
def high (b : Binary) : Nat := b.quarters + 2

/-- A quarter of the last place divided by `10 ^ k`, as a fraction. -/
def gridNum (b : Binary) (k : Int) : Nat := Nat.pow 2 (b.exponent - 2).toNat * Nat.pow 10 (-k).toNat
def gridDen (b : Binary) (k : Int) : Nat := Nat.pow 2 (2 - b.exponent).toNat * Nat.pow 10 k.toNat

/-- Whether `c · 10 ^ k` rounds to the double; the ends of the interval do so if the mantissa is even. -/
def covers (b : Binary) (k : Int) (c : Nat) : Bool :=
  let point := c * b.gridDen k
  let lower := b.low * b.gridNum k
  let upper := b.high * b.gridNum k
  if b.mantissa % 2 = 0 then decide (lower ≤ point ∧ point ≤ upper) else decide (lower < point ∧ point < upper)

/-- Of the value's two neighbours on the grid `10 ^ k` the one that rounds to the double; if both do, the nearer
    one, and the even one of two that are equally near. -/
def pointOn (b : Binary) (k : Int) : Option Nat :=
  let scaled := b.quarters * b.gridNum k
  let below := scaled / b.gridDen k
  let rest := 2 * (scaled % b.gridDen k)
  match b.covers k below, b.covers k (below + 1) with
  | true, true =>
    if rest < b.gridDen k ∨ (rest = b.gridDen k ∧ below % 2 = 0) then some below else some (below + 1)
  | true, false => some below
  | false, true => some (below + 1)
  | false, false => none

/-- The point of the coarsest grid among `10 ^ k`, `10 ^ (k - 1)`, … that has one. -/
def coarsest (b : Binary) : Nat → Int → Scaled
  | 0, k => ⟨b.quarters * b.gridNum k / b.gridDen k, k⟩
  | tries + 1, k =>
    match b.pointOn k with
    | some c => ⟨c, k⟩
    | none => b.coarsest tries (k - 1)

/-- A power of ten above the value: 0.30103 is just above the decimal logarithm of two. -/
def topPower (b : Binary) : Int :=
  (b.mantissa.log2 + 1 + b.exponent) * 30103 / 100000 + 2

/-- The decimal with the fewest digits that rounds to the double. Seventeen digits always suffice, so the search
    ends well within its thirty grids. -/
def shortest (b : Binary) : Scaled :=
  b.coarsest 30 b.topPower

end Binary
end Ovsdb.Decimal
