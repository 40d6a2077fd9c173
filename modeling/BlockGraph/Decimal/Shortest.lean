import BlockGraph.Decimal.Binary64

/-!
# Shortest decimals

The decimal with the fewest digits that reads back as a given number. All reals between the two
halfway points around a number round to it, the ends included when its significand is even. The
coarsest grid `10 ^ k` with a point in that interval gives the fewest digits; of two such points the
one nearer to the number is taken, at a tie the even one.
-/

namespace BlockGraph

/-- The value `digits · 10 ^ exponent`. -/
structure Decimal where
  digits : Nat
  exponent : Int
  deriving DecidableEq, Repr

namespace Decimal

/-- The reals that round to a positive number, in quarters of its last place: `4 m` is the number
itself, the lower end is nearer where the exponent changes below it. -/
structure Interval where
  low : Nat
  middle : Nat
  high : Nat
  /-- Whether the ends round to the number too. -/
  closed : Bool
  /-- The exponent of two of a quarter. -/
  quarter : Int

/-- The interval of a positive finite number. -/
def interval (x : Binary64) : Interval :=
  let m := x.significand
  let narrow := m = Binary64.exponentWeight && x.exponent > -1074
  ⟨4 * m - (if narrow then 1 else 2), 4 * m, 4 * m + 2, m % 2 = 0, x.exponent - 2⟩

/-- The point of the grid `10 ^ k` that lies in the interval, the nearest one to the middle. -/
def onGrid? (i : Interval) (k : Int) : Option Decimal :=
  let unit := Nat.pow 10 (-k).toNat <<< i.quarter.toNat
  let step := Nat.pow 10 k.toNat <<< (-i.quarter).toNat
  let inside (d : Nat) : Bool :=
    let v := d * step
    if i.closed then i.low * unit ≤ v && v ≤ i.high * unit
    else i.low * unit < v && v < i.high * unit
  let middle := i.middle * unit
  let below := middle / step
  match inside below, inside (below + 1) with
  | false, false => none
  | true, false => some ⟨below, k⟩
  | false, true => some ⟨below + 1, k⟩
  | true, true => some ⟨Binary64.roundQuotient middle step, k⟩

/-- The exponents of ten that a grid may have, the coarsest first. -/
def gridExponents : List Int := (List.range 634).map fun (n : Nat) => 309 - (n : Int)

/-- The shortest decimal of a positive finite number. -/
def shortest (x : Binary64) : Decimal :=
  (gridExponents.findSome? (onGrid? (interval x))).getD ⟨0, 0⟩

end Decimal

end BlockGraph
