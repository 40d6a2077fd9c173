/-!
# Binary floating-point numbers of 64 bits

A number is its bit pattern; a finite one stands for the exact value `± m · 2 ^ q`. Arithmetic is
exact on these values and then rounds once: `nearest` gives the nearest number to a quotient, of two
equally near ones the one with an even significand, and an infinity past the largest.
-/

namespace BlockGraph

/-- A binary floating-point number: sign, eleven bits of exponent, fifty-two bits of fraction. -/
structure Binary64 where
  bits : UInt64
  deriving DecidableEq, Repr, Inhabited

namespace Binary64

def signWeight : Nat := 0x8000000000000000

/-- The weight of the exponent's last bit, just above the fraction: `2 ^ 52`. -/
def exponentWeight : Nat := 0x10000000000000

/-- The pattern of infinity without a sign. -/
def infinityBits : Nat := 2047 * exponentWeight

/-- The pattern without the sign bit. -/
def magnitude (x : Binary64) : Nat := x.bits.toNat % signWeight

def isNegative (x : Binary64) : Bool := signWeight ≤ x.bits.toNat

/-- Whether the number is neither infinite nor undefined. -/
def isFinite (x : Binary64) : Bool := x.magnitude < infinityBits

/-- Whether the number is a zero of either sign. -/
def isZero (x : Binary64) : Bool := x.magnitude == 0

/-- The whole significand `m` of a finite number. -/
def significand (x : Binary64) : Nat :=
  let fraction := x.magnitude % exponentWeight
  if x.magnitude / exponentWeight = 0 then fraction else fraction + exponentWeight

/-- The exponent `q` of a finite number. -/
def exponent (x : Binary64) : Int :=
  let biased : Nat := x.magnitude / exponentWeight
  if biased = 0 then -1074 else (biased : Int) - 1075

/-- The number with the given sign and unsigned pattern. -/
def ofMagnitude (negative : Bool) (magnitude : Nat) : Binary64 :=
  ⟨UInt64.ofNat (if negative then signWeight + magnitude else magnitude)⟩

/-- The number with the other sign. -/
def neg (x : Binary64) : Binary64 := ofMagnitude (!x.isNegative) x.magnitude

/-- A fraction that stands for `m · 2 ^ q`. -/
def scaled (m : Nat) (q : Int) : Nat × Nat := (m <<< q.toNat, 1 <<< (-q).toNat)

/-- The whole number nearest to a quotient; of two equally near ones the even one. -/
def roundQuotient (num den : Nat) : Nat :=
  let floor := num / den
  match compare (2 * (num % den)) den with
  | .lt => floor
  | .gt => floor + 1
  | .eq => floor + floor % 2

/-- The exponent at which a positive quotient has fifty-three significant bits, or the least one. -/
def quotientExponent (num den : Nat) : Int :=
  let guess : Int := (Nat.log2 num : Int) - (Nat.log2 den : Int)
  let (a, b) := scaled den guess
  let exact := if num * b < a then guess - 1 else guess
  max (exact - 52) (-1074)

def nearest (negative : Bool) (num den : Nat) : Binary64 :=
  if num = 0 then ofMagnitude negative 0
  else
    let q := quotientExponent num den
    let (unit, factor) := scaled den q
    let m := roundQuotient (num * factor) unit
    -- a significand below 2 ^ 52 occurs at the least exponent alone, where it is its own pattern
    let pattern := (q + 1074).toNat * exponentWeight + m
    ofMagnitude negative (min pattern infinityBits)

/-- The number nearest to a whole number. -/
def ofNat (n : Nat) : Binary64 := nearest false n 1

/-- The number nearest to an integer. -/
def ofInt (n : Int) : Binary64 := nearest (n < 0) n.natAbs 1

/-- The product of two finite numbers. -/
def mul (x y : Binary64) : Binary64 :=
  let (num, den) := scaled (x.significand * y.significand) (x.exponent + y.exponent)
  nearest (x.isNegative != y.isNegative) num den

/-- The quotient of two finite numbers, the second not zero. -/
def div (x y : Binary64) : Binary64 :=
  let (num, den) := scaled x.significand (x.exponent - y.exponent)
  nearest (x.isNegative != y.isNegative) num (den * y.significand)

end Binary64

end BlockGraph
