import BlockGraph.Decimal.Binary64
import BlockGraph.Text.Numeral

/-!
# Decimal literals

The value of a number written with digits, a point and an exponent. Digits are gathered into a
significand of 64 bits for as long as it can take them; the others of the whole part count as
zeros, those of the fraction are dropped. The significand is then scaled by powers of ten, each
step rounded, so that a long literal need not give the nearest number.
-/

namespace BlockGraph

/-- The parts of a number as written. -/
structure Literal where
  negative : Bool
  whole : List Nat
  /-- The digits after the point, if there is a point. -/
  fraction : Option (List Nat)
  /-- The sign and the digits of the exponent, if there is one. -/
  exponent : Option (Bool × List Nat)
  deriving DecidableEq, Repr

/-- A number as it is kept: an integer within 64 bits, or a floating-point number. -/
inductive Number where
  | int (value : Int)
  | real (value : Binary64)
  deriving DecidableEq, Repr

namespace Literal

/-- Takes digits into the significand while it stays within 64 bits; the digits left over follow. -/
def gather : Nat → List Nat → Nat × List Nat
  | significand, [] => (significand, [])
  | significand, d :: ds =>
    if significand * 10 + d ≤ Text.maxWord then gather (significand * 10 + d) ds
    else (significand, d :: ds)

/-- The greatest exponent that is kept. -/
def maxExponent : Nat := 0x7FFFFFFF

/-- The value of the exponent's digits; `none` past the greatest one. -/
def exponentValue? (digits : List Nat) : Option Nat :=
  digits.foldlM (fun e d => if e * 10 + d ≤ maxExponent then some (e * 10 + d) else none) 0

/-- A sum of exponents, held within the range of 32 bits. -/
def clampExponent (e : Int) : Int := max (-0x80000000) (min e 0x7FFFFFFF)

/-- `10 ^ n` as a floating-point number. -/
def powerOfTen (n : Nat) : Binary64 := Binary64.ofNat (Nat.pow 10 n)

/-- Divides by `10 ^ n` in steps of at most `10 ^ 308`; a zero stays. -/
def divideByTens (x : Binary64) (n : Nat) : Binary64 :=
  if n ≤ 308 then x.div (powerOfTen n)
  else if x.isZero then x
  else divideByTens (x.div (powerOfTen 308)) (n - 308)
termination_by n

/-- The number `significand · 10 ^ exponent`; `none` where it is too large. -/
def scale (significand : Nat) (exponent : Int) : Option Binary64 :=
  let x := Binary64.ofNat significand
  if exponent < 0 then some (divideByTens x exponent.natAbs)
  else if exponent ≤ 308 then some (x.mul (powerOfTen exponent.toNat)) |>.filter (·.isFinite)
  else if x.isZero then some x
  else none

/-- The value of a literal without regard to its sign; `none` where it is too large. -/
def unsignedReal (l : Literal) : Option Binary64 :=
  let (whole, dropped) := gather 0 l.whole
  let fraction := l.fraction.getD []
  let (significand, unused) := gather whole fraction
  let start : Int := dropped.length - (fraction.length - unused.length : Nat)
  match l.exponent with
  | none => scale significand start
  | some (negative, digits) =>
    match exponentValue? digits with
    | some e => scale significand (clampExponent (if negative then start - e else start + e))
    | none => if significand ≠ 0 && !negative then none else some (Binary64.ofNat 0)

def isWhole (l : Literal) : Bool := l.fraction.isNone && l.exponent.isNone

/-- The value of a literal; `none` where it is beyond every floating-point number. A whole one that
fits 64 bits with its sign stays an integer, but a negative zero does not. -/
def value (l : Literal) : Option Number :=
  let (whole, dropped) := gather 0 l.whole
  let negate (x : Binary64) := if l.negative then x.neg else x
  if l.isWhole && dropped.isEmpty then
    if !l.negative then some (.int whole)
    else if whole ≠ 0 && whole ≤ Binary64.signWeight then some (.int (-whole))
    else some (.real (negate (Binary64.ofNat whole)))
  else l.unsignedReal.map fun x => .real (negate x)

end Literal

end BlockGraph
