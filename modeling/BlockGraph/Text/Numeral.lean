import BlockGraph.Text.Hex

/-!
# Numerals

Unsigned whole numbers written in a radix of at most sixteen, up to a largest value. Digits are read
left to right, and the first character that spoils the number decides the error: one that is no
digit, or the digit at which the value first passes the limit.
-/

namespace BlockGraph.Text

/-- Why a text is no number. -/
inductive NumeralError where
  | empty
  | invalidDigit
  | tooLarge
  deriving DecidableEq, Repr

def NumeralError.message : NumeralError → String
  | .empty => "cannot parse integer from empty string"
  | .invalidDigit => "invalid digit found in string"
  | .tooLarge => "number too large to fit in target type"

def digitBelow? (radix : Nat) (c : Char) : Option Nat := (hexDigit? c).filter (· < radix)

/-- Appends one digit to a value. A character that is no digit is reported before the overflow that
it would cause. -/
def appendDigit (radix limit value : Nat) (c : Char) : Except NumeralError Nat :=
  match digitBelow? radix c with
  | none => .error .invalidDigit
  | some d => if value * radix + d ≤ limit then .ok (value * radix + d) else .error .tooLarge

/-- Reads a number: one optional `+`, then digits. A sign alone is an invalid digit. -/
def readNumeral (radix limit : Nat) (cs : List Char) : Except NumeralError Nat :=
  match cs with
  | [] => .error .empty
  | ['+'] => .error .invalidDigit
  | '+' :: digits => digits.foldlM (appendDigit radix limit) 0
  | digits => digits.foldlM (appendDigit radix limit) 0

/-- The largest number of 64 bits. -/
def maxWord : Nat := 0xFFFFFFFFFFFFFFFF

/-- Reads a decimal number of at most 64 bits. -/
def readDecimal (s : String) : Except NumeralError Nat := readNumeral 10 maxWord s.toList

end BlockGraph.Text
