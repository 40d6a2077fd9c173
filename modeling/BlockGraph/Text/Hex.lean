/-!
# Hexadecimal text

Single digits in either case, bytes as two digits, and the optional marker in front of a hexadecimal
text.

- `hexDigit?_hexDigit`: a written digit reads back.
-/

namespace BlockGraph.Text

/-- The value of a hexadecimal digit in either case. -/
def hexDigit? (c : Char) : Option Nat :=
  if '0' ≤ c && c ≤ '9' then some (c.toNat - '0'.toNat)
  else if 'a' ≤ c && c ≤ 'f' then some (c.toNat - 'a'.toNat + 10)
  else if 'A' ≤ c && c ≤ 'F' then some (c.toNat - 'A'.toNat + 10)
  else none

/-- The lower-case digit of a value below sixteen. -/
def hexDigit (n : Nat) : Char :=
  if n < 10 then Char.ofNat ('0'.toNat + n) else Char.ofNat ('a'.toNat + (n - 10))

theorem hexDigit?_hexDigit (n : Nat) (h : n < 16) : hexDigit? (hexDigit n) = some n := by
  have : ∀ m < 16, hexDigit? (hexDigit m) = some m := by decide
  exact this n h

/-- The last `width` hexadecimal digits of a number. -/
def hexDigits : (width : Nat) → Nat → List Char
  | 0, _ => []
  | width + 1, n => hexDigits width (n / 16) ++ [hexDigit (n % 16)]

/-- The byte that exactly two hexadecimal digits spell. -/
def byteOfDigits? (high low : Char) : Option UInt8 := do
  let h ← hexDigit? high
  let l ← hexDigit? low
  return UInt8.ofNat (h * 16 + l)

/-- The bytes that a text of digits spells, two digits for each. -/
def bytesOfDigits? : List Char → Option (List UInt8)
  | [] => some []
  | [_] => none
  | high :: low :: rest => do
    let byte ← byteOfDigits? high low
    let bytes ← bytesOfDigits? rest
    return byte :: bytes

/-- Bytes as lower-case digits, two for each. -/
def digitsOfBytes (bytes : List UInt8) : List Char := bytes.flatMap fun byte => hexDigits 2 byte.toNat

/-- The text after one optional `0x` or `0X`, and whether it was there. -/
def splitMarker : List Char → Bool × List Char
  | '0' :: 'x' :: rest => (true, rest)
  | '0' :: 'X' :: rest => (true, rest)
  | cs => (false, cs)

/-- The text after one optional `0x` or `0X`. -/
def dropMarker (cs : List Char) : List Char := (splitMarker cs).2

/-- A byte as `0x` and two lower-case digits. -/
def byteText (b : UInt8) : String := String.ofList ('0' :: 'x' :: hexDigits 2 b.toNat)

end BlockGraph.Text
