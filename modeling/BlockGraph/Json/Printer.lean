import BlockGraph.Decimal.Shortest
import BlockGraph.Json.Value
import BlockGraph.Text.Hex

/-!
# JSON text

A value as text, on one line (`compact`) or indented by two spaces a level (`pretty`). Strings
escape the quote, the backslash and the control characters below U+0020, and nothing else. A
floating-point number is its shortest decimal, positional below `10 ^ 16` and from `10 ^ -5` on,
with a point in any case there.
-/

namespace BlockGraph.Json

/-- A character inside a string. -/
def escape (c : Char) : List Char :=
  match c with
  | '"' => ['\\', '"']
  | '\\' => ['\\', '\\']
  | '\n' => ['\\', 'n']
  | '\r' => ['\\', 'r']
  | '\t' => ['\\', 't']
  | '\x08' => ['\\', 'b']
  | '\x0c' => ['\\', 'f']
  | c => if c.toNat < 0x20 then '\\' :: 'u' :: Text.hexDigits 4 c.toNat else [c]

def quote (s : String) : List Char := '"' :: (s.toList.flatMap escape ++ ['"'])

/-- The decimal digits of a whole number. -/
def natChars (n : Nat) : List Char := Nat.toDigits 10 n

def intChars : Int → List Char
  | .ofNat n => natChars n
  | .negSucc n => '-' :: natChars (n + 1)

/-- An exponent of ten, with its sign in any case. -/
def exponentChars (n : Int) : List Char := 'e' :: if n < 0 then intChars n else '+' :: intChars n

/-- A positive decimal: with a point if its first digit stands above `10 ^ -6` and below `10 ^ 16`,
else with an exponent. -/
def decimalChars (d : Decimal) : List Char :=
  let digits := natChars d.digits
  let zeros (n : Nat) := List.replicate n '0'
  -- the place of the point, counted from the first digit
  let point : Int := digits.length + d.exponent
  if 0 ≤ d.exponent && point ≤ 16 then digits ++ zeros d.exponent.toNat ++ ['.', '0']
  else if 0 < point && point ≤ 16 then
    digits.take point.toNat ++ '.' :: digits.drop point.toNat
  else if -5 < point && point ≤ 0 then
    '0' :: '.' :: (zeros point.natAbs ++ digits)
  else
    let tail := match digits.drop 1 with
      | [] => []
      | rest => '.' :: rest
    digits.take 1 ++ tail ++ exponentChars (point - 1)

/-- A finite floating-point number. -/
def realChars (x : Binary64) : List Char :=
  let body := if x.isZero then ['0', '.', '0'] else decimalChars (Decimal.shortest x)
  if x.isNegative then '-' :: body else body

def numberChars : Number → List Char
  | .int n => intChars n
  | .real x => realChars x

mutual
/-- A value on one line, without spaces. -/
def compactChars : Json → List Char
  | .null => ['n', 'u', 'l', 'l']
  | .bool true => ['t', 'r', 'u', 'e']
  | .bool false => ['f', 'a', 'l', 's', 'e']
  | .num n => numberChars n
  | .str s => quote s
  | .arr items => '[' :: compactItems items
  | .obj members => '\x7b' :: compactMembers members

/-- Items and the closing bracket. -/
def compactItems : List Json → List Char
  | [] => [']']
  | v :: vs => compactChars v ++ compactMoreItems vs

/-- Further items and the closing bracket. -/
def compactMoreItems : List Json → List Char
  | [] => [']']
  | v :: vs => ',' :: (compactChars v ++ compactMoreItems vs)

/-- Members and the closing brace. -/
def compactMembers : List (String × Json) → List Char
  | [] => ['\x7d']
  | (k, v) :: ms => quote k ++ ':' :: (compactChars v ++ compactMoreMembers ms)

/-- Further members and the closing brace. -/
def compactMoreMembers : List (String × Json) → List Char
  | [] => ['\x7d']
  | (k, v) :: ms => ',' :: (quote k ++ ':' :: (compactChars v ++ compactMoreMembers ms))
end

/-- A new line at a level of indentation. -/
def newline (level : Nat) : List Char := '\n' :: List.replicate (2 * level) ' '

mutual
/-- A value over several lines; the lines after the first are indented from `level` on. -/
def prettyChars (level : Nat) : Json → List Char
  | .null => ['n', 'u', 'l', 'l']
  | .bool true => ['t', 'r', 'u', 'e']
  | .bool false => ['f', 'a', 'l', 's', 'e']
  | .num n => numberChars n
  | .str s => quote s
  | .arr [] => ['[', ']']
  | .arr (v :: vs) =>
    '[' :: (newline (level + 1) ++ prettyChars (level + 1) v ++ prettyMoreItems level vs)
  | .obj [] => ['\x7b', '\x7d']
  | .obj ((k, v) :: ms) =>
    '\x7b' :: (newline (level + 1) ++ quote k ++ ':' :: ' ' ::
      (prettyChars (level + 1) v ++ prettyMoreMembers level ms))

/-- Further items of an array at a level, and its closing bracket. -/
def prettyMoreItems (level : Nat) : List Json → List Char
  | [] => newline level ++ [']']
  | v :: vs =>
    ',' :: (newline (level + 1) ++ prettyChars (level + 1) v ++ prettyMoreItems level vs)

/-- Further members of an object at a level, and its closing brace. -/
def prettyMoreMembers (level : Nat) : List (String × Json) → List Char
  | [] => newline level ++ ['\x7d']
  | (k, v) :: ms =>
    ',' :: (newline (level + 1) ++ quote k ++ ':' :: ' ' ::
      (prettyChars (level + 1) v ++ prettyMoreMembers level ms))
end

/-- The value as text on one line. -/
def compact (v : Json) : String := String.ofList v.compactChars

/-- The value as indented text. -/
def pretty (v : Json) : String := String.ofList (v.prettyChars 0)

end BlockGraph.Json
