import BlockGraph.Text.Hex
import BlockGraph.Text.Pattern.Reader
import BlockGraph.Text.Pattern.Tree

/-!
# Escapes

A backslash and what belongs to it stand for a character, a class of characters or a condition on a
place, inside brackets as well as outside.
-/

namespace BlockGraph.Text

namespace Parse

/-! ## Hexadecimal digits -/

/-- The character of a code, if there is one. -/
def scalar? (digits : List Char) : Option Char :=
  let code := digits.foldl (fun n c => n * 16 + (hexDigit? c).getD 0) 0
  if code < 0xD800 || 0xE000 ≤ code && code < 0x110000 then some (Char.ofNat code) else none

/-- Refuses a character that is no hexadecimal digit. -/
def refuseNoHexDigit (c : Char) : Parse Unit := do
  if (hexDigit? c).isNone then refuseNext .noHexDigit

/-- Reads so many hexadecimal digits. -/
def readHexDigits : Nat → Parse (List Char)
  | 0 => return []
  | n + 1 => do
    match ← peek with
    | none => refuseHere .escapeEnd
    | some c =>
      refuseNoHexDigit c
      advance
      return c :: (← readHexDigits n)

/-- Reads hexadecimal digits up to a closing brace; the reader stands at the opening one. -/
def readHexInBraces : Parse Char := do
  let brace ← place
  skip 1
  let start ← place
  skipFiller
  let digits ← takeWhile fun c => (hexDigit? c).isSome
  match ← peek with
  | none => refuseFrom .escapeEnd brace
  | some '\x7d' =>
    let stop ← place
    advance
    if digits.isEmpty then refuseFrom .emptyHex brace
    else match scalar? digits with
      | some c => return c
      | none => refuse .noScalar ⟨start, stop⟩
  | some _ => refuseNext .noHexDigit

/-- Reads the digits of a hexadecimal escape, which stand in braces or are so many. The reader
stands at the escape's letter, and `start` is where the escape begins. -/
def readHex (width : Nat) (start : Mark) : Parse Atom := do
  advance
  match ← peek with
  | none => refuseHere .escapeEnd
  | some '\x7b' =>
    let c ← readHexInBraces
    return .literal ⟨← stretchFrom start, c, false⟩
  | some _ =>
    let first ← place
    let digits ← readHexDigits width
    match scalar? digits with
    | some c => return .literal ⟨← stretchFrom start, c, width = 2⟩
    | none => refuseFrom .noScalar first

/-! ## Words -/

/-- The condition of a name behind `\b`. -/
def boundary? (name : List Char) : Option Anchor :=
  match String.ofList name with
  | "start" => some .wordStart
  | "end" => some .wordEnd
  | "start-half" => some .wordStartHalf
  | "end-half" => some .wordEndHalf
  | _ => none

/-- Reads what follows `\b`: a condition named in braces, or none, when a number of times may
follow. -/
def readBoundary (start : Mark) : Parse Anchor := do
  if (← peek) ≠ some '\x7b' then return .wordBoundary
  let before ← get
  advance
  refuseEnd .openBoundary start
  let first ← place
  let name ← takeWhile fun c => c.isAlpha || c = '-'
  if name.isEmpty then
    set before
    return .wordBoundary
  if (← peek) ≠ some '\x7d' then refuseFrom .unclosedBoundary before.place
  let last ← place
  skip 1
  match boundary? name with
  | some anchor => return anchor
  | none => refuse .unknownBoundary ⟨first, last⟩

/-! ## Properties -/

/-- The part of a text in front of another one, and the part behind it. -/
def splitAt? (mark : List Char) : List Char → Option (List Char × List Char)
  | [] => none
  | c :: cs =>
    if mark.isPrefixOf (c :: cs) then some ([], (c :: cs).drop mark.length)
    else (splitAt? mark cs).map fun (front, back) => (c :: front, back)

/-- What the text between the braces of a property asks for. -/
def propertyOf (text : List Char) : Property :=
  match (splitAt? ['!', '='] text).or ((splitAt? [':'] text).or (splitAt? ['='] text)) with
  | some (name, value) => .valued name value
  | none => .named text

/-- Reads a property, a letter or a text in braces. The reader stands at the escape's letter. -/
def readProperty : Parse Property := do
  advance
  match ← peek with
  | none => refuseHere .escapeEnd
  | some '\x7b' =>
    advance
    let text ← takeWhile fun c => c ≠ '\x7d'
    if (← peek).isNone then refuseHere .escapeEnd
    skip 1
    return propertyOf text
  | some '\\' => refuseNext .propertyLetter
  | some c =>
    advance
    return .named [c]

/-! ## Escapes -/

/-- The characters that have a meaning of their own somewhere. -/
def isMeta (c : Char) : Bool := "\\.+*?()|[]\x7b\x7d^$#&-~".toList.contains c

/-- Whether a backslash in front of a character leaves it what it is. -/
def isEscapable (c : Char) : Bool :=
  isMeta c || (c.toNat < 0x80 && !c.isAlphanum && c ≠ '<' && c ≠ '>')

/-- The control character that a letter stands for. -/
def control? : Char → Option Char
  | 'a' => some '\x07'
  | 'f' => some '\x0c'
  | 't' => some '\t'
  | 'n' => some '\n'
  | 'r' => some '\r'
  | 'v' => some '\x0b'
  | _ => none

/-- The class that a letter stands for, and whether it is negated. -/
def letterClass? : Char → Option (LetterClass × Bool)
  | 'd' => some (.digit, false)
  | 'D' => some (.digit, true)
  | 's' => some (.space, false)
  | 'S' => some (.space, true)
  | 'w' => some (.word, false)
  | 'W' => some (.word, true)
  | _ => none

/-- The condition that a character stands for. -/
def anchor? : Char → Option Anchor
  | 'A' => some .textStart
  | 'z' => some .textEnd
  | 'b' => some .wordBoundary
  | 'B' => some .noWordBoundary
  | '<' => some .wordStart
  | '>' => some .wordEnd
  | _ => none

/-- Reads an escape of one character, which begins at `start`. -/
def readShort (c : Char) (start : Mark) : Parse Atom := do
  skip 1
  let stretch ← stretchFrom start
  if isEscapable c then return .literal ⟨stretch, c, false⟩
  if let some control := control? c then return .literal ⟨stretch, control, false⟩
  if let some (kind, negated) := letterClass? c then return .letter stretch kind negated
  match anchor? c with
  | some .wordBoundary =>
    let anchor ← readBoundary start
    return .anchor (← stretchFrom start) anchor
  | some anchor => return .anchor stretch anchor
  | none => refuse (if c.isDigit then .backreference else .unknownEscape) stretch

def readEscape : Parse Atom := do
  let start ← place
  skip 1
  match ← peek with
  | none => refuseFrom .escapeEnd start
  | some 'x' => readHex 2 start
  | some 'u' => readHex 4 start
  | some 'U' => readHex 8 start
  | some 'p' | some 'P' =>
    let property ← readProperty
    return .property (← stretchFrom start) property
  | some c => readShort c start

end Parse

end BlockGraph.Text
