import BlockGraph.Json.Breach
import BlockGraph.Json.Reader

/-!
# Examining the tokens of a text

An examiner goes through a text and complains about the first thing that is wrong, with the number
of bytes up to where it shows. It examines less where a value is passed over than where it is kept:
the halves of surrogate pairs and the sizes of numbers are not looked at there.

A complaint about a whole value has no place of its own. It is placed where the examiner stands once
it has left the container of the value.
-/

namespace BlockGraph

/-- Where an examiner stands: the bytes behind it and the text in front. -/
structure Examiner where
  passed : Nat
  rest : List Char

/-- What is wrong, with the number of bytes up to there, if it has a place. -/
structure Complaint where
  breach : Breach
  place : Option Nat

/-- A part of an examination; the examiner goes on from where a complaint was made. -/
abbrev Exam := ExceptT Complaint (StateM Examiner)

namespace Exam

/-! ## Complaints -/

/-- Complains about the value as a whole. -/
def complain {α : Type} (breach : Breach) : Exam α := throw ⟨breach, none⟩

/-- Complains about what was passed. -/
def complainHere {α : Type} (breach : Breach) : Exam α := do
  throw ⟨breach, some (← get).passed⟩

/-- Complains about what lies up to so many bytes ahead. -/
def complainAhead {α : Type} (breach : Breach) (bytes : Nat) : Exam α := do
  let s ← get
  throw ⟨breach, some (s.passed + min bytes (Text.byteLength s.rest))⟩

/-- Complains about the next character. -/
def complainNext {α : Type} (breach : Breach) : Exam α := complainAhead breach 1

/-! ## Steps -/

/-- The next character. -/
def peek : Exam (Option Char) := return (← get).rest.head?

/-- Passes the next character. -/
def pass : Exam Unit := modify fun s =>
  match s.rest with
  | [] => s
  | c :: cs => ⟨s.passed + c.utf8Size, cs⟩

/-- Passes characters of one byte as long as they are of a kind, and gives them. -/
def passWhile (p : Char → Bool) : Exam (List Char) := do
  let s ← get
  let taken := s.rest.takeWhile p
  set (⟨s.passed + taken.length, s.rest.drop taken.length⟩ : Examiner)
  return taken

/-- Passes the blanks between tokens and gives the character behind them. -/
def peekToken : Exam (Option Char) := do
  let _ ← passWhile Reader.isGap
  peek

/-- Passes the characters of a word. -/
def passWord : List Char → Exam Unit
  | [] => return ()
  | c :: cs => do
    match ← peek with
    | none => complainHere .endInValue
    | some d =>
      if d ≠ c then complainNext .wantsWord
      pass
      passWord cs

/-! ## Numbers -/

def digitsOf (cs : List Char) : List Nat := cs.filterMap (Text.digitBelow? 10)

/-- The complaint where a digit is missing at the end of the text. -/
def endOfNumber (kept : Bool) : Breach := if kept then .endInValue else .badNumber

/-- Examines the digits in front of a number's point. -/
def examineWhole (kept : Bool) : Exam (List Nat) := do
  match ← peek with
  | none => complainHere (endOfNumber kept)
  | some '0' =>
    pass
    if (← peek).any Char.isDigit then complainNext .badNumber
    return [0]
  | some c =>
    if !c.isDigit then complainNext .badNumber
    return digitsOf (← passWhile Char.isDigit)

/-- Examines the point of a number and the digits behind it, if there is a point. -/
def examineFraction (kept : Bool) : Exam (Option (List Nat)) := do
  if (← peek) ≠ some '.' then return none
  pass
  let digits ← passWhile Char.isDigit
  if digits.isEmpty then
    if (← peek).isNone then complainHere (endOfNumber kept)
    complainNext .badNumber
  return some (digitsOf digits)

/-- The number of digits of an exponent up to the one that makes it too large. -/
def digitsToLimit (value count : Nat) : List Nat → Option Nat
  | [] => none
  | d :: ds =>
    if Literal.maxExponent < value * 10 + d then some (count + 1)
    else digitsToLimit (value * 10 + d) (count + 1) ds

/-- Examines the exponent of a number, if there is one; `isZero` tells whether all digits in front
of it are zeros. -/
def examineExponent (kept isZero : Bool) : Exam (Option (Bool × List Nat)) := do
  if (← peek) ≠ some 'e' && (← peek) ≠ some 'E' then return none
  pass
  let sign ← peek
  if sign = some '+' || sign = some '-' then pass
  match ← peek with
  | none => complainHere (endOfNumber kept)
  | some c => if !c.isDigit then complainNext .badNumber
  let before ← get
  let digits := digitsOf (← passWhile Char.isDigit)
  if kept && !isZero && sign ≠ some '-' then
    if let some count := digitsToLimit 0 0 digits then
      throw ⟨.numberTooLarge, some (before.passed + count)⟩
  return some (sign = some '-', digits)

/-- Examines a number from its first digit or its sign on. -/
def examineNumber (kept : Bool) : Exam Number := do
  let negative := (← peek) = some '-'
  if negative then pass
  let whole ← examineWhole kept
  let fraction ← examineFraction kept
  let isZero := (whole ++ fraction.getD []).all (· = 0)
  let exponent ← examineExponent kept isZero
  match (⟨negative, whole, fraction, exponent⟩ : Literal).value with
  | some n => return n
  | none => if kept then complainHere .numberTooLarge else return .int 0

/-! ## Strings -/

/-- Examines the four digits of an escape and gives their value. -/
def examineUnit : Exam Nat := do
  let s ← get
  if Text.byteLength s.rest < 4 then complainAhead .endInString 4
  match (s.rest.take 4).mapM Text.hexDigit? with
  | some digits =>
    set (⟨s.passed + 4, s.rest.drop 4⟩ : Examiner)
    return digits.foldl (fun n d => n * 16 + d) 0
  | none => complainAhead .badEscape 4

/-- Passes a character that has to follow the first half of a surrogate pair. -/
def passInPair (c : Char) : Exam Unit := do
  match ← peek with
  | none => complainHere .endInString
  | some d =>
    if d ≠ c then complainNext .brokenPair
    pass

/-- Examines the digits of a `\u` escape and gives its character. A first half of a surrogate pair
takes the escape of the second half with it. -/
def examineCharacter : Exam Char := do
  let unit ← examineUnit
  if 0xDC00 ≤ unit && unit < 0xE000 then complainHere .loneSurrogate
  if unit < 0xD800 || 0xDC00 ≤ unit then return Char.ofNat unit
  passInPair '\\'
  passInPair 'u'
  let low ← examineUnit
  if low < 0xDC00 || 0xE000 ≤ low then complainHere .loneSurrogate
  return Char.ofNat (0x10000 + (unit - 0xD800) * 0x400 + (low - 0xDC00))

/-- Examines an escape behind its backslash and gives its character. -/
def examineEscape (kept : Bool) : Exam Char := do
  match ← peek with
  | none => complainHere .endInString
  | some 'u' =>
    pass
    if kept then examineCharacter
    else
      let _ ← examineUnit
      return 'u'
  | some c =>
    match StringScan.escaped? c with
    | some e =>
      pass
      return e
    | none => complainNext .badEscape

/-- Examines a string behind its opening quotation mark, which ends after at most so many
characters, and gives its text. -/
def examineChars (kept : Bool) : Nat → Exam (List Char)
  | 0 => complainHere .endInString
  | n + 1 => do
    match ← peek with
    | none => complainHere .endInString
    | some '"' =>
      pass
      return []
    | some '\\' =>
      pass
      let c ← examineEscape kept
      return c :: (← examineChars kept n)
    | some c =>
      if c.toNat < 0x20 then
        if kept then complainNext .controlCharacter else complainHere .controlCharacter
      pass
      return c :: (← examineChars kept n)

/-- Examines a string from its opening quotation mark on and gives its text. -/
def examineString (kept : Bool) : Exam String := do
  pass
  return String.ofList (← examineChars kept ((← get).rest.length + 1))

end Exam

end BlockGraph
