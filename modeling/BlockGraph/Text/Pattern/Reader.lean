import BlockGraph.Text.Blank
import BlockGraph.Text.Pattern.Error

/-!
# Reading patterns

The reader of a pattern's text stands at a character and knows its line and column. Where white
space counts for nothing, a step may pass the blanks and comments that follow.
-/

namespace BlockGraph.Text

/-- Where the reader of a pattern stands. -/
structure Cursor where
  place : Mark
  rest : List Char
  /-- Whether white space and comments count for nothing. -/
  spaced : Bool
  /-- The names of groups so far, each with the stretch where it stands. -/
  names : List (List Char × Stretch)

abbrev Parse := StateT Cursor (Except PatternError)

namespace Parse

def run {α : Type} (p : Parse α) (text : List Char) : Except PatternError α :=
  p.run' ⟨.start, text, false, []⟩

/-! ## Places -/

/-- Where the reader stands. -/
def place : Parse Mark := return (← get).place

/-- What is still to be read. -/
def rest : Parse (List Char) := return (← get).rest

/-- The next character. -/
def peek : Parse (Option Char) := return (← get).rest.head?

/-- The stretch of the next character; at the end, an empty one. -/
def nextStretch : Parse Stretch := do
  let s ← get
  return s.rest.head?.elim (.point s.place) (.ofChar s.place)

/-- The stretch from a place to where the reader stands. -/
def stretchFrom (start : Mark) : Parse Stretch := return ⟨start, ← place⟩

/-! ## Refusals -/

def refuse {α : Type} (fault : PatternFault) (s : Stretch) : Parse α :=
  throw (.malformed fault [s])

/-- Refuses the text from a place to where the reader stands. -/
def refuseFrom {α : Type} (fault : PatternFault) (start : Mark) : Parse α := do
  refuse fault (← stretchFrom start)

/-- Refuses the place where the reader stands. -/
def refuseHere {α : Type} (fault : PatternFault) : Parse α := do refuse fault (.point (← place))

def refuseNext {α : Type} (fault : PatternFault) : Parse α := do refuse fault (← nextStretch)

/-- Refuses the next character because of an earlier stretch. -/
def refuseAfter {α : Type} (fault : PatternFault) (earlier : Stretch) : Parse α := do
  throw (.malformed fault [← nextStretch, earlier])

/-! ## Steps -/

/-- Passes so many characters. -/
def skip (n : Nat) : Parse Unit := modify fun s =>
  { s with place := (s.rest.take n).foldl Mark.past s.place, rest := s.rest.drop n }

/-- The number of characters that count for nothing in front of a text: blanks, and comments up to
the end of their lines. -/
def fillerLength : (inComment : Bool) → List Char → Nat
  | _, [] => 0
  | true, c :: cs => 1 + fillerLength (c ≠ '\n') cs
  | false, c :: cs =>
    if isBlank c then 1 + fillerLength false cs
    else if c = '#' then 1 + fillerLength true cs
    else 0

/-- Passes what counts for nothing. -/
def skipFiller : Parse Unit := do
  let s ← get
  if s.spaced then skip (fillerLength false s.rest)

/-- Passes one character and what counts for nothing after it. -/
def advance : Parse Unit := do
  skip 1
  skipFiller

/-- Passes a text, if it follows. -/
def skipIf (cs : List Char) : Parse Bool := do
  if cs.isPrefixOf (← rest) then
    skip cs.length
    return true
  else return false

/-- Refuses the text from a place on, if nothing follows. -/
def refuseEnd (fault : PatternFault) (start : Mark) : Parse Unit := do
  if (← peek).isNone then refuseFrom fault start

/-- Passes the characters of a kind, with what counts for nothing after each, and gives them. -/
def takeWhile (p : Char → Bool) : Parse (List Char) := do go (← rest).length
where
  /-- Passes at most so many characters. -/
  go : Nat → Parse (List Char)
    | 0 => return []
    | n + 1 => do
      match ← peek with
      | none => return []
      | some c =>
        if p c then
          advance
          return c :: (← go n)
        else return []

end Parse

end BlockGraph.Text
