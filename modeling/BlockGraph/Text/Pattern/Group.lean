import BlockGraph.Text.Alphabetic
import BlockGraph.Text.Numeric
import BlockGraph.Text.Pattern.Reader
import BlockGraph.Text.Pattern.Tree

/-!
# Openings of groups

What stands behind an opening parenthesis: nothing, a name, or flags, which may also stand alone for
the rest of the group around them.
-/

namespace BlockGraph.Text

/-- What an opening parenthesis begins. -/
inductive Opening where
  /-- Flags for the rest of the group around them. -/
  | flags (change : FlagChange)
  | group (captures : Bool) (change : FlagChange)

namespace Parse

/-! ## Flags -/

/-- The change that letters ask for: those behind the dash are cleared. -/
def changeOf (letters : List Char) : FlagChange :=
  let set := letters.takeWhile fun c => c ≠ '-'
  let cleared := (letters.drop set.length).drop 1
  (set.filterMap Flag.ofLetter?).map (·, true) ++ (cleared.filterMap Flag.ofLetter?).map (·, false)

/-- Reads the letters of flags up to a colon or a closing parenthesis; `seen` holds the letters so
far with their places, the last one first. -/
def readFlags : Nat → (seen : List (Char × Stretch)) → Parse (List Char)
  | 0, seen => return (seen.map (·.1)).reverse
  | n + 1, seen => do
    match ← peek with
    | none => refuseHere .flagEnd
    | some c =>
      if c = ':' || c = ')' then
        if let some ('-', dash) := seen.head? then refuse .danglingNegation dash
        return (seen.map (·.1)).reverse
      if c ≠ '-' && (Flag.ofLetter? c).isNone then refuseNext .unknownFlag
      if let some earlier := seen.lookup c then
        refuseAfter (if c = '-' then .negationTwice else .flagTwice) earlier
      let stretch ← nextStretch
      skip 1
      readFlags n ((c, stretch) :: seen)

/-! ## Names -/

/-- Whether a character may stand in a name, at its beginning or later. -/
def isNameChar (first : Bool) (c : Char) : Bool :=
  c = '_' || isAlphabetic c || !first && (isNumeric c || ['.', '[', ']'].contains c)

/-- Reads the rest of a name up to its closing angle; `done` holds its characters so far, the last
one first. -/
def readNameChars : Nat → (done : List Char) → Parse (List Char)
  | 0, done => return done.reverse
  | n + 1, done => do
    match ← peek with
    | none => refuseHere .unclosedName
    | some '>' => return done.reverse
    | some c =>
      if !isNameChar done.isEmpty c then refuseNext .badName
      skip 1
      readNameChars n (c :: done)

/-- Reads the name of a group and its closing angle. -/
def readName : Parse Unit := do
  let start ← place
  let name ← readNameChars ((← rest).length + 1) []
  let stretch ← stretchFrom start
  skip 1
  if name.isEmpty then refuse .emptyName stretch
  let s ← get
  if let some earlier := s.names.lookup name then
    throw (.malformed .nameTwice [stretch, earlier])
  set { s with names := (name, stretch) :: s.names }

/-! ## Openings -/

/-- Reads what an opening parenthesis begins. -/
def readOpening : Parse Opening := do
  let start ← place
  let parenthesis ← nextStretch
  advance
  let looksAround ← ["?=", "?!", "?<=", "?<!"].anyM fun s => skipIf s.toList
  if looksAround then refuseFrom .lookAround start
  let inner ← place
  if (← skipIf ['?', 'P', '<']) || (← skipIf ['?', '<']) then
    readName
    return .group true []
  if ← skipIf ['?'] then
    if (← peek).isNone then refuse .unclosedGroup parenthesis
    let letters ← readFlags ((← rest).length + 1) []
    let isGroup ← skipIf [':']
    if isGroup then return .group false (changeOf letters)
    skip 1
    if letters.isEmpty then refuse .nothingToRepeat (.point inner)
    return .flags (changeOf letters)
  return .group true []

end Parse

end BlockGraph.Text
