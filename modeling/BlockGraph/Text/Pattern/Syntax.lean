import BlockGraph.Text.Numeral
import BlockGraph.Text.Pattern.Class
import BlockGraph.Text.Pattern.Group

/-!
# The syntax of patterns

A pattern is a choice between sequences of parts. A part is a character, a class, a group or a
condition on a place, and a repetition may follow it. Flags that are set in a group hold to its end,
past the bars of its choices.
-/

namespace BlockGraph.Text

namespace Parse

/-! ## Repetitions -/

/-- Reads a number of a repetition, and gives where it stands; `none` when no digit follows. -/
def readCount : Parse (Stretch × Option Nat) := do
  skip ((← rest).takeWhile isBlank).length
  let start ← place
  let digits ← takeWhile Char.isDigit
  let stretch ← stretchFrom start
  let _ ← takeWhile isBlank
  if digits.isEmpty then return (stretch, none)
  return (stretch, some (digits.foldl (fun n c => n * 10 + (digitBelow? 10 c).getD 0) 0))

/-- The greatest number of times. -/
def maxCount : Nat := 0xFFFFFFFF

/-- The number of times, which has to be there and to fit. -/
def needCount : Stretch × Option Nat → Parse Nat
  | (_, some n) => return n
  | (stretch, none) => refuse .countDigits stretch

/-- Refuses a number of times that is too large. -/
def refuseLarge : Stretch × Option Nat → Parse Unit
  | (stretch, some n) => if n ≤ maxCount then return () else refuse .numberTooLarge stretch
  | (_, none) => return ()

/-- Reads the numbers of times in braces: the least, and the greatest unless it is open. The reader
stands at the opening brace. -/
def readCounts : Parse (Nat × Option Nat) := do
  let start ← place
  advance
  refuseEnd .unclosedCount start
  let first ← readCount
  refuseEnd .unclosedCount start
  if (← peek) = some ',' then
    advance
    refuseEnd .unclosedCount start
    let isOpen := (← peek) = some '\x7d'
    refuseLarge first
    let least ← needCount first
    if isOpen then return (least, none)
    let second ← readCount
    refuseLarge second
    return (least, some (← needCount second))
  refuseLarge first
  let times ← needCount first
  return (times, some times)

/-- Reads a repetition in braces of a part. -/
def readCounted (part : Tree) : Parse Tree := do
  let start ← place
  let (least, most) ← readCounts
  if (← peek) ≠ some '\x7d' then refuseFrom .unclosedCount start
  advance
  let _ ← skipIf ['?']
  if most.any (· < least) then refuseFrom .countOrder start
  return .repeated (← stretchFrom part.stretch.start) part least most

/-- Reads a repetition of one character of a part, with the mark that makes it a short one. -/
def readRepetition (part : Tree) (least : Nat) (most : Option Nat) : Parse Tree := do
  skip 1
  let _ ← skipIf ['?']
  return .repeated (← stretchFrom part.stretch.start) part least most

end Parse

/-! ## Bodies -/

/-- A choice as far as it has been read. -/
structure Body where
  /-- Where the first branch begins. -/
  start : Mark
  /-- The branches before the last bar, the last one first. -/
  branches : List Tree
  /-- Where the branch under way begins. -/
  branchStart : Mark
  /-- The parts of the branch under way, the last one first. -/
  parts : List Tree

namespace Body

/-- Nothing read at a place. -/
def new (m : Mark) : Body := ⟨m, [], m, []⟩

def push (b : Body) (part : Tree) : Body := { b with parts := part :: b.parts }

/-- The branch under way when it ends at a place. -/
def branch (b : Body) (stop : Mark) : Tree :=
  match b.parts with
  | [] => .empty ⟨b.branchStart, stop⟩
  | [part] => part
  | parts => .sequence ⟨b.branchStart, stop⟩ parts.reverse

/-- The body behind a bar, which stands between two places. -/
def bar (b : Body) (bar : Stretch) : Body :=
  { b with branches := b.branch bar.start :: b.branches, branchStart := bar.stop, parts := [] }

/-- What the body is when it ends at a place. -/
def tree (b : Body) (stop : Mark) : Tree :=
  if b.branches.isEmpty then b.branch stop
  else .choice ⟨b.start, stop⟩ (b.branch stop :: b.branches).reverse

end Body

namespace Parse

/-- The part that a repetition is about, and the body without it. -/
def repeatable (b : Body) : Parse (Tree × Body) := do
  match b.parts with
  | part :: parts =>
    if part.isRepeatable then return (part, { b with parts })
    else refuseHere .nothingToRepeat
  | [] => refuseHere .nothingToRepeat

def readCharacter (c : Char) : Parse Atom := do
  let stretch ← nextStretch
  skip 1
  return match c with
    | '.' => .dot stretch
    | '^' => .anchor stretch .lineStart
    | '$' => .anchor stretch .lineEnd
    | c => .literal ⟨stretch, c, false⟩

/-- Reads a part that is no group, with the repetitions of the part before it. -/
def readPart (c : Char) (b : Body) : Parse Body := do
  match c with
  | '[' => return b.push (.bracketed (← readClass))
  | '?' =>
    let (part, b) ← repeatable b
    return b.push (← readRepetition part 0 (some 1))
  | '*' =>
    let (part, b) ← repeatable b
    return b.push (← readRepetition part 0 none)
  | '+' =>
    let (part, b) ← repeatable b
    return b.push (← readRepetition part 1 none)
  | '\x7b' =>
    let (part, b) ← repeatable b
    return b.push (← readCounted part)
  | '\\' => return b.push (.atom (← readEscape))
  | c => return b.push (.atom (← readCharacter c))

/-- Sets whether white space counts for nothing. -/
def setSpaced (spaced : Bool) : Parse Unit := modify fun s => { s with spaced }

/-- Reads a body to its end: to the parenthesis that closes the group, whose opening one is given,
or to the end of the text. -/
def readBody : Nat → (opened : Option Stretch) → Body → Parse Tree
  | 0, _, b => return b.tree (← place)
  | fuel + 1, opened, b => do
    skipFiller
    match ← peek with
    | none =>
      match opened with
      | none => return b.tree (← place)
      | some parenthesis => refuse .unclosedGroup parenthesis
    | some ')' =>
      if opened.isNone then refuseNext .unopenedGroup
      let tree := b.tree (← place)
      skip 1
      return tree
    | some '|' =>
      let bar ← nextStretch
      skip 1
      readBody fuel opened (b.bar bar)
    | some '(' =>
      let parenthesis ← nextStretch
      let around := (← get).spaced
      match ← readOpening with
      | .flags change =>
        setSpaced ((change.to? .spaced).getD around)
        readBody fuel opened (b.push (.flags (← stretchFrom parenthesis.start) change))
      | .group captures change =>
        setSpaced ((change.to? .spaced).getD around)
        let body ← readBody fuel (some parenthesis) (.new (← place))
        setSpaced around
        let stretch ← stretchFrom parenthesis.start
        readBody fuel opened (b.push (.group stretch captures change body))
    | some c => readBody fuel opened (← readPart c b)

end Parse

namespace Tree

/-- Reads a pattern's text; its parts must not be nested too deep. -/
def ofText (text : String) : Except PatternError Tree := do
  let cs := text.toList
  let tree ← (Parse.readBody (cs.length + 1) none (.new .start)).run cs
  match tree.tooDeep? maxNesting with
  | some s => throw (.malformed .tooDeep [s])
  | none => return tree

end Tree

end BlockGraph.Text
