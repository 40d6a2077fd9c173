import BlockGraph.Text.Pattern.Escape

/-!
# Classes in brackets

A class lists characters, ranges, escapes, named classes and other classes. Lists may be joined by
`&&`, `--` and `~~`, which bind from left to right and looser than the listing does.
-/

namespace BlockGraph.Text

/-- The items of a class since the last joining. -/
structure ClassItems where
  stretch : Stretch
  /-- The items, the last one first. -/
  done : List ClassTree

namespace ClassItems

def start (m : Mark) : ClassItems := ⟨.point m, []⟩

def push (items : ClassItems) (c : ClassTree) : ClassItems :=
  let start := if items.done.isEmpty then c.stretch.start else items.stretch.start
  ⟨⟨start, c.stretch.stop⟩, c :: items.done⟩

def tree (items : ClassItems) : ClassTree :=
  match items.done with
  | [] => .empty items.stretch
  | [c] => c
  | done => .several items.stretch done.reverse

end ClassItems

/-- A class as far as it has been read. -/
structure OpenClass where
  /-- The opening bracket and what belongs to it. -/
  opening : Stretch
  negated : Bool
  /-- What stands before the last joining. -/
  joined : Option (Joining × ClassTree)
  items : ClassItems

namespace OpenClass

def push (b : OpenClass) (c : ClassTree) : OpenClass := { b with items := b.items.push c }

/-- What the class holds so far. -/
def tree (b : OpenClass) : ClassTree :=
  let right := b.items.tree
  match b.joined with
  | some (joining, left) => .joined ⟨left.stretch.start, right.stretch.stop⟩ joining left right
  | none => right

/-- The class behind a joining, which ends at a place. -/
def join (b : OpenClass) (joining : Joining) (m : Mark) : OpenClass :=
  { b with joined := some (joining, b.tree), items := .start m }

/-- Where the class stands when it ends at a place. -/
def stretch (b : OpenClass) (stop : Mark) : Stretch := ⟨b.opening.start, stop⟩

end OpenClass

namespace Parse

def refuseOpen {α : Type} (b : OpenClass) : Parse α := refuse .unclosedClass b.opening

/-! ## The opening -/

/-- Reads the dashes that open a class which begins at `start`. -/
def readDashes (start : Mark) : Nat → ClassItems → Parse ClassItems
  | 0, items => return items
  | n + 1, items => do
    if (← peek) ≠ some '-' then return items
    let dash ← nextStretch
    advance
    if (← peek).isNone then refuse .unclosedClass (.point start)
    readDashes start n (items.push (.literal ⟨dash, '-', false⟩))

/-- Reads the opening of a class: the bracket, a negation, and dashes or a closing bracket that
stand for themselves. -/
def readClassOpening : Parse OpenClass := do
  let start ← place
  advance
  refuseEnd .unclosedClass start
  let negated := (← peek) = some '^'
  if negated then
    advance
    refuseEnd .unclosedClass start
  let items ← readDashes start (← rest).length (.start (← place))
  if items.done.isEmpty && (← peek) = some ']' then
    let bracket ← nextStretch
    advance
    refuseEnd .unclosedClass start
    let items := items.push (.literal ⟨bracket, ']', false⟩)
    return ⟨← stretchFrom start, negated, none, items⟩
  return ⟨← stretchFrom start, negated, none, items⟩

/-! ## Items -/

/-- Reads a named class such as `[:alpha:]`, if one follows. -/
def readNamed : Parse (Option ClassTree) := do
  match ← rest with
  | '[' :: ':' :: more =>
    let negated := more.head? = some '^'
    let more := if negated then more.drop 1 else more
    let name := more.takeWhile fun c => c ≠ ':'
    match more.drop name.length, CharSet.named? (String.ofList name) with
    | ':' :: ']' :: _, some set =>
      let start ← place
      skip (name.length + (if negated then 5 else 4))
      return some (.named (← stretchFrom start) set negated)
    | _, _ => return none
  | _ => return none

/-- Reads one character or escape of a class. -/
def readClassAtom (b : OpenClass) : Parse Atom := do
  match ← peek with
  | some '\\' => readEscape
  | some c =>
    let stretch ← nextStretch
    skip 1
    return .literal ⟨stretch, c, false⟩
  | none => refuseOpen b

def itemOf : Atom → Parse ClassTree
  | .literal w => return .literal w
  | .letter s kind negated => return .letter s kind negated
  | .property s property => return .property s property
  | .anchor s _ | .dot s => refuse .classEscape s

def boundOf : Atom → Parse Written
  | .literal w => return w
  | a => refuse .classRangeBound a.stretch

/-- The first character that counts in a text, where a comment counts for nothing but its end is
not seen. -/
def firstCounting? (inComment : Bool) : List Char → Option Char
  | [] => none
  | c :: cs =>
    if isBlank c then firstCounting? inComment cs
    else if c = '#' && !inComment then firstCounting? true cs
    else some c

/-- The character behind the next one that counts; when none does, the one right behind it. -/
def peekSecond : Parse (Option Char) := do
  let s ← get
  let more := s.rest.drop 1
  return if s.spaced then (firstCounting? false more).or more.head? else more.head?

/-- Reads an item of a class: a character, an escape or a range. -/
def readClassItem (b : OpenClass) : Parse ClassTree := do
  let first ← readClassAtom b
  skipFiller
  if (← peek).isNone then refuseOpen b
  let second ← peekSecond
  if (← peek) ≠ some '-' || second = some ']' || second = some '-' then itemOf first
  else
    advance
    if (← peek).isNone then refuseOpen b
    let last ← readClassAtom b
    let stretch : Stretch := ⟨first.stretch.start, last.stretch.stop⟩
    let low ← boundOf first
    let high ← boundOf last
    if high.char < low.char then refuse .classRangeOrder stretch
    return .range stretch low high

/-! ## Classes -/

/-- Reads a class to its closing bracket. -/
def readClassBody : Nat → OpenClass → Parse ClassTree
  | 0, b => refuseOpen b
  | fuel + 1, b => do
    skipFiller
    match ← rest with
    | [] => refuseOpen b
    | ']' :: _ =>
      skip 1
      return .bracketed (b.stretch (← place)) b.negated b.tree
    | '[' :: _ =>
      match ← readNamed with
      | some named => readClassBody fuel (b.push named)
      | none =>
        let inner ← readClassBody fuel (← readClassOpening)
        readClassBody fuel (b.push inner)
    | '&' :: '&' :: _ => readJoining fuel b .inter
    | '-' :: '-' :: _ => readJoining fuel b .diff
    | '~' :: '~' :: _ => readJoining fuel b .symmDiff
    | _ => readClassBody fuel (b.push (← readClassItem b))
where
  /-- Passes a joining of two characters and reads on. -/
  readJoining (fuel : Nat) (b : OpenClass) (joining : Joining) : Parse ClassTree := do
    skip 2
    readClassBody fuel (b.join joining (← place))

/-- Reads a class; the reader stands at its opening bracket. -/
def readClass : Parse ClassTree := do
  let fuel := (← rest).length
  readClassBody fuel (← readClassOpening)

end Parse

end BlockGraph.Text
