import BlockGraph.Text.CharSet
import BlockGraph.Text.Pattern.Error

/-!
# Pattern trees

A pattern as it is written: each part with the stretch of the text that it comes from. What a part
means also hangs on the flags that hold where it stands.
-/

namespace BlockGraph.Text

/-! ## Leaves -/

/-- A letter between `(?` and `)` that changes how the pattern behind it is read. -/
inductive Flag where
  /-- Letters also stand for themselves in the other case. -/
  | anyCase
  /-- `^` and `$` also mean the ends of lines. -/
  | manyLines
  /-- The dot also means a line break. -/
  | dotAll
  /-- Repetitions are short unless they are marked. -/
  | short
  /-- Classes and case go by all characters and not by the bytes of ASCII. -/
  | unicode
  /-- A carriage return breaks lines too. -/
  | returns
  /-- White space and comments are left out. -/
  | spaced
  deriving DecidableEq, Repr

def Flag.ofLetter? : Char → Option Flag
  | 'i' => some .anyCase
  | 'm' => some .manyLines
  | 's' => some .dotAll
  | 'U' => some .short
  | 'u' => some .unicode
  | 'R' => some .returns
  | 'x' => some .spaced
  | _ => none

/-- Flags that are set or cleared together. -/
abbrev FlagChange := List (Flag × Bool)

/-- What becomes of a flag, if it is changed. -/
def FlagChange.to? (change : FlagChange) (flag : Flag) : Option Bool := change.lookup flag

/-- A character as it is written. -/
structure Written where
  stretch : Stretch
  char : Char
  /-- Whether it is written as the two hexadecimal digits of a byte. -/
  isByte : Bool

/-- The classes that have a letter. -/
inductive LetterClass where
  | digit
  | space
  | word
  deriving DecidableEq, Repr

/-- The characters of a class among those of ASCII. -/
def LetterClass.ascii : LetterClass → CharSet
  | .digit => .digit
  | .space => .space
  | .word => .word

/-- What is asked of the properties of a character. -/
inductive Property where
  | named (name : List Char)
  | valued (name value : List Char)

/-- A condition on a place as it is written. -/
inductive Anchor where
  | lineStart
  | lineEnd
  | textStart
  | textEnd
  | wordBoundary
  | noWordBoundary
  | wordStart
  | wordEnd
  | wordStartHalf
  | wordEndHalf
  deriving DecidableEq, Repr

/-- A part without parts. -/
inductive Atom where
  | literal (w : Written)
  | dot (stretch : Stretch)
  | anchor (stretch : Stretch) (anchor : Anchor)
  | letter (stretch : Stretch) (kind : LetterClass) (negated : Bool)
  | property (stretch : Stretch) (property : Property)

/-- Where an atom stands. -/
def Atom.stretch : Atom → Stretch
  | .literal w => w.stretch
  | .dot s | .anchor s _ | .letter s _ _ | .property s _ => s

/-! ## Classes in brackets -/

/-- How two sets are joined inside brackets. -/
inductive Joining where
  | inter
  | diff
  | symmDiff
  deriving DecidableEq, Repr

/-- What stands between brackets. -/
inductive ClassTree where
  | empty (stretch : Stretch)
  | literal (w : Written)
  | range (stretch : Stretch) (low high : Written)
  /-- A class of ASCII by its name. -/
  | named (stretch : Stretch) (set : CharSet) (negated : Bool)
  | letter (stretch : Stretch) (kind : LetterClass) (negated : Bool)
  | property (stretch : Stretch) (property : Property)
  | bracketed (stretch : Stretch) (negated : Bool) (body : ClassTree)
  | several (stretch : Stretch) (items : List ClassTree)
  | joined (stretch : Stretch) (joining : Joining) (left right : ClassTree)

namespace ClassTree

/-- Where the class stands. -/
def stretch : ClassTree → Stretch
  | .literal w => w.stretch
  | .empty s | .range s _ _ | .named s _ _ | .letter s _ _ | .property s _ | .bracketed s _ _
  | .several s _ | .joined s _ _ _ => s

mutual
/-- The first part that lies deeper than there is room for. -/
def tooDeep? (room : Nat) : ClassTree → Option Stretch
  | .bracketed s _ body =>
    if room = 0 then some s else body.tooDeep? (room - 1)
  | .several s items =>
    if room = 0 then some s else anyTooDeep? (room - 1) items
  | .joined s _ left right =>
    if room = 0 then some s else (left.tooDeep? (room - 1)).or (right.tooDeep? (room - 1))
  | _ => none

/-- The first part of some items that lies deeper than there is room for. -/
def anyTooDeep? (room : Nat) : List ClassTree → Option Stretch
  | [] => none
  | item :: items => (item.tooDeep? room).or (anyTooDeep? room items)
end

end ClassTree

/-! ## Trees -/

/-- A pattern as it is written. -/
inductive Tree where
  | empty (stretch : Stretch)
  /-- Flags for the rest of the group around them. -/
  | flags (stretch : Stretch) (change : FlagChange)
  | atom (a : Atom)
  | bracketed (c : ClassTree)
  | repeated (stretch : Stretch) (part : Tree) (least : Nat) (most : Option Nat)
  | group (stretch : Stretch) (captures : Bool) (change : FlagChange) (body : Tree)
  | sequence (stretch : Stretch) (parts : List Tree)
  | choice (stretch : Stretch) (branches : List Tree)

namespace Tree

/-- Whether a repetition may follow. -/
def isRepeatable : Tree → Bool
  | .empty _ | .flags _ _ => false
  | _ => true

/-- Where the tree stands. -/
def stretch : Tree → Stretch
  | .atom a => a.stretch
  | .bracketed c => c.stretch
  | .empty s | .flags s _ | .repeated s _ _ _ | .group s _ _ _ | .sequence s _ | .choice s _ => s

mutual
/-- The first part that lies deeper than there is room for. -/
def tooDeep? (room : Nat) : Tree → Option Stretch
  | .empty _ | .flags _ _ | .atom _ => none
  | .bracketed c => c.tooDeep? room
  | .repeated s part _ _ =>
    if room = 0 then some s else part.tooDeep? (room - 1)
  | .group s _ _ body =>
    if room = 0 then some s else body.tooDeep? (room - 1)
  | .sequence s parts =>
    if room = 0 then some s else anyTooDeep? (room - 1) parts
  | .choice s branches =>
    if room = 0 then some s else anyTooDeep? (room - 1) branches

/-- The first part of some trees that lies deeper than there is room for. -/
def anyTooDeep? (room : Nat) : List Tree → Option Stretch
  | [] => none
  | t :: ts => (t.tooDeep? room).or (anyTooDeep? room ts)
end

end Tree

end BlockGraph.Text
