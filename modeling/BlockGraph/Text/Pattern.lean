import BlockGraph.Text.CharSet

/-!
# Patterns

Regular expressions, and whether one occurs in a text. A text is taken one character at a time
together with the list of all that may still follow: `rests` gives what is left of a pattern after a
character, `holds` tells whether a pattern is met by nothing at all in a place.

- `occursIn_of_holds`: a pattern that nothing meets occurs in front of every text.
- `holds_repeated_zero`: what may be left out is met by nothing.
-/

namespace BlockGraph.Text

/-- A condition on the place between two characters. -/
inductive Place where
  | textStart
  | textEnd
  | lineStart
  | lineEnd
  /-- The start of a line, where `\r`, `\n` and the two together end one. -/
  | anyLineStart
  /-- The end of a line, where `\r`, `\n` and the two together end one. -/
  | anyLineEnd
  | wordBoundary
  | noWordBoundary
  | wordStart
  | wordEnd
  /-- No character of a word in front. -/
  | afterNoWord
  /-- No character of a word behind. -/
  | beforeNoWord
  /-- Some condition on words in any script, which no place is known to meet. -/
  | foreignWord
  deriving DecidableEq, Repr

/-- Whether a place, given by its two neighbours, meets the condition. -/
def Place.holds (before after : Option Char) : Place → Bool
  | .textStart => before.isNone
  | .textEnd => after.isNone
  | .lineStart => before.all (· = '\n')
  | .lineEnd => after.all (· = '\n')
  | .anyLineStart => before.all (· = '\n') || before = some '\r' && after ≠ some '\n'
  | .anyLineEnd => after.all (· = '\r') || after = some '\n' && before ≠ some '\r'
  | .wordBoundary => before.any CharSet.word.contains != after.any CharSet.word.contains
  | .noWordBoundary => before.any CharSet.word.contains == after.any CharSet.word.contains
  | .wordStart => !before.any CharSet.word.contains && after.any CharSet.word.contains
  | .wordEnd => before.any CharSet.word.contains && !after.any CharSet.word.contains
  | .afterNoWord => !before.any CharSet.word.contains
  | .beforeNoWord => !after.any CharSet.word.contains
  | .foreignWord => false

/-- A regular expression. -/
inductive Pattern where
  /-- Nothing, in any place. -/
  | empty
  /-- Nothing, in some places. -/
  | look (place : Place)
  | char (set : CharSet)
  | seq (p q : Pattern)
  | alt (p q : Pattern)
  /-- At least and at most so many times. -/
  | repeated (p : Pattern) (least : Nat) (most : Option Nat)
  /-- A group whose match can be told apart. -/
  | group (p : Pattern)
  deriving DecidableEq, Repr

namespace Pattern

/-- One pattern after the other. -/
def andThen : Pattern → Pattern → Pattern
  | .empty, q => q
  | p, .empty => p
  | p, q => .seq p q

/-- Whether nothing at all, in the place between two characters, meets the pattern. -/
def holds (before after : Option Char) : Pattern → Bool
  | .empty => true
  | .look place => place.holds before after
  | .char _ => false
  | .seq p q => p.holds before after && q.holds before after
  | .alt p q => p.holds before after || q.holds before after
  | .repeated p least _ => least = 0 || p.holds before after
  | .group p => p.holds before after

/-- What may be left of a pattern after a character. A repetition whose part is met by nothing here
has as many of its times behind it as it likes. -/
def rests (before : Option Char) (c : Char) : Pattern → List Pattern
  | .empty | .look _ => []
  | .char set => if set.contains c then [.empty] else []
  | .seq p q =>
    (p.rests before c).map (·.andThen q) ++
      if p.holds before (some c) then q.rests before c else []
  | .alt p q => p.rests before c ++ q.rests before c
  | .repeated p least most =>
    if most = some 0 then []
    else
      let owed := if p.holds before (some c) then 0 else least - 1
      (p.rests before c).map (·.andThen (.repeated p owed (most.map (· - 1))))
  | .group p => p.rests before c

/-- Whether one of the patterns under way is met within the text, or the pattern `p` from some place
on. -/
def occursFrom (p : Pattern) : Option Char → List Pattern → List Char → Bool
  | before, live, [] => (p :: live).any (·.holds before none)
  | before, live, c :: cs =>
    (p :: live).any (·.holds before (some c)) ||
      occursFrom p (some c) ((p :: live).flatMap (·.rests before c)).eraseDups cs

def occursIn (p : Pattern) (s : String) : Bool := p.occursFrom none [] s.toList

/-- Whether the pattern asks for a condition on some place. -/
def asks (place : Place) : Pattern → Bool
  | .empty | .char _ => false
  | .look other => other = place
  | .seq p q | .alt p q => p.asks place || q.asks place
  | .repeated p _ _ | .group p => p.asks place

theorem holds_repeated_zero (p : Pattern) (most : Option Nat) (before after : Option Char) :
    (repeated p 0 most).holds before after = true := rfl

theorem occursIn_of_holds (p : Pattern) (s : String)
    (h : ∀ after, p.holds none after = true) : p.occursIn s = true := by
  cases hs : s.toList <;> simp [occursIn, hs, occursFrom, h]

end Pattern

end BlockGraph.Text
