import BlockGraph.Text.Pattern.Meaning
import BlockGraph.Text.Pattern.Size
import BlockGraph.Text.Pattern.Syntax

/-!
# Patterns from text

The pattern of a text: its syntax first, then what it means, then whether it can be searched for. A
search needs an automaton of bounded size in each direction and cannot tell where words of any
script begin or end.
-/

namespace BlockGraph.Text.Pattern

/-- Refuses a pattern that takes too much memory in a direction. -/
def checkSize (backwards : Bool) (p : Pattern) : Except PatternError Unit :=
  if maxPatternSize < p.searchSize backwards then .error .tooLarge else .ok ()

def ofText (text : String) : Except PatternError Pattern := do
  let tree ← Tree.ofText text
  let (p, _) ← tree.meaning .start
  p.checkSize false
  if p.asks .foreignWord then throw .foreignWords
  p.checkSize true
  return p

end BlockGraph.Text.Pattern
