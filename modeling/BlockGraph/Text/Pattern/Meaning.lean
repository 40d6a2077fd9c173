import BlockGraph.Text.Pattern
import BlockGraph.Text.Pattern.ClassSet

/-!
# The meaning of pattern trees

What a tree stands for under the flags that hold. Flags in a group hold to its end, so that each
part also gives the flags for what follows it.
-/

namespace BlockGraph.Text

namespace Pattern

/-- Whether the pattern is met by nothing only. -/
def isBare : Pattern → Bool
  | .empty | .look _ => true
  | .char _ => false
  | .seq p q | .alt p q => p.isBare && q.isBare
  | .repeated p _ _ | .group p => p.isBare

def anyOf : List Pattern → Pattern
  | [] => .char .empty
  | [p] => p
  | p :: ps => .alt p (anyOf ps)

/-- The pattern at least and at most so many times; nothing is repeated more than once. -/
def times (p : Pattern) (least : Nat) (most : Option Nat) : Pattern :=
  let (least, most) := if p.isBare then (min 1 least, some (min 1 (most.getD 1))) else (least, most)
  if most = some 0 then .empty
  else if least = 1 && most = some 1 then p
  else .repeated p least most

end Pattern

/-- The condition of an anchor under the flags that hold. -/
def Anchor.placeUnder (f : Flags) : Anchor → Place
  | .lineStart =>
    if !f.manyLines then .textStart else if f.returns then .anyLineStart else .lineStart
  | .lineEnd => if !f.manyLines then .textEnd else if f.returns then .anyLineEnd else .lineEnd
  | .textStart => .textStart
  | .textEnd => .textEnd
  | .wordBoundary => if f.unicode then .foreignWord else .wordBoundary
  | .noWordBoundary => if f.unicode then .foreignWord else .noWordBoundary
  | .wordStart => if f.unicode then .foreignWord else .wordStart
  | .wordEnd => if f.unicode then .foreignWord else .wordEnd
  | .wordStartHalf => if f.unicode then .foreignWord else .afterNoWord
  | .wordEndHalf => if f.unicode then .foreignWord else .beforeNoWord

/-- What a character stands for outside brackets. -/
def Written.set (f : Flags) (w : Written) : Except PatternError CharSet := do
  w.check f
  if !f.anyCase then return .single w.char
  else if f.unicode then reject .unknownCase w.stretch
  else return (CharSet.single w.char).anyCase

def dotSet (f : Flags) (s : Stretch) : Except PatternError CharSet :=
  if !f.unicode then reject .noUtf8 s
  else if f.dotAll then .ok .all
  else if f.returns then .ok (CharSet.ofList ['\n', '\r']).compl
  else .ok (CharSet.single '\n').compl

namespace Atom

def meaning (f : Flags) : Atom → Except PatternError Pattern
  | .literal w => .char <$> w.set f
  | .dot s => .char <$> dotSet f s
  | .anchor _ a => .ok (.look (a.placeUnder f))
  | .letter s kind negated => .char <$> kind.set f s negated
  | .property s p => .char <$> p.set f s

end Atom

namespace Tree

mutual
/-- What a tree stands for, and the flags behind it. -/
def meaning (f : Flags) : Tree → Except PatternError (Pattern × Flags)
  | .empty _ => .ok (.empty, f)
  | .flags _ change => .ok (.empty, f.after change)
  | .atom a => do return (← a.meaning f, f)
  | .bracketed c => do return (.char (← c.set f), f)
  | .repeated _ part least most => do
    let (p, f) ← part.meaning f
    return (p.times least most, f)
  | .group _ captures change body => do
    let (p, _) ← body.meaning (f.after change)
    return (if captures then .group p else p, f)
  | .sequence _ parts => do
    let (ps, f) ← meanings f parts
    return (ps.foldr Pattern.andThen .empty, f)
  | .choice _ branches => do
    let (ps, f) ← meanings f branches
    return (Pattern.anyOf ps, f)

/-- What some trees stand for one after the other, and the flags behind them. -/
def meanings (f : Flags) : List Tree → Except PatternError (List Pattern × Flags)
  | [] => .ok ([], f)
  | t :: ts => do
    let (p, f) ← t.meaning f
    let (ps, f) ← meanings f ts
    return (p :: ps, f)
end

end Tree

end BlockGraph.Text
