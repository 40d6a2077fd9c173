import BlockGraph.Text.Pattern.Tree

/-!
# The sets of classes

Which characters a class in brackets stands for under the flags that hold. Of letters outside ASCII
neither the other case nor the properties are known, so that a class which asks for them is refused;
a class that goes by bytes keeps to ASCII.

- `close_empty`: the empty class can always be closed under case.
-/

namespace BlockGraph.Text

/-- The flags that decide what a part means. -/
structure Flags where
  anyCase : Bool
  manyLines : Bool
  dotAll : Bool
  unicode : Bool
  returns : Bool
  deriving DecidableEq, Repr

namespace Flags

/-- The flags that hold at the beginning. -/
def start : Flags := ⟨false, false, false, true, false⟩

def after (f : Flags) (change : FlagChange) : Flags where
  anyCase := (change.to? .anyCase).getD f.anyCase
  manyLines := (change.to? .manyLines).getD f.manyLines
  dotAll := (change.to? .dotAll).getD f.dotAll
  unicode := (change.to? .unicode).getD f.unicode
  returns := (change.to? .returns).getD f.returns

end Flags

def reject {α : Type} (fault : PatternFault) (s : Stretch) : Except PatternError α :=
  .error (.malformed fault [s])

/-- A set of characters, and whether it is known to hold with each letter the other case too. -/
structure ClassSet where
  set : CharSet
  closed : Bool
  deriving DecidableEq, Repr

namespace ClassSet

def empty : ClassSet := ⟨.empty, true⟩

/-- The set with the characters of a range. -/
def insert (s : ClassSet) (low high : Char) : ClassSet := ⟨s.set.insert low high, false⟩

def union (a b : ClassSet) : ClassSet :=
  if b.set.isEmpty || a.set = b.set then a else ⟨a.set.union b.set, a.closed && b.closed⟩

def inter (a b : ClassSet) : ClassSet :=
  if a.set.isEmpty then a
  else if b.set.isEmpty then empty
  else ⟨a.set.inter b.set, a.closed && b.closed⟩

/-- What is in the first set and not in the second. -/
def diff (a b : ClassSet) : ClassSet :=
  if a.set.isEmpty || b.set.isEmpty then a else ⟨a.set.diff b.set, a.closed && b.closed⟩

def join : Joining → ClassSet → ClassSet → ClassSet
  | .inter, a, b => a.inter b
  | .diff, a, b => a.diff b
  | .symmDiff, a, b => (a.union b).diff (a.inter b)

def compl (s : ClassSet) : ClassSet := if s.set.isEmpty then ⟨.all, true⟩ else ⟨s.set.compl, s.closed⟩

/-- With each letter also the other case, if the flags ask for it. -/
def close (f : Flags) (s : Stretch) (c : ClassSet) : Except PatternError ClassSet :=
  if !f.anyCase then .ok c
  else if !f.unicode then .ok ⟨c.set.anyCase, true⟩
  else if c.closed || c.set.isEmpty then .ok ⟨c.set, true⟩
  else reject .unknownCase s

def finish (f : Flags) (s : Stretch) (negated : Bool) (c : ClassSet) :
    Except PatternError ClassSet := do
  let c ← c.close f s
  if !negated then return c
  else if f.unicode then return c.compl
  else reject .noUtf8 s

theorem close_empty (f : Flags) (s : Stretch) : empty.close f s = .ok empty := by
  unfold close
  split
  · rfl
  · split <;> rfl

end ClassSet

/-- A character where the flags may ask for bytes: one that is written as a byte has to be of
ASCII. -/
def Written.check (f : Flags) (w : Written) : Except PatternError Unit :=
  if !f.unicode && w.isByte && 0x7F < w.char.toNat then reject .noUtf8 w.stretch else .ok ()

/-- A character of a class, where the flags may ask for bytes. -/
def Written.checkInClass (f : Flags) (w : Written) : Except PatternError Unit := do
  w.check f
  if !f.unicode && 0x7F < w.char.toNat then reject .wantsUnicode w.stretch

def LetterClass.set (f : Flags) (s : Stretch) (negated : Bool) (kind : LetterClass) :
    Except PatternError CharSet :=
  if f.unicode then reject .unknownClass s
  else if negated then reject .noUtf8 s
  else .ok kind.ascii

namespace Property

/-- A name without its mark `is`, and without case, blanks, dashes and what is not of ASCII. -/
def normal (name : List Char) : String :=
  let name := match name with
    | i :: s :: rest => if i.toLower = 'i' && s.toLower = 's' then rest else name
    | name => name
  let kept := name.filter fun c => c.toNat < 0x80 && c ≠ ' ' && c ≠ '_' && c ≠ '-'
  String.ofList (kept.map Char.toLower)

/-- Refuses the property: none is known. The names of some categories are known as such. -/
def set (f : Flags) (s : Stretch) (p : Property) : Except PatternError CharSet :=
  if !f.unicode then reject .wantsUnicode s
  else match p with
    | .named name =>
      reject (if ["cf", "sc", "lc"].contains (normal name) then .unknownPropertyValue
        else .unknownProperty) s
    | .valued _ _ => reject .unknownProperty s

end Property

namespace ClassTree

mutual
def addTo (f : Flags) (c : ClassSet) : ClassTree → Except PatternError ClassSet
  | .empty _ => .ok c
  | .literal w => do
    w.checkInClass f
    return c.insert w.char w.char
  | .range _ low high => do
    low.checkInClass f
    high.checkInClass f
    return c.insert low.char high.char
  | .named s set negated => do
    let named ← (ClassSet.mk set set.isEmpty).finish f s negated
    return c.union named
  | .letter s kind negated => do
    let set ← kind.set f s negated
    return c.union ⟨set, false⟩
  | .property s p => do
    let set ← p.set f s
    return c.union ⟨set, false⟩
  | .bracketed s negated body => do
    let inner ← body.addTo f .empty
    return c.union (← inner.finish f s negated)
  | .several _ items => addAllTo f c items
  | .joined _ joining left right => do
    let a ← left.addTo f .empty
    let b ← right.addTo f .empty
    let b ← b.close f right.stretch
    let a ← a.close f left.stretch
    return c.union (.join joining a b)

/-- The set with the characters of all items. -/
def addAllTo (f : Flags) (c : ClassSet) : List ClassTree → Except PatternError ClassSet
  | [] => .ok c
  | item :: items => do addAllTo f (← item.addTo f c) items
end

def set (f : Flags) (c : ClassTree) : Except PatternError CharSet :=
  ClassSet.set <$> c.addTo f .empty

end ClassTree

end BlockGraph.Text
