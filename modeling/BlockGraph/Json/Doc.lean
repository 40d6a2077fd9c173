import BlockGraph.Json.Value

/-!
# Documents

A text as far as it can be read as JSON. The first character that breaks the grammar cuts the text
off there, and what stands before the cut is kept, so that a typed reading meets the faults of a
document from left to right: a wrong type before the cut is found before the cut is.

Two things are grammatical and yet stand for no value: a number beyond every floating-point number,
and a string that holds half of a surrogate pair. They are `none` here; a part of a document that
nobody asks for may hold them.
-/

namespace BlockGraph

/-- A JSON text up to its first error of grammar. -/
inductive Doc where
  | null
  | bool (value : Bool)
  | num (value : Option Number)
  | str (value : Option String)
  | arr (items : List Doc) (closed : Bool)
  | obj (members : List (Option String × Doc)) (closed : Bool)
  /-- The place of the cut, where a value had to come. -/
  | broken
  deriving Repr, Inhabited

namespace Doc

mutual
/-- Whether the document is grammatical to its end. -/
def isWhole : Doc → Bool
  | .null | .bool _ | .num _ | .str _ => true
  | .arr items closed => closed && areWhole items
  | .obj members closed => closed && membersAreWhole members
  | .broken => false

/-- Whether all items are grammatical to their ends. -/
def areWhole : List Doc → Bool
  | [] => true
  | d :: ds => d.isWhole && areWhole ds

/-- Whether all members are grammatical to their ends. -/
def membersAreWhole : List (Option String × Doc) → Bool
  | [] => true
  | (_, d) :: ds => d.isWhole && membersAreWhole ds
end

end Doc

namespace Json

mutual
/-- A value as a document. -/
def toDoc : Json → Doc
  | .null => .null
  | .bool b => .bool b
  | .num n => .num (some n)
  | .str s => .str (some s)
  | .arr items => .arr (toDocs items) true
  | .obj members => .obj (toDocMembers members) true

/-- Items as documents. -/
def toDocs : List Json → List Doc
  | [] => []
  | v :: vs => v.toDoc :: toDocs vs

def toDocMembers : List (String × Json) → List (Option String × Doc)
  | [] => []
  | (k, v) :: ms => (some k, v.toDoc) :: toDocMembers ms
end

mutual
theorem isWhole_toDoc : (v : Json) → v.toDoc.isWhole = true
  | .null | .bool _ | .num _ | .str _ => rfl
  | .arr items => by simp [toDoc, Doc.isWhole, areWhole_toDocs items]
  | .obj members => by simp [toDoc, Doc.isWhole, membersAreWhole_toDocMembers members]

theorem areWhole_toDocs : (vs : List Json) → Doc.areWhole (toDocs vs) = true
  | [] => rfl
  | v :: vs => by simp [toDocs, Doc.areWhole, isWhole_toDoc v, areWhole_toDocs vs]

theorem membersAreWhole_toDocMembers :
    (ms : List (String × Json)) → Doc.membersAreWhole (toDocMembers ms) = true
  | [] => rfl
  | (_, v) :: ms => by
    simp [toDocMembers, Doc.membersAreWhole, isWhole_toDoc v, membersAreWhole_toDocMembers ms]
end

end Json

end BlockGraph
