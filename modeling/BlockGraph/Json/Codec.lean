import BlockGraph.Json.Fault
import BlockGraph.Json.Printer
import BlockGraph.Json.Reader

/-!
# Codecs

How a type is written as JSON and read back. A document is read either from its text or from a value
that was kept before (`Reading`): from text the nesting is bounded and a container must be seen to
close, a kept value is complete.
-/

namespace BlockGraph

/-- Where a document is read from. -/
inductive Reading where
  /-- From its text, with room for so many further levels of nesting. -/
  | stream (room : Nat)
  /-- From a value that was kept. -/
  | held
  deriving DecidableEq, Repr

namespace Reading

/-- The greatest depth of nesting that a text may have where its values are kept. -/
def maxDepth : Nat := 127

/-- Goes one level down. -/
def enter : Reading → Except Fault Reading
  | .stream 0 => .error .malformed
  | .stream (room + 1) => .ok (.stream room)
  | .held => .ok .held

/-- What more items than a record has fields are. -/
def surplus : Reading → Fault
  | .stream _ => .malformed
  | .held => .invalidLength

end Reading

/-- A type's JSON form. -/
structure Codec (α : Type) where
  write : α → Json
  read : Reading → Doc → Except Fault α

namespace Doc

/-- What a document of another type than the one asked for is. -/
def wrongType : Doc → Fault
  | .num none | .str none | .broken => .malformed
  | _ => .invalidType

def key (k : Option String) : Except Fault String := k.elim (.error .malformed) .ok

mutual
/-- Keeps a document as a value. -/
def keep (r : Reading) : Doc → Except Fault Json
  | .null => .ok .null
  | .bool b => .ok (.bool b)
  | .num n => n.elim (.error .malformed) (.ok ∘ .num)
  | .str s => s.elim (.error .malformed) (.ok ∘ .str)
  | .arr items closed => do
    let kept ← keepItems (← r.enter) items
    if closed then return .arr kept else throw .malformed
  | .obj members closed => do
    let kept ← keepMembers (← r.enter) members
    if closed then return .object kept else throw .malformed
  | .broken => .error .malformed

def keepItems (r : Reading) : List Doc → Except Fault (List Json)
  | [] => .ok []
  | d :: ds => do
    let v ← keep r d
    return v :: (← keepItems r ds)

def keepMembers (r : Reading) : List (Option String × Doc) → Except Fault (List (String × Json))
  | [] => .ok []
  | (k, d) :: ds => do
    let k ← key k
    let v ← keep r d
    return (k, v) :: (← keepMembers r ds)
end

/-- The items of an array, each read; the array has to close. -/
def readItems {α : Type} (read : Doc → Except Fault α) (items : List Doc) (closed : Bool) :
    Except Fault (List α) := do
  let as ← items.mapM read
  if closed then return as else throw .malformed

end Doc

namespace Codec

variable {α β : Type}

/-- The text of a value on one line. -/
def encode (c : Codec α) (a : α) : String := (c.write a).compact

/-- Reads a document after which nothing may follow. -/
def decodeDoc (c : Codec α) (doc : Doc × Bool) : Except Fault α := do
  let a ← c.read (.stream Reading.maxDepth) doc.1
  if doc.2 then throw .malformed else return a

def decode (c : Codec α) (text : String) : Except Fault α := c.decodeDoc (Doc.ofText text)

/-- Reads a value that was kept. -/
def ofJson (c : Codec α) (v : Json) : Except Fault α := c.read .held v.toDoc

/-- A type in the form of another one. -/
def map (c : Codec α) (form : β → α) (ofForm : α → Except Fault β) : Codec β where
  write b := c.write (form b)
  read r d := c.read r d >>= ofForm

/-! ## Values as they come, and scalars -/

/-- Any value. -/
def json : Codec Json where
  write := id
  read r d := d.keep r

/-- A truth value. -/
def bool : Codec Bool where
  write := .bool
  read
    | _, .bool b => .ok b
    | _, d => .error d.wrongType

def string : Codec String where
  write := .str
  read
    | _, .str (some s) => .ok s
    | _, d => .error d.wrongType

/-- A whole number up to a limit. -/
def natUpTo (limit : Nat) : Codec Nat where
  write n := .nat n
  read
    | _, .num (some (.int n)) =>
      if 0 ≤ n && n ≤ limit then .ok n.toNat else .error .invalidValue
    | _, d => .error d.wrongType

/-- A whole number of 64 bits. -/
def nat : Codec Nat := natUpTo Text.maxWord

def word64 : Codec UInt64 := nat.map UInt64.toNat (.ok ∘ UInt64.ofNat)

def word32 : Codec UInt32 := (natUpTo 0xFFFFFFFF).map UInt32.toNat (.ok ∘ UInt32.ofNat)

/-- A floating-point number, which may be written as an integer. -/
def real : Codec Binary64 where
  write x := .num (.real x)
  read
    | _, .num (some (.int n)) => .ok (.ofInt n)
    | _, .num (some (.real x)) => .ok x
    | _, d => .error d.wrongType

/-! ## Containers -/

/-- A value that may be absent, written as `null`. -/
def option (c : Codec α) : Codec (Option α) where
  write a := (a.map c.write).getD .null
  read
    | _, .null => .ok none
    | r, d => some <$> c.read r d

def list (c : Codec α) : Codec (List α) where
  write as := .arr (as.map c.write)
  read
    | r, .arr items closed => do
      let r ← r.enter
      Doc.readItems (c.read r) items closed
    | _, d => .error d.wrongType

/-- A set of texts, written in ascending order. -/
def stringSet : Codec (SortedSet String) :=
  (list string).map SortedMap.keys (.ok ∘ SortedSet.ofList)

/-- A map from texts to texts, an object whose members are written in the order of their keys. -/
def stringMap : Codec (SortedMap String String) where
  write m := .obj (m.toList.map fun (k, v) => (k, .str v))
  read
    | r, .obj members closed => do
      let r ← r.enter
      let entries ← members.mapM fun (k, d) => do
        let k ← Doc.key k
        let v ← string.read r d
        return (k, v)
      if closed then return .ofList entries else throw .malformed
    | _, d => .error d.wrongType

end Codec

end BlockGraph
