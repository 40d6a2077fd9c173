import BlockGraph.Json.Codec

/-!
# Variants

The JSON form of a choice between named variants. A variant without content is its name, one with a
text is an object whose single member has the name as its key. A name alone may also be written as
such an object, with `null`.
-/

namespace BlockGraph

/-- One variant of a type. -/
inductive Variant (α : Type) where
  | bare (name : String) (value : α)
  | text (name : String) (wrap : String → α)

namespace Variant

variable {α : Type}

def name : Variant α → String
  | .bare name _ => name
  | .text name _ => name

def named (vs : List (Variant α)) (name : String) : Except Fault (Variant α) :=
  (vs.find? fun v => v.name = name).elim (.error (.unknownVariant name)) .ok

/-- The value of a variant from its name alone. -/
def alone : Variant α → Except Fault α
  | .bare _ value => .ok value
  | .text _ _ => .error .invalidType

def content (r : Reading) (doc : Doc) : Variant α → Except Fault α
  | .bare _ value => match doc with
    | .null => .ok value
    | d => .error d.wrongType
  | .text _ wrap => wrap <$> Codec.string.read r doc

def read (vs : List (Variant α)) (r : Reading) : Doc → Except Fault α
  | .str (some name) => named vs name >>= alone
  | .obj members closed => do
    let inner ← r.enter
    match r, members with
    | .held, [(key, doc)] => (← named vs (← Doc.key key)).content inner doc
    | .held, _ => throw .invalidValue
    | .stream _, [] => throw .malformed
    | .stream _, (key, doc) :: more => do
      let a ← (← named vs (← Doc.key key)).content inner doc
      if more.isEmpty && closed then return a else throw .malformed
  | .str none | .broken => .error .malformed
  | _ => .error (match r with | .stream _ => .malformed | .held => .invalidType)

/-- The JSON form of a choice, given how a value is written. -/
def codec (vs : List (Variant α)) (write : α → Json) : Codec α := ⟨write, read vs⟩

end Variant

end BlockGraph
