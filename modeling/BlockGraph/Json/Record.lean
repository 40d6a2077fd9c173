import BlockGraph.Json.Codec

/-!
# Records

The JSON form of a structure: an object with a member for each field. The fields are listed once
(`Fields`) and the list both writes and reads.

Members are met from left to right. A repeated field is found at its key, an unknown member must be
grammatical and is left out, and fields that never came are found at the closing brace, in the order
of the list. A record may also stand as an array of its fields in that order.
-/

namespace BlockGraph

/-- One field of the record `ρ`. -/
structure Field (ρ α : Type) where
  name : String
  codec : Codec α
  get : ρ → α
  /-- The value when an object lacks the member. -/
  absent : Option α
  /-- The value when an array ends before it. -/
  short : Option α
  /-- Whether a value is left out of the object. -/
  hides : α → Bool

namespace Field

variable {ρ α : Type}

def required (name : String) (codec : Codec α) (get : ρ → α) : Field ρ α :=
  ⟨name, codec, get, none, none, fun _ => false⟩

/-- A field that may be missing anywhere and then has a value of its own. -/
def defaulted (name : String) (codec : Codec α) (get : ρ → α) (value : α) : Field ρ α :=
  ⟨name, codec, get, some value, some value, fun _ => false⟩

/-- A field that an object may lack; it is written as `null` when it has no value. -/
def nullable (name : String) (codec : Codec α) (get : ρ → Option α) : Field ρ (Option α) :=
  ⟨name, codec.option, get, some none, none, fun _ => false⟩

/-- A field that may be missing anywhere and is not written when it has no value. -/
def hidden (name : String) (codec : Codec α) (get : ρ → Option α) : Field ρ (Option α) :=
  ⟨name, codec.option, get, some none, some none, Option.isNone⟩

end Field

/-- The fields of the record `ρ` that are still to be given to a function of type `γ`, which then
yields the record. -/
inductive Fields (ρ : Type) : Type → Type 1 where
  | done : Fields ρ ρ
  | cons {α β : Type} (field : Field ρ α) (rest : Fields ρ β) : Fields ρ (α → β)

namespace Fields

variable {ρ : Type}

def Slots : {γ : Type} → Fields ρ γ → Type
  | _, .done => Unit
  | _, @Fields.cons _ α _ _ rest => Option α × Slots rest

/-- Nothing read. -/
def noSlots : {γ : Type} → (fs : Fields ρ γ) → Slots fs
  | _, .done => ()
  | _, .cons _ rest => (none, noSlots rest)

/-- Takes a member, if a field has its key. -/
def accept : {γ : Type} → (fs : Fields ρ γ) → Reading → String → Doc → Slots fs →
    Option (Except Fault (Slots fs))
  | _, .done, _, _, _, _ => none
  | _, @Fields.cons _ α _ field rest, r, key, doc, taken =>
    let (slot, slots) : Option α × Slots rest := taken
    if key = field.name then
      some <| if slot.isSome then .error (.duplicateField key)
        else (field.codec.read r doc).map fun a => (some a, slots)
    else (rest.accept r key doc slots).map (Except.map fun slots => (slot, slots))

/-- Takes the members of an object from left to right. -/
def acceptAll {γ : Type} (fs : Fields ρ γ) (r : Reading) :
    List (Option String × Doc) → Slots fs → Except Fault (Slots fs)
  | [], slots => .ok slots
  | (key, doc) :: members, slots => do
    let key ← Doc.key key
    match fs.accept r key doc slots with
    | some taken => fs.acceptAll r members (← taken)
    | none => if doc.isWhole then fs.acceptAll r members slots else throw .malformed

/-- The record, when all members have been taken. -/
def finish : {γ : Type} → (fs : Fields ρ γ) → Slots fs → γ → Except Fault ρ
  | _, .done, _, record => .ok record
  | _, @Fields.cons _ α _ field rest, taken, make =>
    let (slot, slots) : Option α × Slots rest := taken
    match slot.or field.absent with
    | some a => rest.finish slots (make a)
    | none => .error (.missingField field.name)

/-- The record from the items of an array in the order of the fields. -/
def positional : {γ : Type} → (fs : Fields ρ γ) → Reading → List Doc → (closed : Bool) → γ →
    Except Fault ρ
  | _, .done, r, items, closed, record =>
    if !items.isEmpty then .error r.surplus
    else if closed then .ok record
    else .error .malformed
  | _, .cons field rest, r, [], closed, make =>
    if !closed then .error .malformed
    else match field.short with
      | some a => rest.positional r [] closed (make a)
      | none => .error .invalidLength
  | _, .cons field rest, r, item :: items, closed, make => do
    let a ← field.codec.read r item
    rest.positional r items closed (make a)

def members : {γ : Type} → Fields ρ γ → ρ → List (String × Json)
  | _, .done, _ => []
  | _, .cons field rest, record =>
    let a := field.get record
    if field.hides a then rest.members record
    else (field.name, field.codec.write a) :: rest.members record

/-- Reads a record from an object or an array. -/
def read {γ : Type} (fs : Fields ρ γ) (make : γ) (r : Reading) : Doc → Except Fault ρ
  | .obj members closed => do
    let r ← r.enter
    let slots ← fs.acceptAll r members fs.noSlots
    if closed then fs.finish slots make else throw .malformed
  | .arr items closed => do
    let r ← r.enter
    fs.positional r items closed make
  | d => .error d.wrongType

/-- The JSON form of the record that the function makes of its fields. -/
def codec {γ : Type} (fs : Fields ρ γ) (make : γ) : Codec ρ where
  write record := .obj (fs.members record)
  read := fs.read make

end Fields

end BlockGraph
