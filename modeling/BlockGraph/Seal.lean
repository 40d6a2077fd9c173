import BlockGraph.Header
import BlockGraph.Map

/-!
# Seals

Which proof-of-work algorithm produced a block. The first byte of the seal's payload names it; a
table gives each such byte a group.
-/

namespace BlockGraph

/-- The group of a block. -/
inductive Group where
  | genesis
  | algorithm (name : String)
  | unknown
  deriving DecidableEq, Repr

namespace Group

/-- The name of the group of height zero. -/
def genesisName : String := "genesis"

/-- The name of the group of blocks without a known seal. -/
def unknownName : String := "unknown"

def name : Group → String
  | .genesis => genesisName
  | .algorithm name => name
  | .unknown => unknownName

def ofName (name : String) : Group :=
  if name = genesisName then .genesis
  else if name = unknownName then .unknown
  else .algorithm name

@[simp] theorem name_ofName (name : String) : (ofName name).name = name := by
  unfold ofName
  split
  · next h => simp [Group.name, h]
  · split
    · next h => simp [Group.name, h]
    · rfl

/-- The JSON form of a group: its name. -/
def codec : Codec Group := Codec.string.map name (.ok ∘ ofName)

end Group

/-- Why a list of entries is no seal table. -/
inductive SealTableError where
  | notOneByte (key : String)
  | reservedGroup (group : String) (byte : UInt8)
  deriving DecidableEq, Repr

def SealTableError.message : SealTableError → String
  | .notOneByte key => s!"Invalid seal table entry: '{key}' is not a single hex byte"
  | .reservedGroup group byte =>
    s!"Invalid seal table entry: group name '{group}' for prefix {Text.byteText byte} " ++
      "is reserved or empty"

/-- The groups of the known leading bytes. -/
structure SealTable where
  groups : SortedMap UInt8 String
  deriving DecidableEq, Repr

namespace SealTable

/-- The byte that a key of a table denotes: two hexadecimal digits, with or without a marker. -/
def keyByte? (key : String) : Option UInt8 :=
  match Text.dropMarker (Text.trimChars key.toList) with
  | [high, low] => Text.byteOfDigits? high low
  | _ => none

def leadingByte? (payload : String) : Option UInt8 :=
  match Text.dropMarker (Text.trimChars payload.toList) with
  | high :: low :: _ => Text.byteOfDigits? high low
  | _ => none

/-- The table without entries. -/
def empty : SealTable := ⟨.empty⟩

/-- Adds an entry over an earlier one of the same byte. The names of the two groups that no table
assigns are reserved. -/
def addEntry (table : SealTable) (entry : String × String) : Except SealTableError SealTable :=
  let (key, group) := entry
  match keyByte? key with
  | none => .error (.notOneByte key)
  | some byte =>
    if group = "" || group = Group.genesisName || group = Group.unknownName then
      .error (.reservedGroup group byte)
    else .ok ⟨table.groups.insert byte group⟩

def ofEntries (entries : List (String × String)) : Except SealTableError SealTable :=
  entries.foldlM addEntry empty

/-- The table of the chain that mixes three algorithms. -/
def standard : SealTable := ⟨.ofList [(0, "md5"), (1, "sha3"), (2, "keccak")]⟩

/-- The entries in the order of their bytes, each byte in its normal form. -/
def entries (table : SealTable) : List (String × String) :=
  table.groups.toList.map fun (byte, group) => (Text.byteText byte, group)

/-- The group of a byte in any spelling. -/
def groupOf? (table : SealTable) (key : String) : Option String :=
  keyByte? key >>= table.groups.get?

/-- The group of a block at a height with a seal payload, if it has one. -/
def classifySeal (table : SealTable) (height : UInt64) (payload : Option String) : Group :=
  if height = 0 then .genesis
  else match payload >>= leadingByte? >>= table.groups.get? with
    | some name => .algorithm name
    | none => .unknown

def classifyPayload (table : SealTable) (height : UInt64) (payload : String) : Group :=
  table.classifySeal height (some payload)

/-- The group of a header, whose seal is its first digest entry. -/
def classify (table : SealTable) (header : Header) : Group :=
  table.classifySeal header.number (header.digest.logs.head? >>= Digest.sealPayload?)

end SealTable

end BlockGraph
