import BlockGraph.Seal
import BlockGraph.Text.Utf8

/-!
# Seal tables by prefix

A seal table as a table of texts: every key is brought into the normal form of a prefix, a marker with two
lower-case digits, before it is put in or looked up. `Proofs.Seal.Prefix` shows that this is the table of
bytes with each byte in its normal form.
-/

namespace BlockGraph

/-- The normal form of a prefix of one byte: two hexadecimal digits, with or without a marker. -/
def normalPrefix? (key : String) : Option String :=
  let body := Text.dropMarker (Text.trimChars key.toList)
  if Text.byteLength body ≠ 2 then none
  else (Text.bytesOfDigits? body).map fun bytes => String.ofList ('0' :: 'x' :: Text.digitsOfBytes bytes)

/-- The normal form of the prefix that a payload opens with, the two bytes of text behind its marker. -/
def sealPrefix? (payload : String) : Option String := do
  let front ← Text.cut? 2 (Text.dropMarker (Text.trimChars payload.toList))
  normalPrefix? (String.ofList front)

/-- The groups of the known prefixes. -/
structure PrefixTable where
  groups : SortedMap String String
  deriving DecidableEq, Repr

namespace PrefixTable

/-- The table without entries. -/
def empty : PrefixTable := ⟨.empty⟩

/-- Adds an entry over an earlier one of the same prefix, or says what is wrong with it. -/
def addEntry (table : PrefixTable) (entry : String × String) : Except String PrefixTable :=
  let (key, group) := entry
  match normalPrefix? key with
  | none => .error s!"Invalid seal table entry: '{key}' is not a single hex byte"
  | some normal =>
    if group = "" || group = Group.genesisName || group = Group.unknownName then
      .error (s!"Invalid seal table entry: group name '{group}' for prefix {normal} " ++
        "is reserved or empty")
    else .ok ⟨table.groups.insert normal group⟩

def ofEntries (entries : List (String × String)) : Except String PrefixTable :=
  entries.foldlM addEntry empty

/-- The table of the chain that mixes three algorithms. -/
def standard : PrefixTable := ⟨.ofList [("0x00", "md5"), ("0x01", "sha3"), ("0x02", "keccak")]⟩

/-- The group of a prefix in any spelling. -/
def groupOf? (table : PrefixTable) (key : String) : Option String := do
  table.groups.get? (← normalPrefix? key)

/-- The group of a block above height zero. -/
def sealGroup (table : PrefixTable) (payload : Option String) : Group :=
  ((payload >>= sealPrefix? >>= table.groups.get?).map .algorithm).getD .unknown

def classifyPayload (table : PrefixTable) (height : UInt64) (payload : String) : Group :=
  if height = 0 then .genesis else table.sealGroup (some payload)

/-- The group of a header, whose seal is its first digest entry. -/
def classify (table : PrefixTable) (header : Header) : Group :=
  if header.number = 0 then .genesis
  else table.sealGroup (header.digest.logs.head? >>= Digest.sealPayload?)

end PrefixTable

end BlockGraph
