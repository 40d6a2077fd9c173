import BlockGraph.Json.Record
import BlockGraph.Text.Numeral

/-!
# Block headers

A header as an endpoint announces it. Its height may be written as an integer or as a text in
decimal or hexadecimal digits. The digest is free-form: its entries are kept as they come, and the
seal of a block is read from an entry only when it is asked for.
-/

namespace BlockGraph

/-- The entries that an endpoint adds to a header. -/
structure Digest where
  logs : List Json
  deriving DecidableEq, Repr

/-- A block header. -/
structure Header where
  number : UInt64
  hash : String
  parentHash : String
  stateRoot : String
  extrinsicsRoot : String
  digest : Digest
  deriving DecidableEq, Repr

/-- Why a header is refused. -/
inductive HeaderError where
  | unreadable (fault : Fault)
  /-- The hash is blank; the source is known when the header was delivered. -/
  | blankHash (height : UInt64) (source : Option String)
  deriving DecidableEq, Repr

def HeaderError.message : HeaderError → String
  | .unreadable fault => fault.message
  | .blankHash height none =>
    s!"Invalid header: block at height {height.toNat} has an empty hash"
  | .blankHash height (some source) =>
    s!"Invalid header: block at height {height.toNat} from {source} has an empty hash"

/-! ## Seals in a digest -/

namespace Digest

def sealEntry (tag payload : String) : Json := .object [("seal", .strings [tag, payload])]

/-- The parts of the seal that an entry carries, under either spelling of its key. -/
def sealParts? (log : Json) : Option (List Json) := do
  ((log.get? "seal").or (log.get? "Seal")) >>= Json.items?

/-- The tag of the seal that an entry carries. -/
def sealTag? (log : Json) : Option String := do
  (← sealParts? log)[0]? >>= Json.text?

/-- The payload of the seal that an entry carries. -/
def sealPayload? (log : Json) : Option String := do
  (← sealParts? log)[1]? >>= Json.text?

/-- The JSON form of the entries; anything but an array counts as no entries. -/
def logsCodec : Codec (List Json) where
  write := .arr
  read r d := (fun v => v.items?.getD []) <$> d.keep r

/-- The JSON form of a digest. -/
def codec : Codec Digest :=
  Fields.codec (.cons (.defaulted "logs" logsCodec Digest.logs []) .done) Digest.mk

end Digest

/-! ## Reading and building headers -/

namespace Header

/-- Reads a height: hexadecimal after `0x`, decimal otherwise. -/
def readNumber (s : String) : Except Text.NumeralError UInt64 :=
  let (marked, digits) := Text.splitMarker (Text.trimChars s.toList)
  UInt64.ofNat <$> Text.readNumeral (if marked then 16 else 10) Text.maxWord digits

/-- The JSON form of a height. -/
def numberCodec : Codec UInt64 where
  write n := .nat n.toNat
  read r d := do
    match ← d.keep r with
    | .num (.int n) =>
      if 0 ≤ n && n ≤ Text.maxWord then return UInt64.ofNat n.toNat
      else throw (.noMatch "NumberRepr")
    | .str s => (readNumber s).mapError .numeral
    | _ => throw (.noMatch "NumberRepr")

/-- The JSON form of a header. -/
def codec : Codec Header :=
  Fields.codec
    (.cons (.required "number" numberCodec Header.number)
      (.cons (.required "hash" .string Header.hash)
        (.cons (.required "parentHash" .string Header.parentHash)
          (.cons (.defaulted "stateRoot" .string Header.stateRoot "")
            (.cons (.defaulted "extrinsicsRoot" .string Header.extrinsicsRoot "")
              (.cons (.defaulted "digest" Digest.codec Header.digest ⟨[]⟩) .done))))))
    Header.mk

/-- A header without roots and seals. -/
def new (number : UInt64) (hash parentHash : String) : Header :=
  ⟨number, hash, parentHash, "", "", ⟨[]⟩⟩

/-- The header with one more seal in its digest. -/
def withSeal (h : Header) (tag payload : String) : Header :=
  { h with digest := ⟨h.digest.logs ++ [Digest.sealEntry tag payload]⟩ }

def withRoots (h : Header) (stateRoot extrinsicsRoot : String) : Header :=
  { h with stateRoot, extrinsicsRoot }

def isBlank (h : Header) : Bool := Text.isBlankText h.hash

/-- Reads a header from its JSON text; its hash must not be blank. -/
def ofText (s : String) : Except HeaderError Header := do
  let h ← (codec.decode s).mapError .unreadable
  if h.isBlank then throw (.blankHash h.number none) else return h

end Header

end BlockGraph
