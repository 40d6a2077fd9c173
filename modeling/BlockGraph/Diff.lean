import BlockGraph.Block

/-!
# Changes of the graph

What a consumer has to be told to follow the graph: a block, an edge, or new values of some fields
of a block that it knows.
-/

namespace BlockGraph

/-- New values of the fields of a block that may change. -/
structure NodeFields where
  reportingSources : Option (SortedSet String)
  isCompeting : Option Bool
  deriving DecidableEq, Repr

namespace NodeFields

def sources (sources : SortedSet String) : NodeFields := ⟨some sources, none⟩

def competing (flag : Bool) : NodeFields := ⟨none, some flag⟩

/-- The JSON form of the fields; the ones that stay are left out. -/
def codec : Codec NodeFields :=
  Fields.codec
    (.cons (.hidden "reportingSources" .stringSet NodeFields.reportingSources)
    (.cons (.hidden "isCompeting" .bool NodeFields.isCompeting)
    .done))
    NodeFields.mk

end NodeFields

/-- A change of the graph. -/
inductive DiffEvent where
  /-- A new block, as it stands at the end of the change. -/
  | nodeAdded (block : Block)
  | edgeAdded (edge : Edge)
  | nodeUpdated (hash : String) (fields : NodeFields)
  deriving DecidableEq, Repr

namespace DiffEvent

/-- The hash of the block that the event is about; an edge is about its child. -/
def hash : DiffEvent → String
  | .nodeAdded block => block.hash
  | .edgeAdded edge => edge.childHash
  | .nodeUpdated hash _ => hash

/-! ## JSON -/

/-- The kinds of events. -/
inductive Kind where
  | nodeAdded
  | edgeAdded
  | nodeUpdated
  deriving DecidableEq, Repr

def Kind.name : Kind → String
  | .nodeAdded => "node-added"
  | .edgeAdded => "edge-added"
  | .nodeUpdated => "node-updated"

/-- The JSON form of a kind: its name. -/
def Kind.codec : Codec Kind where
  write k := .str k.name
  read _ d := do
    let name ← match d with
      | .str (some name) => pure name
      | d => throw d.wrongType
    match [Kind.nodeAdded, .edgeAdded, .nodeUpdated].find? (·.name = name) with
    | some k => return k
    | none => throw (.unknownVariant name)

def kind : DiffEvent → Kind
  | .nodeAdded _ => .nodeAdded
  | .edgeAdded _ => .edgeAdded
  | .nodeUpdated _ _ => .nodeUpdated

/-- The content of an event that adds a block. -/
def blockCodec : Codec Block :=
  Fields.codec (.cons (.required "block" Block.codec id) .done) id

/-- The content of an event that adds an edge. -/
def edgeCodec : Codec Edge :=
  Fields.codec (.cons (.required "edge" Edge.codec id) .done) id

/-- The content of an event that updates a block. -/
def updateCodec : Codec (String × NodeFields) :=
  Fields.codec
    (.cons (.required "hash" .string Prod.fst) (.cons (.required "fields" NodeFields.codec Prod.snd)
      .done))
    Prod.mk

/-- Reads the content of an event, which has been kept until its kind was known. -/
def readContent (kind : Kind) (content : Doc) : Except Fault DiffEvent :=
  match kind with
  | .nodeAdded => nodeAdded <$> blockCodec.read .held content
  | .edgeAdded => edgeAdded <$> edgeCodec.read .held content
  | .nodeUpdated => (fun (hash, fields) => nodeUpdated hash fields) <$>
      updateCodec.read .held content

/-- The key under which the kind stands. -/
def kindKey : String := "kind"

/-- The kind and the other members of an event, taken from left to right. The others wait as they
are, once it is sure that they can be kept. -/
def splitMembers (r : Reading) : List (Option String × Doc) → Option Kind →
    Except Fault (Option Kind × List (Option String × Doc))
  | [], kind => .ok (kind, [])
  | (key, doc) :: members, kind => do
    let key ← Doc.key key
    if key = kindKey then
      if kind.isSome then throw (.duplicateField kindKey)
      let k ← Kind.codec.read r doc
      splitMembers r members (some k)
    else
      let _ ← doc.keep r
      let (kind, rest) ← splitMembers r members kind
      return (kind, (some key, doc) :: rest)

/-- Reads an event: an object with the kind among the members, or an array with the kind first. -/
def read (r : Reading) : Doc → Except Fault DiffEvent
  | .obj members closed => do
    let r ← r.enter
    let (kind, rest) ← splitMembers r members none
    if !closed then throw .malformed
    match kind with
    | some kind => readContent kind (.obj rest true)
    | none => throw (.missingField kindKey)
  | .arr items closed => do
    let r ← r.enter
    match items with
    | [] => throw (if closed then .missingField kindKey else .malformed)
    | first :: items => do
      let kind ← Kind.codec.read r first
      let _ ← Doc.keepItems r items
      if !closed then throw .malformed
      readContent kind (.arr items true)
  | d => .error d.wrongType

def contentMembers : DiffEvent → List (String × Json)
  | .nodeAdded block => [("block", Block.codec.write block)]
  | .edgeAdded edge => [("edge", Edge.codec.write edge)]
  | .nodeUpdated hash fields => [("hash", .str hash), ("fields", NodeFields.codec.write fields)]

/-- The JSON form of an event. -/
def codec : Codec DiffEvent where
  write e := .obj ((kindKey, Kind.codec.write e.kind) :: e.contentMembers)
  read := read

def line (e : DiffEvent) : String := codec.encode e

/-- Events as text, one a line, each line ended. -/
def linesOf (events : List DiffEvent) : String := String.join (events.map fun e => e.line ++ "\n")

end DiffEvent

end BlockGraph
