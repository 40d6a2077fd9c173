import BlockGraph.Block
import BlockGraph.Json.Variant

/-!
# The block store

All blocks in the order of their first arrival, an index of their hashes, an index of the hashes of
each height, and the edges. A block is known by its hash: a second header of one hash adds its
source and nothing else. The store links a block to its parent when the parent is there already;
whether it also links children that came before their parent is the policy.

- `insert_blank`: a header with a blank hash is refused.
-/

namespace BlockGraph

/-- When a parent and a child are linked. -/
inductive EdgePolicy where
  /-- When the child arrives after its parent. -/
  | childOnly
  /-- Also when the parent arrives after the child. -/
  | backfill
  deriving DecidableEq, Repr

namespace EdgePolicy

def name : EdgePolicy → String
  | .childOnly => "child-only"
  | .backfill => "backfill"

/-- The JSON form of a policy: its name. -/
def codec : Codec EdgePolicy :=
  Variant.codec [.bare "child-only" .childOnly, .bare "backfill" .backfill]
    (fun policy => .str policy.name)

end EdgePolicy

/-- A header that gave a known hash another height. -/
structure IntegrityWarning where
  hash : String
  storedHeight : UInt64
  reportedHeight : UInt64
  source : String
  deriving DecidableEq, Repr

/-- The JSON form of a warning. -/
def IntegrityWarning.codec : Codec IntegrityWarning :=
  Fields.codec
    (.cons (.required "hash" .string IntegrityWarning.hash)
    (.cons (.required "storedHeight" .word64 IntegrityWarning.storedHeight)
    (.cons (.required "reportedHeight" .word64 IntegrityWarning.reportedHeight)
    (.cons (.required "source" .string IntegrityWarning.source)
    .done))))
    IntegrityWarning.mk

/-- What an insertion has done. -/
structure Insertion where
  isNew : Bool
  /-- The stored block right after the insertion. -/
  block : Block
  /-- The edge from the block's parent. -/
  newEdge : Option Edge
  /-- The edges to children that had waited for the block. -/
  adoptedEdges : List Edge
  /-- Whether the block had not been reported by the source before. -/
  sourceAdded : Bool
  warning : Option IntegrityWarning
  deriving DecidableEq, Repr

/-- The blocks that have been observed. -/
structure BlockStore where
  /-- In the order of their first arrival. -/
  blocks : List Block
  /-- The place of each hash among the blocks. -/
  index : SortedMap String Nat
  /-- The hashes of each height, in the order of their first arrival. -/
  heights : SortedMap UInt64 (List String)
  edges : List Edge
  /-- The hashes that wait for a parent. -/
  waiting : SortedMap String (List String)
  /-- The place in the order of arrival that the next new block takes. -/
  nextSequence : Nat
  warnings : List IntegrityWarning
  table : SealTable
  policy : EdgePolicy
  deriving DecidableEq, Repr

namespace BlockStore

def new (table : SealTable) (policy : EdgePolicy) : BlockStore :=
  ⟨[], .empty, .empty, [], .empty, 0, [], table, policy⟩

/-! ## Queries -/

def byHash? (s : BlockStore) (hash : String) : Option Block :=
  (s.index.get? hash).bind fun i => s.blocks[i]?

def contains (s : BlockStore) (hash : String) : Bool := s.index.contains hash

/-- The hashes at a height, in the order of their first arrival. -/
def atHeight (s : BlockStore) (height : UInt64) : List String := (s.heights.get? height).getD []

/-- The hashes in the order of their first arrival. -/
def hashes (s : BlockStore) : List String := s.blocks.map (·.hash)

def tipHeight? (s : BlockStore) : Option UInt64 := s.heights.maxKey?

/-- The blocks above height zero whose parent is not stored. -/
def orphans (s : BlockStore) : List Block :=
  s.blocks.filter fun b => !b.isGenesis && !s.contains b.parentHash

/-! ## Changes of one block -/

def modify (s : BlockStore) (hash : String) (f : Block → Block) : BlockStore :=
  match s.index.get? hash with
  | some i => { s with blocks := s.blocks.modify i f }
  | none => s

def setPosition (s : BlockStore) (hash : String) (position : Position) : BlockStore :=
  s.modify hash fun b => { b with position := some position }

def clearPositions (s : BlockStore) : BlockStore :=
  { s with blocks := s.blocks.map fun b => { b with position := none } }

def setCompeting (s : BlockStore) (hash : String) (competing : Bool) : BlockStore :=
  s.modify hash fun b => { b with isCompeting := competing }

/-! ## Insertion -/

/-- Links a new block to its parent if that is stored, and else lets it wait where the policy links
late parents. Blocks of height zero and blocks that are their own parent do not wait. -/
def linkParent (s : BlockStore) (block : Block) : BlockStore × Option Edge :=
  if s.contains block.parentHash then
    let edge : Edge := ⟨block.parentHash, block.hash⟩
    ({ s with edges := s.edges ++ [edge] }, some edge)
  else if s.policy = .backfill && !block.isGenesis && block.parentHash ≠ block.hash then
    ({ s with waiting := s.waiting.append block.parentHash block.hash }, none)
  else (s, none)

/-- Links the children that have waited for a hash. -/
def adoptChildren (s : BlockStore) (hash : String) : BlockStore × List Edge :=
  let edges := ((s.waiting.get? hash).getD []).map fun child => ⟨hash, child⟩
  ({ s with edges := s.edges ++ edges, waiting := s.waiting.erase hash }, edges)

/-- Stores a block behind all others. -/
def append (s : BlockStore) (block : Block) : BlockStore :=
  { s with
    blocks := s.blocks ++ [block]
    index := s.index.insert block.hash s.blocks.length
    heights := s.heights.append block.height block.hash }

def insertNew (s : BlockStore) (header : Header) (source : String) : BlockStore × Insertion :=
  let block := Block.ofHeader header (s.table.classify header) source s.nextSequence
  let s := { s with nextSequence := s.nextSequence + 1 }
  let (s, newEdge) := s.linkParent block
  let (s, adoptedEdges) := s.adoptChildren block.hash
  (s.append block, ⟨true, block, newEdge, adoptedEdges, true, none⟩)

def heightWarning? (known : Block) (header : Header) (source : String) :
    Option IntegrityWarning :=
  if known.height = header.number then none
  else some ⟨known.hash, known.height, header.number, source⟩

/-- Inserts a header of a stored block: its source is added, the rest of the block stays. -/
def mergeKnown (s : BlockStore) (known : Block) (header : Header) (source : String) :
    BlockStore × Insertion :=
  let block := { known with reportingSources := SortedSet.add known.reportingSources source }
  let warning := heightWarning? known header source
  let s := s.modify known.hash fun b =>
    { b with reportingSources := SortedSet.add b.reportingSources source }
  ({ s with warnings := s.warnings ++ warning.toList },
    ⟨false, block, none, [], !known.reportingSources.contains source, warning⟩)

def insert (s : BlockStore) (header : Header) (source : String) :
    Except HeaderError (BlockStore × Insertion) :=
  if header.isBlank then .error (.blankHash header.number (some source))
  else .ok <| match s.byHash? header.hash with
    | some known => s.mergeKnown known header source
    | none => s.insertNew header source

theorem insert_blank (s : BlockStore) (header : Header) (source : String)
    (h : header.isBlank = true) :
    s.insert header source = .error (.blankHash header.number (some source)) := by
  simp [insert, h]

end BlockStore

end BlockGraph
