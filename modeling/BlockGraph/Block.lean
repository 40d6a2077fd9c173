import BlockGraph.Position
import BlockGraph.Seal

/-!
# Blocks and edges

A block is what all headers of one hash have told, an edge links it to its parent.
-/

namespace BlockGraph

/-- A block that at least one source has reported. -/
structure Block where
  hash : String
  parentHash : String
  height : UInt64
  stateRoot : String
  extrinsicsRoot : String
  sealBytes : List Json
  group : Group
  reportingSources : SortedSet String
  /-- Its place in the order of arrival of all blocks. -/
  firstSeenAt : Nat
  /-- Whether another block has the same height. -/
  isCompeting : Bool
  position : Option Position
  deriving DecidableEq, Repr

namespace Block

def ofHeader (header : Header) (group : Group) (source : String) (firstSeenAt : Nat) : Block where
  hash := header.hash
  parentHash := header.parentHash
  height := header.number
  stateRoot := header.stateRoot
  extrinsicsRoot := header.extrinsicsRoot
  sealBytes := header.digest.logs
  group := group
  reportingSources := .singleton source
  firstSeenAt := firstSeenAt
  isCompeting := false
  position := none

/-- Whether the block has no parent to wait for. -/
def isGenesis (b : Block) : Bool := b.height == 0

/-- The first eighteen bytes of a hash, or all of it where it is shorter or that would cut a
character. -/
def shorten (hash : String) : String :=
  ((Text.cut? 18 hash.toList).map String.ofList).getD hash

def shortHash (b : Block) : String := shorten b.hash

/-- The JSON form of a block. -/
def codec : Codec Block :=
  Fields.codec
    (.cons (.required "hash" .string Block.hash)
    (.cons (.required "parentHash" .string Block.parentHash)
    (.cons (.required "height" .word64 Block.height)
    (.cons (.required "stateRoot" .string Block.stateRoot)
    (.cons (.required "extrinsicsRoot" .string Block.extrinsicsRoot)
    (.cons (.required "sealBytes" (.list .json) Block.sealBytes)
    (.cons (.required "group" Group.codec Block.group)
    (.cons (.required "reportingSources" .stringSet Block.reportingSources)
    (.cons (.required "firstSeenAt" .nat Block.firstSeenAt)
    (.cons (.required "isCompeting" .bool Block.isCompeting)
    (.cons (.hidden "position" Position.codec Block.position)
    .done)))))))))))
    Block.mk

end Block

/-- A link from a stored block to a stored child of it. -/
structure Edge where
  parentHash : String
  childHash : String
  deriving DecidableEq, Repr

namespace Edge

/-- The name of the edge for a renderer. -/
def id (e : Edge) : String := e.parentHash ++ "-" ++ e.childHash

/-- The JSON form of an edge. -/
def codec : Codec Edge :=
  Fields.codec
    (.cons (.required "parentHash" .string Edge.parentHash)
    (.cons (.required "childHash" .string Edge.childHash)
    .done))
    Edge.mk

end Edge

end BlockGraph
