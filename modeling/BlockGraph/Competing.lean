import BlockGraph.Store

/-!
# Competing blocks

Blocks compete when they share a height. The flag of a block follows the number of hashes at its
height.
-/

namespace BlockGraph

/-- A height with more than one block. -/
structure CompetingSet where
  height : UInt64
  hashes : List String
  deriving DecidableEq, Repr

/-- The JSON form of such a height. -/
def CompetingSet.codec : Codec CompetingSet :=
  Fields.codec
    (.cons (.required "height" .word64 CompetingSet.height)
    (.cons (.required "hashes" (.list .string) CompetingSet.hashes)
    .done))
    CompetingSet.mk

namespace BlockStore

/-- Sets the flags of all blocks at a height, and lists those that changed. -/
def recomputeCompeting (s : BlockStore) (height : UInt64) : BlockStore × List (String × Bool) :=
  let hashes := s.atHeight height
  let competing := 2 ≤ hashes.length
  let changed := hashes.filter fun hash => (s.byHash? hash).any (·.isCompeting != competing)
  (changed.foldl (fun s hash => s.setCompeting hash competing) s,
    changed.map fun hash => (hash, decide competing))

/-- The heights with more than one block, in ascending order. -/
def competingHeights (s : BlockStore) : List CompetingSet :=
  (s.heights.toList.filter fun (_, hashes) => 1 < hashes.length).map fun (height, hashes) =>
    ⟨height, hashes⟩

end BlockStore

end BlockGraph
