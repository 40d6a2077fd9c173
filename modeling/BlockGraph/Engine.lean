import BlockGraph.Competing
import BlockGraph.Emitter
import BlockGraph.Lanes

/-!
# The engine

The block graph with all that is derived from it. One cycle takes one header: the store inserts it,
the flags at its height are set again, the block is placed, and what changed is emitted.

- `apply_error`: a header that is refused changes nothing.
-/

namespace BlockGraph

/-- The store, its lanes, and the journal of its changes. -/
structure Engine where
  store : BlockStore
  lanes : Lanes
  emitter : Emitter
  deriving DecidableEq, Repr

namespace Engine

/-- An engine around a store: all flags are set and all blocks are placed afresh. -/
def ofStore (s : BlockStore) : Engine :=
  let flagged := s.heights.keys.foldl (fun s height => (s.recomputeCompeting height).1) s
  let (lanes, placed) := Lanes.assignAll flagged
  ⟨placed, lanes, .new⟩

/-- An engine without blocks. -/
def new (table : SealTable) (policy : EdgePolicy) : Engine := ofStore (.new table policy)

/-- The events of a new block: the block, the edges to and from it, and the other blocks at its
height whose flag changed. -/
def newBlockEvents (s : BlockStore) (insertion : Insertion) (changed : List (String × Bool)) :
    List DiffEvent :=
  let hash := insertion.block.hash
  (s.byHash? hash).toList.map .nodeAdded ++
    (insertion.newEdge.toList ++ insertion.adoptedEdges).map .edgeAdded ++
    (changed.filter fun (other, _) => other ≠ hash).map fun (other, flag) =>
      .nodeUpdated other (.competing flag)

/-- The events of a known block: its sources, if one was added. -/
def mergeEvents (insertion : Insertion) : List DiffEvent :=
  if insertion.sourceAdded then
    [.nodeUpdated insertion.block.hash (.sources insertion.block.reportingSources)]
  else []

def apply (e : Engine) (source : String) (header : Header) :
    Except HeaderError (Engine × List DiffEvent) := do
  let (store, insertion) ← e.store.insert header source
  if insertion.isNew then
    let (store, changed) := store.recomputeCompeting insertion.block.height
    let (lanes, store, _) := e.lanes.assignIn store insertion.block.hash
    let events := newBlockEvents store insertion changed
    return (⟨store, lanes, e.emitter.emit events⟩, events)
  else
    let events := mergeEvents insertion
    return ({ e with store, emitter := e.emitter.emit events }, events)

/-- The engine after a header, which is the same engine when the header is refused. -/
def applied (e : Engine) (source : String) (header : Header) : Engine :=
  match e.apply source header with
  | .ok (e, _) => e
  | .error _ => e

theorem apply_error (e : Engine) (source : String) (header : Header)
    (h : header.isBlank = true) : e.applied source header = e := by
  simp [applied, apply, BlockStore.insert_blank _ _ source h, bind, Except.bind]

end Engine

end BlockGraph
