import BlockGraph.Aggregator

/-!
# Snapshots and summaries

What is told of a whole run: the graph with its sources at one moment, and a count of what is in it.
-/

namespace BlockGraph

/-- The graph and the sources at one moment. -/
structure Snapshot where
  nodes : List Block
  edges : List Edge
  sources : List SourceStatus
  deriving DecidableEq, Repr

/-- The JSON form of a snapshot. -/
def Snapshot.codec : Codec Snapshot :=
  Fields.codec
    (.cons (.required "nodes" (.list Block.codec) Snapshot.nodes)
    (.cons (.required "edges" (.list Edge.codec) Snapshot.edges)
    (.cons (.required "sources" (.list SourceStatus.codec) Snapshot.sources)
    .done)))
    Snapshot.mk

/-- What a run has come to. -/
structure RunSummary where
  nodes : Nat
  edges : Nat
  tipHeight : Option UInt64
  orphans : Nat
  integrityWarnings : Nat
  competingHeights : List CompetingSet
  sourcesActive : Nat
  sourcesTotal : Nat
  deriving DecidableEq, Repr

namespace RunSummary

/-- The JSON form of a summary. -/
def codec : Codec RunSummary :=
  Fields.codec
    (.cons (.required "nodes" .nat RunSummary.nodes)
    (.cons (.required "edges" .nat RunSummary.edges)
    (.cons (.nullable "tipHeight" .word64 RunSummary.tipHeight)
    (.cons (.required "orphans" .nat RunSummary.orphans)
    (.cons (.required "integrityWarnings" .nat RunSummary.integrityWarnings)
    (.cons (.required "competingHeights" (.list CompetingSet.codec) RunSummary.competingHeights)
    (.cons (.required "sourcesActive" .nat RunSummary.sourcesActive)
    (.cons (.required "sourcesTotal" .nat RunSummary.sourcesTotal)
    .done))))))))
    RunSummary.mk

/-- A height with its hashes. -/
def competingLine (set : CompetingSet) : String :=
  s!"  {set.height.toNat}: " ++ String.intercalate ", " set.hashes

def lines (s : RunSummary) : List String :=
  let tip := (s.tipHeight.map fun height => toString height.toNat).getD "-"
  [s!"Blocks:             {s.nodes}",
    s!"Edges:              {s.edges}",
    s!"Tip height:         {tip}",
    s!"Orphans:            {s.orphans}",
    s!"Integrity warnings: {s.integrityWarnings}",
    s!"Sources:            {s.sourcesActive} active / {s.sourcesTotal} total"] ++
    if s.competingHeights.isEmpty then ["No competing blocks"]
    else "Competing heights:" :: s.competingHeights.map competingLine

end RunSummary

namespace Aggregator

/-- The graph and the sources as they are now. -/
def snapshot (a : Aggregator) : Snapshot :=
  ⟨a.engine.store.blocks, a.engine.store.edges, a.statuses⟩

/-- What the run has come to by now. -/
def summary (a : Aggregator) : RunSummary where
  nodes := a.engine.store.blocks.length
  edges := a.engine.store.edges.length
  tipHeight := a.engine.store.tipHeight?
  orphans := a.engine.store.orphans.length
  integrityWarnings := a.engine.store.warnings.length
  competingHeights := a.engine.store.competingHeights
  sourcesActive := (a.statuses.filter (·.active)).length
  sourcesTotal := a.statuses.length

end Aggregator

end BlockGraph
