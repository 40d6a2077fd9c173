import BlockGraph.Log.Line
import BlockGraph.Run

/-!
# The log of a run

What the log says about a run, part by part: how the sources were added, how their recordings were
played, how the graph grew, how the sources ended, and that all is over.
-/

namespace BlockGraph

/-! ## The graph -/

namespace BlockStore

/-- What the log says about a new block behind the blocks that came before it. -/
def storedLine (earlier : List Block) (b : Block) : LogLine :=
  let parent := if earlier.any (·.hash == b.parentHash) then "known" else "missing"
  ⟨.store, .debug, s!"Stored block {b.shortHash} at height {b.height.toNat} " ++
    s!"(group: {b.group.name}, seq: {b.firstSeenAt}, parent {parent})"⟩

/-- What the log says about the height of a new block, if other blocks are there already. -/
def competingLine? (earlier : List Block) (b : Block) : Option LogLine :=
  match earlier.filter (·.height == b.height) with
  | [] => none
  | others =>
    let hashes := String.intercalate ", " ((others ++ [b]).map (·.shortHash))
    some ⟨.competing, .info, s!"🔀 Competing blocks at height {b.height.toNat}: {hashes}"⟩

/-- What the log says about blocks that arrived in this order behind the earlier ones. -/
def arrivalLines (earlier : List Block) : List Block → List LogLine
  | [] => []
  | b :: blocks =>
    storedLine earlier b :: (competingLine? earlier b).toList ++
      arrivalLines (earlier ++ [b]) blocks

/-- What the log says about a header that gave a stored block another height. -/
def warningLine (w : IntegrityWarning) : LogLine :=
  ⟨.store, .warn, s!"⚠️  Height mismatch for block {Block.shorten w.hash}: stored " ++
    s!"{w.storedHeight.toNat} but {w.source} reported {w.reportedHeight.toNat}; " ++
    "keeping first-seen height"⟩

/-- What the log says about the graph. -/
def logLines (s : BlockStore) : List LogLine :=
  arrivalLines [] s.blocks ++ s.warnings.map warningLine

end BlockStore

/-! ## The sources -/

/-- What the log says about a failure of a source. -/
def SourceState.failureLine (source reason : String) : LogLine :=
  ⟨.aggregator, .warn, s!"⚠️  Source {source} failed: {reason}"⟩

/-- What the log says when a source has been added. -/
def Addition.logLines (a : Addition) : List LogLine :=
  match a.answer with
  | .ok true => [⟨.aggregator, .info, s!"📡 Subscribed to {a.source}"⟩]
  | .ok false => [⟨.aggregator, .debug, s!"Source {a.source} is already active"⟩]
  | .error e =>
    let causes := match e with
      | .feed source cause =>
        [⟨.aggregator, .warn, s!"⚠️  Failed to subscribe to {source}: {cause.message}"⟩,
          SourceState.failureLine source cause.message]
      | _ => []
    causes ++ [⟨.commands, .warn, s!"⚠️  {e.message}"⟩]

/-- What the log says about an event of a recording. -/
def PlayEvent.logLine? (source : String) : PlayEvent → Option LogLine
  | .item _ => none
  | .malformed n why =>
    some ⟨.replay, .warn, s!"⚠️  Skipping malformed header at {source}:{n}: {why}"⟩
  | .finished n => some ⟨.replay, .debug, s!"Replay of {source} finished after {n} lines"⟩

/-- What the log says about how a source ended. -/
def SourceStatus.endLine (s : SourceStatus) : LogLine :=
  match s.state with
  | .failed reason => SourceState.failureLine s.id reason
  | .capReached =>
    ⟨.aggregator, .info, s!"Source {s.id} reached its cap of {s.observedCount} headers"⟩
  | _ => ⟨.aggregator, .info, s!"Source {s.id} ended after {s.observedCount} headers"⟩

/-! ## The whole run -/

namespace Run

/-- What the log says while a source is played. -/
def playLines (r : Run) (source : String) : List LogLine :=
  (r.events source).filterMap (PlayEvent.logLine? source) ++
    [⟨.aggregator, .debug, s!"Pump for {source} stopped"⟩]

/-- What the log says about the run. -/
def logLines (r : Run) : List LogLine :=
  r.additions.flatMap Addition.logLines ++
    r.played.flatMap r.playLines ++
    r.aggregator.engine.store.logLines ++
    (r.played.filterMap r.aggregator.status?).map SourceStatus.endLine ++
    [⟨.aggregator, .debug, "Mutation loop stopped"⟩, ⟨.aggregator, .info, "🛑 Aggregator shut down"⟩]

end Run

end BlockGraph
