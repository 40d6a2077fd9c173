import BlockGraph.Aggregator

/-!
# Runs

A run plays recordings into one graph. First all of them are added as sources, where one that cannot be
added is passed over. Then they are played one after another, in the order in which they were added.
-/

namespace BlockGraph

/-- What came of adding a source. -/
structure Addition where
  source : String
  answer : Except AggregatorError Bool

/-- A run over recordings. -/
structure Run where
  aggregator : Aggregator
  /-- What came of adding the sources, in their order. -/
  additions : List Addition

namespace Run

/-- Adds a source. -/
def addFeed (r : Run) (feed : String) : Run :=
  let (a, answer) := r.aggregator.addSource feed
  ⟨a, r.additions ++ [⟨Text.trim feed, answer⟩]⟩

/-- Adds recordings to an aggregator. -/
def start (a : Aggregator) (feeds : List String) : Run := feeds.foldl addFeed ⟨a, []⟩

/-- Plays the recordings that were added. The pump of the first one takes all its steps before that of
the next one takes any. -/
def finish (r : Run) : Run := { r with aggregator := r.aggregator.settle }

/-- Adds recordings to a new aggregator and plays them. -/
def play (settings : Settings) (openFile : String → Except OsError Contents)
    (feeds : List String) : Run :=
  (start (.new settings (.replay ⟨none, openFile⟩ .empty)) feeds).finish

/-- Somebody subscribes to the changes of the graph. -/
def listen (r : Run) (name : String) : Run :=
  { r with aggregator := r.aggregator.onEmitter (·.subscribe name) }

/-- What waits for a subscription when the run has been shut down. -/
def received (r : Run) (name : String) : List DiffEvent :=
  ((r.aggregator.shutdown []).engine.emitter.drain name).2.getD []

/-- The sources that were played. -/
def played (r : Run) : List String :=
  r.additions.filterMap fun
    | ⟨source, .ok true⟩ => some source
    | _ => none

/-- What happened when a source was played. -/
def events (r : Run) (source : String) : List PlayEvent :=
  match r.aggregator.feed with
  | .replay feed _ => (feed.subscribe source).toOption.getD []
  | .channel _ => []

end Run

end BlockGraph
