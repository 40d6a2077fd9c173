import BlockGraph.Json.Record
import BlockGraph.Json.Variant

/-!
# Sources

A source is one feed that the aggregator listens to. Each time it is added it gets a new generation,
which tells its own headers from those of its earlier lives.
-/

namespace BlockGraph

/-- Where a source stands in its life. -/
inductive SourceState where
  | running
  /-- Unsubscribed by the caller. -/
  | stopped
  | capReached
  /-- The feed has delivered all it had. -/
  | ended
  | failed (reason : String)
  deriving DecidableEq, Repr

/-- The JSON form of a state. -/
def SourceState.codec : Codec SourceState :=
  Variant.codec
    [.bare "running" .running, .bare "stopped" .stopped, .bare "cap-reached" .capReached,
      .bare "ended" .ended, .text "failed" .failed]
    fun
      | .running => .str "running"
      | .stopped => .str "stopped"
      | .capReached => .str "cap-reached"
      | .ended => .str "ended"
      | .failed reason => .obj [("failed", .str reason)]

/-- What is told about a source. -/
structure SourceStatus where
  id : String
  active : Bool
  observedCount : Nat
  latestHash : Option String
  state : SourceState
  deriving DecidableEq, Repr

/-- The JSON form of a status. -/
def SourceStatus.codec : Codec SourceStatus :=
  Fields.codec
    (.cons (.required "id" .string SourceStatus.id)
    (.cons (.required "active" .bool SourceStatus.active)
    (.cons (.required "observedCount" .nat SourceStatus.observedCount)
    (.cons (.nullable "latestHash" .string SourceStatus.latestHash)
    (.cons (.required "state" SourceState.codec SourceStatus.state)
    .done)))))
    SourceStatus.mk

/-- A registered source. -/
structure Source where
  id : String
  generation : Nat
  active : Bool
  observedCount : Nat
  latestHash : Option String
  state : SourceState
  deriving DecidableEq, Repr

namespace Source

/-- A source that has just been added. -/
def new (id : String) (generation : Nat) : Source := ⟨id, generation, true, 0, none, .running⟩

/-- What is told about the source. -/
def status (s : Source) : SourceStatus :=
  ⟨s.id, s.active, s.observedCount, s.latestHash, s.state⟩

/-- Whether a header may be counted for the source: one of its own generation, or one that its
caller hands over without any. -/
def accepts (s : Source) (generation : Option Nat) : Bool :=
  s.active && generation.all (· == s.generation)

/-- Counts a header. -/
def record (s : Source) (hash : String) : Source :=
  { s with observedCount := s.observedCount + 1, latestHash := some hash }

/-- Ends the source's activity; a source that is inactive already stays as it is. -/
def deactivate (s : Source) (state : SourceState) : Source :=
  if s.active then { s with active := false, state } else s

/-- Whether the source has had as many headers as it may. -/
def isFull (s : Source) (cap : Option Nat) : Bool := cap.any (· ≤ s.observedCount)

/-- Ends the source's activity if it has had as many headers as it may. -/
def capped (s : Source) (cap : Option Nat) : Source :=
  if s.isFull cap then s.deactivate .capReached else s

end Source

end BlockGraph
