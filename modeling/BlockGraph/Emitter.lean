import BlockGraph.Diff

/-!
# The emitter

Every event that was ever emitted stands in the journal. A subscription first receives the whole
journal and then every further event, so that two subscriptions tell the same story whenever they
began. Subscriptions go by names; a new one replaces the one of its name. A subscription that is no
longer read is noticed, and forgotten, when the next event is emitted.
-/

namespace BlockGraph

/-- A consumer's queue. -/
structure Subscription where
  name : String
  queue : List DiffEvent
  /-- Whether the consumer is still there. -/
  isLive : Bool
  deriving DecidableEq, Repr

def Subscription.answers (s : Subscription) (name : String) : Bool := s.isLive && s.name == name

/-- The journal and the subscriptions to it. -/
structure Emitter where
  journal : List DiffEvent
  subscriptions : List Subscription
  deriving DecidableEq, Repr

namespace Emitter

/-- No event and no subscription. -/
def new : Emitter := ⟨[], []⟩

def live? (e : Emitter) (name : String) : Option Subscription :=
  e.subscriptions.find? (·.answers name)

/-- The number of subscriptions that have not been forgotten. -/
def subscriberCount (e : Emitter) : Nat := e.subscriptions.length

/-- Emits events, in order. Without events nothing is noticed. -/
def emit (e : Emitter) (events : List DiffEvent) : Emitter :=
  if events.isEmpty then e
  else
    ⟨e.journal ++ events,
      (e.subscriptions.filter (·.isLive)).map fun s => { s with queue := s.queue ++ events }⟩

/-- Ends the subscription of a name; tells whether there was one. -/
def unsubscribe (e : Emitter) (name : String) : Emitter × Bool :=
  ({ e with subscriptions := e.subscriptions.map fun s =>
      if s.answers name then { s with isLive := false } else s },
    (e.live? name).isSome)

/-- Begins a subscription, in the place of the one of its name. -/
def subscribe (e : Emitter) (name : String) : Emitter :=
  let e := (e.unsubscribe name).1
  { e with subscriptions := e.subscriptions ++ [⟨name, e.journal, true⟩] }

/-- Takes the next event that waits for a subscription, if there is one. -/
def receive (e : Emitter) (name : String) : Emitter × Option DiffEvent :=
  ({ e with subscriptions := e.subscriptions.map fun s =>
      if s.answers name then { s with queue := s.queue.tail } else s },
    (e.live? name).bind (·.queue.head?))

/-- Takes all events that wait for a subscription; `none` when there is none of the name. -/
def drain (e : Emitter) (name : String) : Emitter × Option (List DiffEvent) :=
  ({ e with subscriptions := e.subscriptions.map fun s =>
      if s.answers name then { s with queue := [] } else s },
    (e.live? name).map (·.queue))

end Emitter

end BlockGraph
