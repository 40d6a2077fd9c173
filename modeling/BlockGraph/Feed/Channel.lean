import BlockGraph.Feed.Line

/-!
# The channel feed

A feed whose headers are published by hand. A source has one current subscription; a new one takes
its place, and the line of the old one ends. A line holds a bounded number of items, so that a call
may have to wait for room.

- `subscribe_refused`: a refused source gets no subscription.
-/

namespace BlockGraph

/-- What has become of an item. -/
inductive Delivery where
  | delivered
  | closed
  | full
  deriving DecidableEq, Repr

/-- The subscriptions of the sources. -/
structure ChannelFeed where
  /-- The number of items that a line may hold; at least one is taken. -/
  capacity : Nat
  lines : Lines
  /-- The line of the current subscription of each source. -/
  current : SortedMap String Nat
  /-- The sources that get no subscription. -/
  refused : SortedSet String

namespace ChannelFeed

/-- The capacity of a feed that asks for none. -/
def standardCapacity : Nat := 256

/-- A feed without subscriptions. -/
def new (capacity : Nat) : ChannelFeed := ⟨capacity, .empty, .empty, .empty⟩

/-- The number of items that a line holds. -/
def room (f : ChannelFeed) : Nat := max f.capacity 1

/-- Lets subscriptions to a source fail. -/
def refuse (f : ChannelFeed) (source : String) : ChannelFeed :=
  { f with refused := SortedSet.add f.refused source }

/-- Lets subscriptions to a source succeed again. -/
def allow (f : ChannelFeed) (source : String) : ChannelFeed :=
  { f with refused := f.refused.erase source }

/-- Ends a line behind what is on it. -/
def closeLine (f : ChannelFeed) (n : Nat) : ChannelFeed := { f with lines := f.lines.close n }

/-- Leaves a source without a current subscription; the line stays open. -/
def detach (f : ChannelFeed) (source : String) : ChannelFeed :=
  { f with current := f.current.erase source }

/-- Ends the current subscription of a source, behind what is on its line. -/
def hangUp (f : ChannelFeed) (source : String) : ChannelFeed :=
  match f.current.get? source with
  | some n => (f.detach source).closeLine n
  | none => f

/-- Begins a subscription to a source and ends the one before. -/
def subscribe (f : ChannelFeed) (source : String) : Except FeedError (ChannelFeed × Nat) :=
  if f.refused.contains source then .error (.unavailable source)
  else
    let f := f.hangUp source
    let (lines, n) := f.lines.add ⟨[], true⟩
    .ok ({ f with lines, current := f.current.insert source n }, n)

/-- Whether the current subscription of a source is read. -/
def isSubscribed (f : ChannelFeed) (source : String) : Bool :=
  (f.current.get? source).any f.lines.isRead

/-- Puts an item on a line, if it is read and has room. -/
def deliver (f : ChannelFeed) (n : Nat) (item : FeedItem) : ChannelFeed × Delivery :=
  if !f.lines.isRead n then (f, .closed)
  else if f.lines.load n < f.room then ({ f with lines := f.lines.put n item }, .delivered)
  else (f, .full)

/-- Publishes a header to the current subscription of a source. -/
def publish (f : ChannelFeed) (source : String) (header : Header) : ChannelFeed × Delivery :=
  match f.current.get? source with
  | some n => f.deliver n (.ok header)
  | none => (f, .closed)

/-- Ends the current subscription of a source with a failure. The subscription is over even where
there is no room to tell its reader why. -/
def fail (f : ChannelFeed) (source reason : String) : ChannelFeed × Delivery :=
  match f.current.get? source with
  | some n => (f.hangUp source).deliver n (.error (.disconnected reason))
  | none => (f, .closed)

/-- Ends the current subscription of a source; tells whether there was one. -/
def close (f : ChannelFeed) (source : String) : ChannelFeed × Bool :=
  (f.hangUp source, f.current.contains source)

/-- Takes the next item from a line. -/
def take (f : ChannelFeed) (n : Nat) : ChannelFeed × Received :=
  let (lines, received) := f.lines.take n
  ({ f with lines }, received)

/-- Gives a line up. -/
def release (f : ChannelFeed) (n : Nat) : ChannelFeed := { f with lines := f.lines.release n }

theorem subscribe_refused (f : ChannelFeed) (source : String)
    (h : f.refused.contains source = true) : f.subscribe source = .error (.unavailable source) := by
  simp [subscribe, h]

end ChannelFeed

/-! ## Readers with names -/

/-- A channel feed with readers that go by names, one line each. -/
structure NamedLines where
  feed : ChannelFeed
  held : SortedMap String Nat

namespace NamedLines

/-- A feed without readers. -/
def new (capacity : Nat) : NamedLines := ⟨.new capacity, .empty⟩

/-- Gives up the line of a name; tells whether there was one. -/
def unsubscribe (d : NamedLines) (name : String) : NamedLines × Bool :=
  match d.held.get? name with
  | some n => (⟨d.feed.release n, d.held.erase name⟩, true)
  | none => (d, false)

/-- Subscribes to a source under a name. The name gives up its line once it has the new one; a
subscription that fails leaves it alone. -/
def subscribe (d : NamedLines) (source name : String) : Except FeedError NamedLines := do
  let (feed, n) ← d.feed.subscribe source
  let (d, _) := (⟨feed, d.held⟩ : NamedLines).unsubscribe name
  return { d with held := d.held.insert name n }

/-- Takes the next item from the line of a name; `none` when there is no such line. -/
def receive (d : NamedLines) (name : String) : NamedLines × Option Received :=
  match d.held.get? name with
  | some n =>
    let (feed, received) := d.feed.take n
    ({ d with feed }, some received)
  | none => (d, none)

end NamedLines

end BlockGraph
