import BlockGraph.Engine
import BlockGraph.Feed.Channel
import BlockGraph.Feed.Replay
import BlockGraph.Status

/-!
# The aggregator

Many sources feed one graph. Each source has a pump, which takes headers from the source's line and
puts them on a bounded queue; one mutation loop takes them from the queue and applies them, one at a
time. Sources are counted, capped, stopped and added again while this goes on.

The whole is one value. A call of the interface is a function on it, and so is a step of the
mutation loop (`mutationStep`) and of a pump (`pumpStep`); `settle` takes such steps until none is
left. A pump is cancelled when its source, in the generation that started the pump, is active no
more.
-/

namespace BlockGraph

/-- How an aggregator works. -/
structure Settings where
  /-- The number of headers that a source may deliver. -/
  eventCap : Option Nat
  /-- The number of items that the queue may hold; at least one is taken. -/
  queueCapacity : Nat
  table : SealTable
  policy : EdgePolicy
  deriving DecidableEq, Repr

/-- The settings of an aggregator that asks for none. -/
def Settings.standard : Settings := ⟨some 1000, 1024, .standard, .childOnly⟩

/-- What waits for the mutation loop. -/
inductive QueueItem where
  | header (source : String) (generation : Nat) (header : Header)
  | closed (source : String) (generation : Nat) (state : SourceState)

/-- The work of one source in one generation. -/
structure Pump where
  source : String
  generation : Nat
  /-- The number of the line that the pump reads. -/
  line : Nat
  /-- What it has taken from the line and not yet put on the queue. -/
  holding : Option QueueItem
  isLast : Bool

/-- Where the headers come from. -/
inductive Feed where
  | channel (feed : ChannelFeed)
  /-- The lines of recordings carry all their items from the start. -/
  | replay (feed : ReplayFeed) (lines : Lines)

namespace Feed

/-- Begins a subscription; the result is the number of its line. -/
def subscribe (f : Feed) (source : String) : Except FeedError (Feed × Nat) :=
  match f with
  | .channel feed => do
    let (feed, line) ← feed.subscribe source
    return (.channel feed, line)
  | .replay feed lines => do
    let (lines, line) := lines.add ⟨Recording.items (← feed.subscribe source), false⟩
    return (.replay feed lines, line)

def lines : Feed → Lines
  | .channel feed => feed.lines
  | .replay _ lines => lines

def withLines (f : Feed) (lines : Lines) : Feed :=
  match f with
  | .channel feed => .channel { feed with lines }
  | .replay feed _ => .replay feed lines

end Feed

/-- Why a call of the aggregator fails. -/
inductive AggregatorError where
  | header (error : HeaderError)
  | feed (source : String) (error : FeedError)
  | blankSource
  | shutDown

/-- The wording of the failure. -/
def AggregatorError.message : AggregatorError → String
  | .header error => s!"Datastore error: {error.message}"
  | .feed source error => s!"Feed error for {source}: {error.message}"
  | .blankSource => "Invalid source id: \"\""
  | .shutDown => "Aggregator is shut down"

/-- An aggregator with all that is under way in it. -/
structure Aggregator where
  settings : Settings
  feed : Feed
  sources : SortedMap String Source
  lastGeneration : Nat
  engine : Engine
  queue : List QueueItem
  pumps : List Pump
  /-- Everything that was ever put on the status stream. -/
  log : List SourceStatus
  isDown : Bool

namespace Aggregator

def ofEngine (settings : Settings) (feed : Feed) (engine : Engine) : Aggregator :=
  ⟨settings, feed, .empty, 0, engine, [], [], [], false⟩

/-- The largest capacity for which a queue can be made. -/
def queueLimit : Nat := 2305843009213693951

/-- Starts an aggregator around an engine. There is none if its queue cannot be made. -/
def start? (settings : Settings) (feed : Feed) (engine : Engine) : Option Aggregator :=
  if settings.queueCapacity ≤ queueLimit then some (.ofEngine settings feed engine) else none

/-- An aggregator without blocks. -/
def new (settings : Settings) (feed : Feed) : Aggregator :=
  ofEngine settings feed (.new settings.table settings.policy)

/-! ## Queries -/

/-- The statuses of all sources in the order of their names. -/
def statuses (a : Aggregator) : List SourceStatus := a.sources.values.map (·.status)

def status? (a : Aggregator) (id : String) : Option SourceStatus :=
  (a.sources.get? id).map (·.status)

def activeCount (a : Aggregator) : Nat := (a.sources.values.filter (·.active)).length

/-- Whether a source is active in a generation. -/
def isCurrent (a : Aggregator) (id : String) (generation : Nat) : Bool :=
  !a.isDown && (a.sources.get? id).any fun s => s.active && s.generation == generation

/-! ## Changes of the registry -/

def publishStatus (a : Aggregator) (s : Source) : Aggregator :=
  { a with log := a.log ++ [s.status] }

/-- Registers a source, over the entry of its name. -/
def setSource (a : Aggregator) (s : Source) : Aggregator :=
  { a with sources := a.sources.insert s.id s }

/-- Registers a source and tells its status. -/
def setAndPublish (a : Aggregator) (s : Source) : Aggregator := (a.setSource s).publishStatus s

/-- Ends the activity of a source in a generation; one that is no longer active stays as it is. -/
def closeSource (a : Aggregator) (id : String) (generation : Nat) (state : SourceState) :
    Aggregator :=
  match a.sources.get? id with
  | some s =>
    if s.generation = generation && s.active then a.setAndPublish (s.deactivate state) else a
  | none => a

/-- Applies a header for a source. It is dropped when the source does not accept it, and when the
source has had its share already, which ends its activity. -/
def ingest (a : Aggregator) (id : String) (generation : Option Nat) (header : Header) :
    Except HeaderError (Aggregator × List DiffEvent) :=
  match a.sources.get? id with
  | none => .ok (a, [])
  | some s =>
    if !s.accepts generation then .ok (a, [])
    else if s.isFull a.settings.eventCap then
      .ok (a.setAndPublish (s.deactivate .capReached), [])
    else do
      let (engine, events) ← a.engine.apply id header
      let s := (s.record header.hash).capped a.settings.eventCap
      return ({ a with engine }.setAndPublish s, events)

/-! ## Calls -/

/-- Adds a source and starts its pump; `false` when it is active already. A source whose
subscription fails stays registered as failed. -/
def addSource (a : Aggregator) (name : String) : Aggregator × Except AggregatorError Bool :=
  let id := Text.trim name
  if id = "" then (a, .error .blankSource)
  else if a.isDown then (a, .error .shutDown)
  else if (a.sources.get? id).any (·.active) then (a, .ok false)
  else
    let generation := a.lastGeneration + 1
    let s := Source.new id generation
    let a := { a.setSource s with lastGeneration := generation }
    match a.feed.subscribe id with
    | .ok (feed, line) =>
      let pump : Pump := ⟨id, generation, line, none, false⟩
      ({ a with feed, pumps := a.pumps ++ [pump] }.publishStatus s, .ok true)
    | .error e => (a.closeSource id generation (.failed e.message), .error (.feed id e))

/-- Ends the activity of a source; tells whether it was active. -/
def stopSource (a : Aggregator) (id : String) : Aggregator × Bool :=
  match a.sources.get? id with
  | some s => if s.active then (a.setAndPublish (s.deactivate .stopped), true) else (a, false)
  | none => (a, false)

/-- Forgets a source; tells whether it was registered. -/
def removeSource (a : Aggregator) (id : String) : Aggregator × Bool :=
  match a.sources.get? id with
  | some s =>
    ({ a with sources := a.sources.erase id }.publishStatus (s.deactivate .stopped), true)
  | none => (a, false)

/-- Applies a header for a source at once, past the queue. -/
def onHeader (a : Aggregator) (id : String) (header : Header) :
    Aggregator × Except AggregatorError (List DiffEvent) :=
  match a.ingest id none header with
  | .ok (a, events) => (a, .ok events)
  | .error e => (a, .error (.header e))

/-- Ends the activity of sources one after another. -/
def stopEach (a : Aggregator) (ids : List String) : Aggregator :=
  ids.foldl (fun a id => (a.stopSource id).1) a

/-- Ends the activity of all sources, in any order: first of those that are listed. -/
def stopAll (a : Aggregator) (order : List String) : Aggregator := a.stopEach (order ++ a.sources.keys)

/-- Ends the activity of all sources and stops the mutation loop; what is on the queue is lost. -/
def shutdown (a : Aggregator) (order : List String) : Aggregator :=
  { a.stopAll order with isDown := true }

/-! ## Work in the background -/

/-- Does what an item of the queue asks for. A header that is refused changes nothing. -/
def perform (a : Aggregator) : QueueItem → Aggregator
  | .header source generation header =>
    match a.ingest source (some generation) header with
    | .ok (a, _) => a
    | .error _ => a
  | .closed source generation state => a.closeSource source generation state

/-- Takes the next item from the queue, if there is one. -/
def performNext (a : Aggregator) : Option Aggregator :=
  match a.queue with
  | [] => none
  | item :: queue => some ({ a with queue }.perform item)

/-- One step of the mutation loop, which has ended when the aggregator is down. -/
def mutationStep (a : Aggregator) : Option Aggregator :=
  if a.isDown then none else a.performNext

/-- The number of items that the queue holds at most. -/
def queueRoom (a : Aggregator) : Nat := max a.settings.queueCapacity 1

/-- Ends a pump and gives its line up. -/
def endPump (a : Aggregator) (p : Pump) : Aggregator :=
  { a with
    pumps := a.pumps.filter (·.generation ≠ p.generation)
    feed := a.feed.withLines (a.feed.lines.release p.line) }

/-- Changes the state of a pump. -/
def setPump (a : Aggregator) (p : Pump) : Aggregator :=
  { a with pumps := a.pumps.map fun q => if q.generation = p.generation then p else q }

/-- Puts what a pump holds on the queue, if there is room; the last item ends the pump. -/
def enqueue (a : Aggregator) (p : Pump) (item : QueueItem) : Option Aggregator :=
  if a.queue.length < a.queueRoom then
    let a := { a with queue := a.queue ++ [item] }
    some (if p.isLast then a.endPump p else a.setPump { p with holding := none })
  else none

/-- Takes the next item from a pump's line. A failure or the end of the line is the last item. -/
def fetch (a : Aggregator) (p : Pump) : Option Aggregator :=
  let (lines, received) := a.feed.lines.take p.line
  let a := { a with feed := a.feed.withLines lines }
  let close (state : SourceState) :=
    a.setPump { p with holding := some (.closed p.source p.generation state), isLast := true }
  match received with
  | .item (.ok header) =>
    some (a.setPump { p with holding := some (.header p.source p.generation header) })
  | .item (.error e) => some (close (.failed e.message))
  | .ended => some (close .ended)
  | .pending => none

/-- Moves a pump's headers on: to the queue what it holds, else the next item off its line. There is
no step when the queue is full, or when the line is empty and open. -/
def forward (a : Aggregator) (p : Pump) : Option Aggregator :=
  match p.holding with
  | some item => a.enqueue p item
  | none => a.fetch p

/-- Takes one step with a pump: it ends when it is cancelled, else it moves its headers on. -/
def pumpStep (a : Aggregator) (p : Pump) : Option Aggregator :=
  if !a.isCurrent p.source p.generation then some (a.endPump p) else a.forward p

/-- One step of work: the mutation loop's, or else the first that a pump can take. -/
def step (a : Aggregator) : Option Aggregator := a.mutationStep.or (a.pumps.findSome? a.pumpStep)

/-- A bound on the number of steps that are left. -/
def workLeft (a : Aggregator) : Nat :=
  a.pumps.foldl (fun n p => n + 3 * a.feed.lines.load p.line + 6) a.queue.length

/-- Takes at most so many steps. -/
def stepUpTo : Nat → Aggregator → Aggregator
  | 0, a => a
  | n + 1, a =>
    match a.step with
    | some a => stepUpTo n a
    | none => a

/-- Takes steps until none is left. -/
def settle (a : Aggregator) : Aggregator := stepUpTo a.workLeft a

/-! ## Calls on the channel feed -/

/-- Makes a delivery. When the line is full, the caller is heard again only after all work in the
background has been done. -/
def deliverOrWait (attempt : Aggregator → Aggregator × Delivery) (a : Aggregator) :
    Aggregator × Delivery :=
  match attempt a with
  | (_, .full) => attempt a.settle
  | answer => answer

/-- Puts an item on a line of the channel feed, if that is the feed. -/
def putOnLine (line : Nat) (item : FeedItem) (a : Aggregator) : Aggregator × Delivery :=
  match a.feed with
  | .channel feed =>
    let (feed, delivery) := feed.deliver line item
    ({ a with feed := .channel feed }, delivery)
  | .replay _ _ => (a, .closed)

def currentLine? (a : Aggregator) (source : String) : Option Nat :=
  match a.feed with
  | .channel feed => feed.current.get? source
  | .replay _ _ => none

/-- Publishes a header and waits for room on the line. -/
def publish (a : Aggregator) (source : String) (header : Header) : Aggregator × Delivery :=
  match a.currentLine? source with
  | some line => deliverOrWait (putOnLine line (.ok header)) a
  | none => (a, .closed)

def mustWait (a : Aggregator) (source : String) (header : Header) : Bool :=
  (a.currentLine? source).any fun line => (putOnLine line (.ok header) a).2 == .full

/-- The number of headers that a caller publishes at a stretch. -/
def stretch : Nat := 64

/-- Publishes headers one after another, when so many have been published at a stretch already.
After a full stretch the caller lets all work in the background be done, as it does when it has to
wait. -/
def publishAll (source : String) : (published : Nat) → List Header → Aggregator →
    Aggregator × List Delivery
  | _, [], a => (a, [])
  | published, header :: headers, a =>
    let (a, published) := if published < stretch then (a, published) else (a.settle, 0)
    let next := if a.mustWait source header then 1 else published + 1
    let (a, delivery) := a.publish source header
    let (a, deliveries) := publishAll source next headers a
    (a, delivery :: deliveries)

/-- Changes the channel feed, if that is the feed. -/
def onChannel (a : Aggregator) (f : ChannelFeed → ChannelFeed) : Aggregator :=
  match a.feed with
  | .channel feed => { a with feed := .channel (f feed) }
  | .replay _ _ => a

/-- Ends the current subscription of a source with a failure and waits for room to tell so. The line
stays open as long as that takes. -/
def failLine (a : Aggregator) (source reason : String) : Aggregator × Delivery :=
  match a.currentLine? source with
  | some line =>
    let failure := putOnLine line (.error (.disconnected reason))
    let (a, delivery) := deliverOrWait failure (a.onChannel (·.detach source))
    (a.onChannel (·.closeLine line), delivery)
  | none => (a, .closed)

/-- Ends the current subscription of a source; tells whether there was one. -/
def closeLine (a : Aggregator) (source : String) : Aggregator × Bool :=
  (a.onChannel (·.hangUp source), (a.currentLine? source).isSome)

/-- Whether the current subscription of a source is read. -/
def isSubscribed (a : Aggregator) (source : String) : Bool :=
  (a.currentLine? source).any a.feed.lines.isRead

/-- Changes the subscriptions to the engine's events. -/
def onEmitter (a : Aggregator) (f : Emitter → Emitter) : Aggregator :=
  { a with engine := { a.engine with emitter := f a.engine.emitter } }

end Aggregator

/-! ## Waiting -/

/-- How far someone is who waits until no source is active. -/
inductive WaitPhase where
  /-- Is about to look at the number of active sources. -/
  | looking
  /-- Has seen one, and waits for the status stream or the end of the aggregator. -/
  | blocked
  | done
  deriving DecidableEq, Repr

/-- What someone who waits can do next. -/
inductive WaitStep where
  /-- Looks at the number of active sources. -/
  | look
  /-- Takes a notice from the status stream, whatever it says, to look again. -/
  | hear
  /-- Gives up waiting, since the aggregator is down. -/
  | leave
  deriving DecidableEq, Repr

/-- Someone who waits until no source is active. -/
structure Waiter where
  reader : StatusReader
  phase : WaitPhase
  deriving DecidableEq, Repr

namespace Waiter

/-- A waiter who begins now, with what comes on the status stream from now on. -/
def start (a : Aggregator) : Waiter := ⟨⟨a.log.length⟩, .looking⟩

def isDone (w : Waiter) : Bool := w.phase == .done

/-- Takes a step, if it can be taken. -/
def take? (w : Waiter) (a : Aggregator) : WaitStep → Option Waiter
  | .look =>
    if w.phase = .looking then
      some { w with phase := if a.activeCount = 0 then .done else .blocked }
    else none
  | .hear =>
    if w.phase = .blocked then
      (w.reader.next? a.log).map fun (reader, _) => ⟨reader, .looking⟩
    else none
  | .leave => if w.phase = .blocked ∧ a.isDown then some { w with phase := .done } else none

/-- The first step that can be taken. The end of the aggregator goes before the status stream. -/
def step? (w : Waiter) (a : Aggregator) : Option Waiter :=
  [.look, .leave, .hear].findSome? (w.take? a)

/-- A bound on the number of steps that are left while nothing else happens. -/
def stepsLeft (w : Waiter) (a : Aggregator) : Nat :=
  let unread := a.log.length - w.reader.passed
  match w.phase with
  | .looking => 2 * unread + 2
  | .blocked => 2 * unread + 1
  | .done => 0

/-- Takes at most so many steps. -/
def stepUpTo (a : Aggregator) : Nat → Waiter → Waiter
  | 0, w => w
  | n + 1, w =>
    match w.step? a with
    | some w => stepUpTo a n w
    | none => w

/-- Takes steps until none is left. -/
def wake (w : Waiter) (a : Aggregator) : Waiter := stepUpTo a (w.stepsLeft a) w

end Waiter

end BlockGraph
