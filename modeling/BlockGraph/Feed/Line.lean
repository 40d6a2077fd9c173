import BlockGraph.Files.OsError
import BlockGraph.Header
import BlockGraph.Map
import BlockGraph.Text.Utf8

/-!
# Lines

A line carries the headers of one subscription from a feed to its reader, in the order in which they
were put on it. It ends when the feed has closed it and nothing is left on it.

- `take_put`: what was put on an empty line is taken from it.
-/

namespace BlockGraph

/-- Why reading a record failed. -/
inductive ReadError where
  | system (error : OsError)
  | encoding (error : Text.Utf8Error)
  deriving DecidableEq, Repr

def ReadError.message : ReadError → String
  | .system e => e.message
  | .encoding e => e.message

/-- A failure that a feed reports. -/
inductive FeedError where
  | unavailable (what : String)
  | disconnected (reason : String)
  | reading (error : ReadError)
  | closed
  deriving DecidableEq, Repr

/-- The wording of the failure. -/
def FeedError.message : FeedError → String
  | .unavailable what => s!"Source not available: {what}"
  | .disconnected reason => s!"Connection lost: {reason}"
  | .reading error => s!"I/O error: {error.message}"
  | .closed => "Subscription closed"

/-- What a feed delivers: a header, or a failure after which nothing follows. -/
abbrev FeedItem := Except FeedError Header

/-- What a reader finds on a line. -/
inductive Received where
  | item (item : FeedItem)
  | ended
  /-- Nothing yet. -/
  | pending

/-- One line. -/
structure Line where
  queue : List FeedItem
  /-- Whether the feed may still put items on it. -/
  isOpen : Bool

/-- The lines that are still read, by their numbers. -/
structure Lines where
  lines : SortedMap Nat Line
  next : Nat

namespace Lines

def empty : Lines := ⟨.empty, 0⟩

/-- Adds a line; the number is a new one. -/
def add (ls : Lines) (line : Line) : Lines × Nat :=
  (⟨ls.lines.insert ls.next line, ls.next + 1⟩, ls.next)

def isRead (ls : Lines) (n : Nat) : Bool := ls.lines.contains n

/-- The number of items on a line. -/
def load (ls : Lines) (n : Nat) : Nat := ((ls.lines.get? n).map (·.queue.length)).getD 0

def put (ls : Lines) (n : Nat) (item : FeedItem) : Lines :=
  { ls with lines := ls.lines.modify n fun line => { line with queue := line.queue ++ [item] } }

/-- Ends a line behind what is on it. -/
def close (ls : Lines) (n : Nat) : Lines :=
  { ls with lines := ls.lines.modify n fun line => { line with isOpen := false } }

/-- Gives a line up with all that is on it. -/
def release (ls : Lines) (n : Nat) : Lines := { ls with lines := ls.lines.erase n }

/-- Takes the next item; a line that is not read has none. -/
def take (ls : Lines) (n : Nat) : Lines × Received :=
  match ls.lines.get? n with
  | some ⟨item :: queue, isOpen⟩ =>
    ({ ls with lines := ls.lines.insert n ⟨queue, isOpen⟩ }, .item item)
  | some ⟨[], true⟩ => (ls, .pending)
  | some ⟨[], false⟩ | none => (ls, .ended)

theorem take_put (ls : Lines) (n : Nat) (item : FeedItem) (isOpen : Bool)
    (h : ls.lines.get? n = some ⟨[], isOpen⟩) : ((ls.put n item).take n).2 = .item item := by
  simp [put, take, SortedMap.modify, h]

end Lines

end BlockGraph
