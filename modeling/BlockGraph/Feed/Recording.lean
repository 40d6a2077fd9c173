import BlockGraph.Feed.Line
import BlockGraph.Header.Shape

/-!
# Recordings

A recording holds one header a line. Blank lines and lines that begin with `#` are comments, a line
that is no header is reported by its number and passed over. A line that is no text ends the
recording with a failure.
-/

namespace BlockGraph

/-- What reading an opened file yields. -/
abbrev Contents := Except OsError (List UInt8)

/-- What happens when a recording is played. -/
inductive PlayEvent where
  | item (item : FeedItem)
  /-- The line of this number is no header, and why. -/
  | malformed (line : Nat) (why : String)
  /-- The end, after so many lines. -/
  | finished (lines : Nat)

namespace Recording

/-- The lines of a file, each with the newline that ends it. -/
def splitLines (bytes : List UInt8) : List (List UInt8) :=
  bytes.foldr
    (fun b lines => match b, lines with
      | 10, lines => [10] :: lines
      | b, line :: lines => (b :: line) :: lines
      | b, [] => [[b]])
    []

/-- A line without the newline that ends it and without a carriage return before that. -/
def withoutEnd (line : List UInt8) : List UInt8 :=
  match line.reverse with
  | 10 :: 13 :: bytes | 10 :: bytes => bytes.reverse
  | _ => line

/-- What one line of text stands for: nothing, a header, or a malformed record. -/
def readLine (number : Nat) (text : String) : List PlayEvent :=
  let record := Text.trim text
  if record = "" || record.toList.head? == some '#' then []
  else match Header.ofText record with
    | .ok header => [.item (.ok header)]
    | .error e => [.malformed number (Header.complaint record e)]

/-- What happens when the lines after the first `passed` ones are played. -/
def playLines : (passed : Nat) → List (List UInt8) → List PlayEvent
  | passed, [] => [.finished passed]
  | passed, line :: lines =>
    match Text.decode (withoutEnd line) with
    | .ok text => readLine (passed + 1) text ++ playLines (passed + 1) lines
    | .error e => [.item (.error (.reading (.encoding e))), .finished passed]

/-- What happens when the bytes of a file are played. -/
def play (bytes : List UInt8) : List PlayEvent := playLines 0 (splitLines bytes)

/-- What happens when an opened file is played. -/
def playContents : Contents → List PlayEvent
  | .ok bytes => play bytes
  | .error e => [.item (.error (.reading (.system e))), .finished 0]

def items (events : List PlayEvent) : List FeedItem :=
  events.filterMap fun
    | .item i => some i
    | .malformed .. | .finished _ => none

/-- The numbers of the lines that are passed over. -/
def malformedLines (events : List PlayEvent) : List Nat :=
  events.filterMap fun
    | .malformed n _ => some n
    | .item _ | .finished _ => none

/-- What happens up to the item of a number, where a reader that gives up stops. -/
def upToItem : Nat → List PlayEvent → List PlayEvent
  | 0, _ => []
  | _ + 1, [] => []
  | n + 1, .item i :: events => .item i :: upToItem n events
  | n + 1, e :: events => e :: upToItem (n + 1) events

end Recording

end BlockGraph
