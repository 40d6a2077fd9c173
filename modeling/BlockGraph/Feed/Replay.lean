import BlockGraph.Feed.Recording
import BlockGraph.Files.Path

/-!
# The replay feed

A feed that plays recordings. A source names a file, which is opened when the source is subscribed
to and played to its end.
-/

namespace BlockGraph

/-- Where recordings are found, and how a file is opened. -/
structure ReplayFeed where
  /-- The directory from which relative paths are seen. -/
  baseDir : Option String
  openFile : String → Except OsError Contents

namespace ReplayFeed

def pathFor (f : ReplayFeed) (source : String) : String :=
  let path := (Path.splitFileMarker source).2
  match f.baseDir with
  | some dir => Path.join dir path
  | none => path

/-- What happens when a source is played. -/
def subscribe (f : ReplayFeed) (source : String) : Except FeedError (List PlayEvent) :=
  let path := f.pathFor source
  match f.openFile path with
  | .ok contents => .ok (Recording.playContents contents)
  | .error e => .error (.unavailable s!"{path}: {e.message}")

end ReplayFeed

end BlockGraph
