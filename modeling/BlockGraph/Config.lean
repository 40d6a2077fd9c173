import BlockGraph.Aggregator
import BlockGraph.Files.System

/-!
# Configuration

What a configuration file says, and what a run makes of it. Every entry may be left out. Relative
paths in a file are seen from the directory in which the file lies.
-/

namespace BlockGraph

/-- The entries of a configuration. -/
structure Config where
  /-- The recordings to play, one source each. -/
  feeds : Option (List String)
  /-- The number of headers that a source may deliver; zero lifts the limit. -/
  eventCap : Option Nat
  /-- The groups of the leading bytes of seals. -/
  sealGroups : Option (SortedMap String String)
  queueCapacity : Option Nat
  replayIntervalMs : Option Nat
  backfillOrphanEdges : Option Bool
  logsPath : Option String
  logsEnabled : Option Bool
  logLevel : Option String
  deriving DecidableEq, Repr

/-- Why a command fails. -/
inductive CommandError where
  | openConfig (path : String) (error : OsError)
  | readConfig (error : OsError)
  | parseConfig (fault : Fault)
  | locateConfig (directory : String) (error : OsError)
  | sealGroups (error : SealTableError)
  | noFeeds
  /-- The queue of the aggregator cannot be made, and the program ends on the spot. -/
  | queueTooLarge
  | logFile (error : OsError)
  | createOutput (path : String) (error : OsError)
  | writeOutput (path : String) (error : OsError)
  deriving DecidableEq, Repr

/-- The wording of the error and of its cause, the outer one first; `fault` words the fault of a
JSON text. -/
def CommandError.chain (fault : Fault → String) : CommandError → List String
  | .openConfig path e => [s!"Failed to open config file {path}", e.message]
  | .readConfig e => ["Failed to parse config file", e.message]
  | .parseConfig f => ["Failed to parse config file", fault f]
  | .locateConfig dir e => [s!"Failed to resolve {dir}", e.message]
  | .sealGroups e => ["Invalid seal_groups", e.message]
  | .noFeeds => ["No feeds configured; pass --feed or set feeds in the config file"]
  | .queueTooLarge =>
    [s!"a semaphore may not have more than MAX_PERMITS permits ({Aggregator.queueLimit})"]
  | .logFile e => [e.message]
  | .createOutput path e => [s!"Failed to create {path}", e.message]
  | .writeOutput path e => [s!"Failed to write {path}", e.message]

/-- Whether the program ends on the spot. -/
def CommandError.isCrash : CommandError → Bool
  | .queueTooLarge => true
  | _ => false

namespace Config

/-- A configuration without entries. -/
def empty : Config := ⟨none, none, none, none, none, none, none, none, none⟩

/-- The JSON form of a configuration. -/
def codec : Codec Config :=
  Fields.codec
    (.cons (.nullable "feeds" (.list .string) Config.feeds)
    (.cons (.nullable "event_cap" .nat Config.eventCap)
    (.cons (.nullable "seal_groups" .stringMap Config.sealGroups)
    (.cons (.nullable "queue_capacity" .nat Config.queueCapacity)
    (.cons (.nullable "replay_interval_ms" .nat Config.replayIntervalMs)
    (.cons (.nullable "backfill_orphan_edges" .bool Config.backfillOrphanEdges)
    (.cons (.nullable "logs_path" .string Config.logsPath)
    (.cons (.nullable "logs_enabled" .bool Config.logsEnabled)
    (.cons (.nullable "log_level" .string Config.logLevel)
    .done)))))))))
    Config.mk

/-! ## What a run makes of it -/

/-- The recordings to play. -/
def feedList (c : Config) : List String := c.feeds.getD []

/-- The number of headers that a source may deliver. -/
def cap (c : Config) : Option Nat :=
  match c.eventCap with
  | none => Settings.standard.eventCap
  | some 0 => none
  | some cap => some cap

/-- The seal table; the entries are taken in the order of their keys. -/
def table (c : Config) : Except SealTableError SealTable :=
  match c.sealGroups with
  | some groups => SealTable.ofEntries groups.toList
  | none => .ok .standard

/-- When blocks are linked. -/
def policy (c : Config) : EdgePolicy :=
  if c.backfillOrphanEdges.getD false then .backfill else .childOnly

/-- The pause between the records of a recording, in milliseconds. -/
def interval (c : Config) : Option Nat := c.replayIntervalMs.filter (0 < ·)

def settings (c : Config) : Except SealTableError Settings := do
  let table ← c.table
  return ⟨c.cap, c.queueCapacity.getD Settings.standard.queueCapacity, table, c.policy⟩

/-! ## Reading a file -/

/-- The configuration with its relative paths seen from a directory. -/
def seenFrom (c : Config) (dir : String) : Config :=
  { c with
    feeds := c.feeds.map fun feeds => feeds.map fun feed =>
      let (marker, path) := Path.splitFileMarker feed
      marker ++ Path.join dir path
    logsPath := c.logsPath.map (Path.join dir) }

/-- Whether the configuration holds a path that has to be seen from the directory of its file. -/
def hasRelativePath (c : Config) : Bool :=
  (c.logsPath.toList ++ c.feedList.map fun feed => (Path.splitFileMarker feed).2).any
    fun path => !Path.isAbsolute path

/-- What a configuration file says. -/
def ofContents (contents : Contents) : Except CommandError Config := do
  let bytes ← contents.mapError .readConfig
  (codec.decodeDoc (Doc.ofBytes bytes)).mapError .parseConfig

/-- Reads a configuration file. -/
def load {m : Type → Type} [Monad m] [FileSystem m] (path : String) :
    ExceptT CommandError m Config := do
  let contents ← ExceptT.mk ((Except.mapError (.openConfig path)) <$> FileSystem.openFile path)
  let config ← ofContents contents
  if config.hasRelativePath then
    let dir := Path.directory path
    let dir ← ExceptT.mk ((Except.mapError (.locateConfig dir)) <$> FileSystem.realPath dir)
    return config.seenFrom dir
  else return config

end Config

end BlockGraph
