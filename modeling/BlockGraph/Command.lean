import BlockGraph.CommandLine
import BlockGraph.Log.Filter
import BlockGraph.Run.Log
import BlockGraph.Snapshot

/-!
# Commands

What the commands do. All recordings of a run are opened and added first and then played one after
another; the graph that results is a function of what was opened (`Run.play`). One command writes that
graph. The other one subscribes to its changes when all recordings have been added, and writes what it
receives until the run is shut down. The error output takes lines of the log and plain lines in the order
in which they come.
-/

namespace BlockGraph

/-! ## Carrying out a command -/

/-- What is written on the error output at once. -/
inductive Note where
  | log (line : LogLine)
  | plain (line : String)
  deriving DecidableEq, Repr

/-- What is written, with the end of the line. -/
def Note.render : Note → String
  | .log line => line.render
  | .plain line => line ++ "\n"

/-- What a command has written. -/
structure Report where
  stdout : String
  /-- The error output apart from the failure. -/
  notes : List Note
  failure : Option CommandError

namespace Report

/-- Nothing written. -/
def empty : Report := ⟨"", [], none⟩

def exitCode (r : Report) : UInt32 :=
  match r.failure with
  | none => 0
  | some e => if e.isCrash then 101 else 1

end Report

namespace Command

variable {m : Type → Type} [Monad m] [FileSystem m]

/-- A command under way: it may fail, and what it has written until then stays written. -/
abbrev Action (m : Type → Type) := ExceptT CommandError (StateT Report m)

/-- A call on files whose failure ends the command. -/
def call {α : Type} (wrap : OsError → CommandError) (action : m (Except OsError α)) : Action m α :=
  ExceptT.mk do
    let answer ← StateT.lift action
    return answer.mapError wrap

/-- A computation that writes nothing. -/
def quietly {α : Type} (x : ExceptT CommandError m α) : Action m α := ExceptT.mk (StateT.lift x.run)

/-- Reads the configuration file of a command, if it names one. -/
def loadConfig (path : Option String) : ExceptT CommandError m Config :=
  match path with
  | some path => Config.load path
  | none => return .empty

/-- The configuration of a command that plays recordings: the file's, with the options over it. -/
def effectiveConfig (o : FeedOptions) : ExceptT CommandError m Config :=
  o.override <$> loadConfig o.config

/-- Writes notes on the error output. -/
def writeNotes (notes : List Note) : Action m Unit :=
  modify fun r => { r with notes := r.notes ++ notes }

/-! ### The log -/

def logFileName : String := "forkwatch.log"

/-- The level of the log when none is asked for. -/
def standardLevel : String := "info"

def level (c : Config) : String := c.logLevel.getD standardLevel

/-- The directory of the log file, if there is one. -/
def logDirectory? (c : Config) : Option String :=
  if c.logsEnabled.getD true then c.logsPath else none

def logFile (dir : String) : String := Path.join dir logFileName

/-- Writes lines to the log, and to the log file if there is one; the command goes on when that
fails. -/
def writeLog (c : Config) (lines : List LogLine) : Action m Unit := do
  let notes := (lines.filter (LogFilter.ofLevel (level c)).1.passes).map Note.log
  writeNotes notes
  if let some dir := logDirectory? c then
    let text := String.join (notes.map Note.render)
    let _ ← quietly (ExceptT.lift (FileSystem.appendFile (logFile dir) text))

/-- Begins the log: tells what is wrong with the level, and makes the log file. -/
def startLog (c : Config) : Action m Unit := do
  writeNotes ((LogFilter.ofLevel (level c)).2.map fun fault =>
    .plain s!"warning: {fault.message}, ignoring it")
  let places ← match logDirectory? c with
    | some dir =>
      call .logFile (FileSystem.makeDirs dir)
      call .logFile (FileSystem.appendFile (logFile dir) "")
      pure s!"terminal and {logFile dir}"
    | none => pure "terminal only"
  writeLog c [⟨.logging, .debug, s!"Logging to {places} (level: {level c})"⟩]

/-! ### The commands -/

/-- Adds the recordings of a configuration to a new aggregator. -/
def startFeeds (c : Config) : Action m Run := do
  if c.feedList.isEmpty then throw .noFeeds
  let settings ← MonadExcept.ofExcept (c.settings.mapError .sealGroups)
  let opened ← c.feedList.mapM fun feed => do
    let path := ReplayFeed.pathFor ⟨none, fun _ => .error .notFound⟩ (Text.trim feed)
    return (path, ← quietly (ExceptT.lift (FileSystem.openFile path)))
  let openFile (path : String) := (SortedMap.find? path opened).getD (.error .notFound)
  let engine : Engine := .new settings.table settings.policy
  match Aggregator.start? settings (.replay ⟨none, openFile⟩ .empty) engine with
  | some a => return Run.start a c.feedList
  | none => throw .queueTooLarge

/-- Plays the recordings that were added. -/
def finishFeeds (c : Config) (started : Run) : Action m Run := do
  let run := started.finish
  writeLog c run.logLines
  return run

/-- Writes a text to a file, or to the standard output. -/
def writeOutput (wrap : String → OsError → CommandError) (output : Option String) (text : String) :
    Action m Unit :=
  match output with
  | some path => call (wrap path) (FileSystem.writeFile path text)
  | none => modify fun r => { r with stdout := r.stdout ++ text }

/-- The name of the subscription whose events are written. -/
def writer : String := "writer"

/-- Plays recordings and writes the changes of the graph, one a line. The output is made before the
first recording is opened. -/
def runWatch (o : WatchOptions) : Action m Unit := do
  let config ← quietly (effectiveConfig o.feeds)
  startLog config
  if o.output.isSome then writeOutput .createOutput o.output ""
  let started ← startFeeds config
  let run ← finishFeeds config (started.listen writer)
  let events := run.received writer
  writeOutput .createOutput o.output (DiffEvent.linesOf events)
  writeLog config [⟨.watch, .info, s!"Wrote {events.length} events"⟩]
  writeNotes (run.aggregator.summary.lines.map .plain)

/-- Plays recordings and writes the graph. -/
def runSnapshot (o : SnapshotOptions) : Action m Unit := do
  let config ← quietly (effectiveConfig o.feeds)
  startLog config
  let run ← finishFeeds config (← startFeeds config)
  let value := Snapshot.codec.write run.aggregator.snapshot
  let text := if o.compact then value.compact else value.pretty
  match o.output with
  | some path =>
    writeOutput .writeOutput o.output text
    writeLog config [⟨.snapshot, .info, s!"Snapshot written to {path}"⟩]
  | none => writeOutput .writeOutput none (text ++ "\n")

/-- Tells the group of a seal. -/
def runClassify (o : ClassifyOptions) : Action m Unit := do
  let config ← quietly (loadConfig o.config)
  let table ← MonadExcept.ofExcept (config.table.mapError .sealGroups)
  let group := table.classifyPayload (UInt64.ofNat o.number) o.payload
  modify fun r => { r with stdout := group.name ++ "\n" }

/-- What is written when the version is asked for. -/
def versionText : String := "forkwatch 0.1.0\n"

/-- Carries out a command. -/
def run (c : Command) : m Report := do
  let action : Action m Unit := match c with
    | .watch o => runWatch o
    | .snapshot o => runSnapshot o
    | .classify o => runClassify o
  let (answer, report) ← action.run.run .empty
  match answer with
  | .ok () => return report
  | .error e => return { report with failure := some e }

end Command

/-! ## The lines of a failure -/

namespace CommandError

/-- A text with every line set in by four blanks. -/
def indent (s : String) : String :=
  "    " ++ String.ofList (s.toList.flatMap fun c =>
    if c = '\n' then ['\n', ' ', ' ', ' ', ' '] else [c])

/-- What is told about a failure: the error, and its cause below it. -/
def report (fault : Fault → String) (e : CommandError) : String :=
  match e.chain fault with
  | [] => ""
  | [outer] => if e.isCrash then outer else s!"Error: {outer}"
  | outer :: causes =>
    s!"Error: {outer}\n\nCaused by:" ++ String.join (causes.map fun c => "\n" ++ indent c)

end CommandError

end BlockGraph
