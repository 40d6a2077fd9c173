import BlockGraph.Text.Control

/-!
# Log lines

Lines about a run for the person who runs it. Each comes from one part of the program and has a
severity.
-/

namespace BlockGraph

/-- How much a line matters. -/
inductive Severity where
  | debug
  | info
  | warn
  deriving DecidableEq, Repr

def Severity.name : Severity → String
  | .debug => "DEBUG"
  | .info => "INFO"
  | .warn => "WARN"

/-- The part of the program that a line comes from. -/
inductive Origin where
  | store
  | competing
  | aggregator
  | replay
  | logging
  | commands
  | watch
  | snapshot
  deriving DecidableEq, Repr

/-- The path by which a part is known to those who filter the log. -/
def Origin.path : Origin → String
  | .store => "forkwatch_datastore::block_store"
  | .competing => "forkwatch_datastore::fork_detector"
  | .aggregator => "forkwatch_observer::aggregator"
  | .replay => "forkwatch_observer::feeds::replay"
  | .logging => "forkwatch::logging"
  | .commands => "forkwatch::cmds"
  | .watch => "forkwatch::cmds::watch"
  | .snapshot => "forkwatch::cmds::snapshot"

/-- A line of the log. -/
structure LogLine where
  origin : Origin
  severity : Severity
  text : String
  deriving DecidableEq, Repr

namespace LogLine

/-- The text with each further line set in by four blanks. -/
def indented (l : LogLine) : String :=
  String.ofList (l.text.toList.flatMap fun c =>
    if c = '\n' then ['\n', ' ', ' ', ' ', ' '] else [c])

/-- The line as it is written, with its end; control sequences are left out. -/
def render (l : LogLine) : String :=
  Text.withoutControls (s!"[{l.severity.name} {l.origin.path}] {l.indented}" ++ "\n")

end LogLine

end BlockGraph
