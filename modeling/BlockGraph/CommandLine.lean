import BlockGraph.Config
import BlockGraph.Text.Numeral

/-!
# The command line

Options go by their long names; a value follows an option or is joined to it by an equals sign. An
option whose value stands apart is settled only when the next option comes or the line ends, so that
an unknown argument is found before a bad value in front of it.
-/

namespace BlockGraph

/-- Why a command line is not carried out. -/
inductive UsageError where
  | unknownArgument
  | invalidValue
  | valueValidation
  | argumentConflict
  | tooManyValues
  | missingArgument
  | unknownCommand
  | missingCommand
  | help
  | version
  deriving DecidableEq, Repr

def UsageError.name : UsageError → String
  | .unknownArgument => "UnknownArgument"
  | .invalidValue => "InvalidValue"
  | .valueValidation => "ValueValidation"
  | .argumentConflict => "ArgumentConflict"
  | .tooManyValues => "TooManyValues"
  | .missingArgument => "MissingRequiredArgument"
  | .unknownCommand => "InvalidSubcommand"
  | .missingCommand => "DisplayHelpOnMissingArgumentOrSubcommand"
  | .help => "DisplayHelp"
  | .version => "DisplayVersion"

/-- The exit code of a command line that is not carried out: whoever asks for help or for the
version gets it, which is no failure. -/
def UsageError.exitCode : UsageError → UInt32
  | .help | .version => 0
  | _ => 2

/-- What an option takes. -/
inductive OptionKind where
  | flag
  | text
  | path
  | number
  deriving DecidableEq, Repr

/-- An option of a command. -/
structure OptionSpec where
  name : String
  kind : OptionKind
  /-- Whether it may be given more than once. -/
  repeats : Bool
  deriving DecidableEq, Repr

def OptionSpec.check (o : OptionSpec) (value : String) : Except UsageError Unit :=
  match o.kind with
  | .flag | .text => .ok ()
  | .path => if value = "" then .error .invalidValue else .ok ()
  | .number =>
    match Text.readDecimal value with
    | .ok _ => .ok ()
    | .error _ => .error .valueValidation

/-- The arguments of a command as far as they have been read. -/
structure Arguments where
  /-- The options that are settled, each with its value. -/
  given : List (String × String)
  /-- The option whose value stands apart, with the value when it has come. -/
  waiting : Option (OptionSpec × Option String)
  /-- Whether the line has said that no more options follow. -/
  isOver : Bool
  deriving DecidableEq, Repr

namespace Arguments

def none : Arguments := ⟨[], .none, false⟩

def accept (a : Arguments) (o : OptionSpec) (value : String) : Except UsageError Arguments := do
  if !o.repeats && a.given.any (·.1 == o.name) then throw .argumentConflict
  o.check value
  return { a with given := a.given ++ [(o.name, value)] }

/-- Settles the option that waits. -/
def settle (a : Arguments) : Except UsageError Arguments :=
  let settled := { a with waiting := .none }
  match a.waiting with
  | some (o, some value) => settled.accept o value
  | some (_, .none) => .error .invalidValue
  | .none => .ok settled

/-- Splits the text of an option at its first equals sign. -/
def splitValue (cs : List Char) : String × Option String :=
  let name := String.ofList (cs.takeWhile (· ≠ '='))
  match cs.dropWhile (· ≠ '=') with
  | _ :: value => (name, some (String.ofList value))
  | [] => (name, .none)

/-- Reads an option, given the text after its two dashes. -/
def option (specs : List OptionSpec) (a : Arguments) (text : List Char) :
    Except UsageError Arguments := do
  let (name, value) := splitValue text
  if name = "help" then
    if value.isSome then throw .tooManyValues
    let _ ← a.settle
    throw .help
  match specs.find? (·.name = name), value with
  | .none, _ => throw .unknownArgument
  | some o, some value =>
    if o.kind = .flag then throw .tooManyValues
    (← a.settle).accept o value
  | some o, .none =>
    let a ← a.settle
    if o.kind = .flag then a.accept o "" else return { a with waiting := some (o, .none) }

def step (specs : List OptionSpec) (a : Arguments) (arg : String) : Except UsageError Arguments :=
  if a.isOver then .error .unknownArgument
  else match arg.toList, a.waiting with
    | ['-', '-'], _ => .ok { a with isOver := true }
    | '-' :: '-' :: text, _ => option specs a text
    | '-' :: 'h' :: _, _ => a.settle >>= fun _ => .error .help
    | '-' :: _ :: _, _ => .error .unknownArgument
    | _, some (o, .none) => .ok { a with waiting := some (o, some arg) }
    | _, _ => .error .unknownArgument

def read (specs : List OptionSpec) (args : List String) : Except UsageError Arguments :=
  args.foldlM (step specs) none >>= settle

/-- The values of an option in the order in which they were given. -/
def values (a : Arguments) (name : String) : List String :=
  (a.given.filter (·.1 == name)).map (·.2)

def value? (a : Arguments) (name : String) : Option String := (a.values name).head?

/-- The value of an option that takes a number. -/
def number? (a : Arguments) (name : String) : Option Nat :=
  (a.value? name) >>= fun value => (Text.readDecimal value).toOption

def isSet (a : Arguments) (name : String) : Bool := (a.value? name).isSome

end Arguments

/-! ## Commands -/

/-- The options of the commands that play recordings. -/
structure FeedOptions where
  config : Option String
  feeds : List String
  cap : Option Nat
  intervalMs : Option Nat
  backfill : Bool
  logLevel : Option String
  deriving DecidableEq, Repr

/-- Play recordings and write the changes of the graph. -/
structure WatchOptions where
  feeds : FeedOptions
  output : Option String
  deriving DecidableEq, Repr

/-- Play recordings and write the graph. -/
structure SnapshotOptions where
  feeds : FeedOptions
  output : Option String
  compact : Bool
  deriving DecidableEq, Repr

/-- Tell the group of a seal. -/
structure ClassifyOptions where
  config : Option String
  number : Nat
  payload : String
  deriving DecidableEq, Repr

/-- What a command line asks for. -/
inductive Command where
  | watch (options : WatchOptions)
  | snapshot (options : SnapshotOptions)
  | classify (options : ClassifyOptions)
  deriving DecidableEq, Repr

namespace FeedOptions

def specs : List OptionSpec :=
  [⟨"config", .path, false⟩, ⟨"feed", .text, true⟩, ⟨"cap", .number, false⟩,
    ⟨"interval-ms", .number, false⟩, ⟨"backfill", .flag, false⟩, ⟨"log-level", .text, false⟩]

/-- The options as they were given. -/
def ofArguments (a : Arguments) : FeedOptions where
  config := a.value? "config"
  feeds := a.values "feed"
  cap := a.number? "cap"
  intervalMs := a.number? "interval-ms"
  backfill := a.isSet "backfill"
  logLevel := a.value? "log-level"

/-- The configuration with the options over it. Recordings are added to those of the file. -/
def override (o : FeedOptions) (c : Config) : Config :=
  { c with
    feeds := if o.feeds.isEmpty then c.feeds else some (c.feedList ++ o.feeds)
    eventCap := o.cap.or c.eventCap
    replayIntervalMs := o.intervalMs.or c.replayIntervalMs
    backfillOrphanEdges := if o.backfill then some true else c.backfillOrphanEdges
    logLevel := o.logLevel.or c.logLevel }

end FeedOptions

/-- Reads the options of the command that plays recordings and writes the changes. -/
def WatchOptions.read (args : List String) : Except UsageError WatchOptions := do
  let a ← Arguments.read (FeedOptions.specs ++ [⟨"output", .path, false⟩]) args
  return ⟨.ofArguments a, a.value? "output"⟩

/-- Reads the options of the command that plays recordings and writes the graph. -/
def SnapshotOptions.read (args : List String) : Except UsageError SnapshotOptions := do
  let a ← Arguments.read
    (FeedOptions.specs ++ [⟨"output", .path, false⟩, ⟨"compact", .flag, false⟩]) args
  return ⟨.ofArguments a, a.value? "output", a.isSet "compact"⟩

/-- Reads the options of the command that tells the group of a seal. -/
def ClassifyOptions.read (args : List String) : Except UsageError ClassifyOptions := do
  let a ← Arguments.read
    [⟨"config", .path, false⟩, ⟨"number", .number, false⟩, ⟨"seal", .text, false⟩] args
  match a.value? "seal" with
  | some payload => return ⟨a.value? "config", (a.number? "number").getD 1, payload⟩
  | none => throw .missingArgument

namespace Command

def read : List String → Except UsageError Command
  | [] => .error .missingCommand
  | "watch" :: args => watch <$> WatchOptions.read args
  | "snapshot" :: args => snapshot <$> SnapshotOptions.read args
  | "classify" :: args | "seal" :: args => classify <$> ClassifyOptions.read args
  | "help" :: [] | "help" :: "watch" :: [] | "help" :: "snapshot" :: [] | "help" :: "classify" :: []
  | "help" :: "seal" :: [] | "help" :: "help" :: [] => .error .help
  | arg :: _ =>
    match arg.toList with
    | ['-', '-'] => .error .unknownArgument
    | '-' :: '-' :: text =>
      match Arguments.splitValue text with
      | ("help", none) => .error .help
      | ("version", none) => .error .version
      | ("help", some _) | ("version", some _) => .error .tooManyValues
      | _ => .error .unknownArgument
    | '-' :: 'h' :: _ => .error .help
    | '-' :: 'V' :: _ => .error .version
    | '-' :: _ :: _ => .error .unknownArgument
    | _ => .error .unknownCommand

end Command

end BlockGraph
