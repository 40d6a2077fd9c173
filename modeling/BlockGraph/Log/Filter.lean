import BlockGraph.Log.Line
import BlockGraph.Text.Pattern.Compile

/-!
# Log filters

Which lines of the log are written. A filter is written as directives between commas, each a
threshold for the lines of some part of the program, and after a slash a pattern that has to occur
in a line. Of all directives for a line the one with the longest path decides.
-/

namespace BlockGraph

/-- How much a line has to matter to be written. -/
inductive Threshold where
  | off
  | error
  | warn
  | info
  | debug
  | trace
  deriving DecidableEq, Repr

/-- Whether a threshold lets a severity through. -/
def Severity.reaches : Severity → Threshold → Bool
  | .warn, t => t ≠ .off && t ≠ .error
  | .info, t => t = .info || t = .debug || t = .trace
  | .debug, t => t = .debug || t = .trace

namespace Threshold

/-- The threshold of a name in any case. -/
def named? (name : String) : Option Threshold :=
  match String.ofList (name.toList.map Char.toLower) with
  | "off" => some .off
  | "error" => some .error
  | "warn" => some .warn
  | "info" => some .info
  | "debug" => some .debug
  | "trace" => some .trace
  | _ => none

/-- The threshold for all parts that a filter's text asks for as a whole: that of its name, where
`warning` is a name too, and else `info`. -/
def ofLevel (level : String) : Threshold :=
  if String.ofList (level.toList.map Char.toLower) = "warning" then .warn
  else (named? level).getD .info

end Threshold

/-- A threshold for the parts whose path begins with a text, or for all parts. -/
structure Directive where
  path : Option String
  threshold : Threshold
  deriving DecidableEq, Repr

namespace Directive

/-- Whether the directive is about a part. -/
def covers (d : Directive) (origin : Origin) : Bool := d.path.all (·.isPrefixOf origin.path)

/-- How closely the directive names its parts. -/
def weight (d : Directive) : Nat := (d.path.map String.utf8ByteSize).getD 0

/-- The one of two directives that decides: the closer one, of equally close ones the later. -/
def closer (best : Option Directive) (d : Directive) : Option Directive :=
  if best.all (·.weight ≤ d.weight) then some d else best

end Directive

/-- What is wrong with a filter's text. -/
inductive FilterFault where
  | manySlashes (spec : String)
  | directive (text : String)
  | pattern (text : String) (error : Text.PatternError)
  deriving DecidableEq, Repr

def FilterFault.message : FilterFault → String
  | .manySlashes spec => s!"invalid logging spec '{spec}' (too many '/'s)"
  | .directive text => s!"invalid logging spec '{text}'"
  | .pattern text error => s!"invalid regex filter - {error.message text}"

/-- A filter of log lines. -/
structure LogFilter where
  directives : List Directive
  pattern : Option Text.Pattern
  deriving DecidableEq, Repr

namespace LogFilter

/-- A filter without directives. -/
def empty : LogFilter := ⟨[], none⟩

/-- Puts a directive in, in the place of one for the same path. -/
def insert (f : LogFilter) (d : Directive) : LogFilter :=
  if f.directives.any (·.path = d.path) then
    { f with directives := f.directives.map fun e => if e.path = d.path then d else e }
  else { f with directives := f.directives ++ [d] }

/-- The directive that decides about a part. -/
def deciding? (f : LogFilter) (origin : Origin) : Option Directive :=
  (f.directives.filter (·.covers origin)).foldl Directive.closer none

/-- Whether the filter lets a line through. -/
def passes (f : LogFilter) (l : LogLine) : Bool :=
  (f.deciding? l.origin).any (l.severity.reaches ·.threshold) &&
    f.pattern.all (·.occursIn l.text)

/-! ## Reading a filter -/

/-- Reads one directive: a threshold, the path of a part, or both. -/
def readDirective (text : String) : Except FilterFault Directive :=
  match text.splitOn "=" with
  | [word] =>
    match Threshold.named? word with
    | some t => .ok ⟨none, t⟩
    | none => .ok ⟨some word, .trace⟩
  | [path, word] =>
    let word := Text.trim word
    if word = "" then .ok ⟨some path, .trace⟩
    else match Threshold.named? word with
      | some t => .ok ⟨some path, t⟩
      | none => .error (.directive word)
  | _ => .error (.directive text)

/-- Puts in the directives of a list of texts, and adds the faults of those that are none. -/
def insertAll (f : LogFilter) (faults : List FilterFault) : List String →
    LogFilter × List FilterFault
  | [] => (f, faults)
  | text :: texts =>
    match readDirective text with
    | .ok d => (f.insert d).insertAll faults texts
    | .error e => f.insertAll (faults ++ [e]) texts

/-- The directives of a list between commas. -/
def ofList (list : String) : LogFilter × List FilterFault :=
  empty.insertAll [] (((list.splitOn ",").map Text.trim).filter (· ≠ ""))

/-- The filter of a text, and what is wrong with the text. -/
def ofSpec (spec : String) : LogFilter × List FilterFault :=
  match spec.splitOn "/" with
  | [list] => ofList list
  | [list, text] =>
    let (f, faults) := ofList list
    match Text.Pattern.ofText text with
    | .ok p => ({ f with pattern := some p }, faults)
    | .error e => (f, faults ++ [.pattern text e])
  | _ => (empty, [.manySlashes spec])

/-- The filter that a level asks for: the one that it spells, and over it the threshold for all
parts that it names as a whole. -/
def ofLevel (level : String) : LogFilter × List FilterFault :=
  let (f, faults) := ofSpec level
  (f.insert ⟨none, .ofLevel level⟩, faults)

end LogFilter

end BlockGraph
