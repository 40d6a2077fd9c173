/-!
# Faults of patterns

Why a text is no pattern. A fault that shows in some stretch of the text is told together with the
text, its lines numbered when it has several, and with a mark under each character that shows it.
-/

namespace BlockGraph.Text

/-- A place in a text: the number of its line and of its column in the line, both from one on. -/
structure Mark where
  line : Nat
  column : Nat
  deriving DecidableEq, Repr

namespace Mark

/-- The beginning of a text. -/
def start : Mark := ⟨1, 1⟩

/-- The place behind a character. -/
def past (m : Mark) (c : Char) : Mark :=
  if c = '\n' then ⟨m.line + 1, 1⟩ else ⟨m.line, m.column + 1⟩

/-- Whether a place comes before another one or is the same. -/
def le (a b : Mark) : Bool := a.line < b.line || a.line = b.line && a.column ≤ b.column

end Mark

/-- A stretch of a text, from one place up to another. -/
structure Stretch where
  start : Mark
  stop : Mark
  deriving DecidableEq, Repr

namespace Stretch

/-- The stretch without characters at a place. -/
def point (m : Mark) : Stretch := ⟨m, m⟩

/-- The stretch of one character at a place. -/
def ofChar (m : Mark) (c : Char) : Stretch := ⟨m, m.past c⟩

def isInLine (s : Stretch) (line : Nat) : Bool := s.start.line = line && s.stop.line = line

/-- Whether the stretch ends in a later line. -/
def isLong (s : Stretch) : Bool := s.start.line ≠ s.stop.line

end Stretch

/-- What is wrong with the text of a pattern. -/
inductive PatternFault where
  | classEscape
  | classRangeOrder
  | classRangeBound
  | unclosedClass
  | numberTooLarge
  | emptyHex
  | noScalar
  | noHexDigit
  | escapeEnd
  | unknownEscape
  | danglingNegation
  | flagTwice
  | negationTwice
  | flagEnd
  | unknownFlag
  | emptyName
  | badName
  | nameTwice
  | unclosedName
  | unclosedGroup
  | unopenedGroup
  | tooDeep
  | countOrder
  | countDigits
  | unclosedCount
  | nothingToRepeat
  | unclosedBoundary
  | unknownBoundary
  | openBoundary
  | propertyLetter
  | backreference
  | lookAround
  /-- What is asked for goes by all characters where only bytes are allowed. -/
  | wantsUnicode
  /-- The pattern could be met by bytes that spell no text. -/
  | noUtf8
  | unknownProperty
  | unknownPropertyValue
  | unknownClass
  | unknownCase
  deriving DecidableEq, Repr

/-- The greatest depth to which the parts of a pattern may be nested. -/
def maxNesting : Nat := 250

def PatternFault.message : PatternFault → String
  | .classEscape => "invalid escape sequence found in character class"
  | .classRangeOrder => "invalid character class range, the start must be <= the end"
  | .classRangeBound => "invalid range boundary, must be a literal"
  | .unclosedClass => "unclosed character class"
  | .numberTooLarge => "decimal literal invalid"
  | .emptyHex => "hexadecimal literal empty"
  | .noScalar => "hexadecimal literal is not a Unicode scalar value"
  | .noHexDigit => "invalid hexadecimal digit"
  | .escapeEnd => "incomplete escape sequence, reached end of pattern prematurely"
  | .unknownEscape => "unrecognized escape sequence"
  | .danglingNegation => "dangling flag negation operator"
  | .flagTwice => "duplicate flag"
  | .negationTwice => "flag negation operator repeated"
  | .flagEnd => "expected flag but got end of regex"
  | .unknownFlag => "unrecognized flag"
  | .emptyName => "empty capture group name"
  | .badName => "invalid capture group character"
  | .nameTwice => "duplicate capture group name"
  | .unclosedName => "unclosed capture group name"
  | .unclosedGroup => "unclosed group"
  | .unopenedGroup => "unopened group"
  | .tooDeep =>
    s!"exceed the maximum number of nested parentheses/brackets ({maxNesting})"
  | .countOrder => "invalid repetition count range, the start must be <= the end"
  | .countDigits => "repetition quantifier expects a valid decimal"
  | .unclosedCount => "unclosed counted repetition"
  | .nothingToRepeat => "repetition operator missing expression"
  | .unclosedBoundary =>
    "special word boundary assertion is either unclosed or contains an invalid character"
  | .unknownBoundary =>
    "unrecognized special word boundary assertion, valid choices are: start, end, start-half or " ++
      "end-half"
  | .openBoundary =>
    "found either the beginning of a special word boundary or a bounded repetition on a \\b " ++
      "with an opening brace, but no closing brace"
  | .propertyLetter => "invalid Unicode character class"
  | .backreference => "backreferences are not supported"
  | .lookAround => "look-around, including look-ahead and look-behind, is not supported"
  | .wantsUnicode => "Unicode not allowed here"
  | .noUtf8 => "pattern can match invalid UTF-8"
  | .unknownProperty => "Unicode property not found"
  | .unknownPropertyValue => "Unicode property value not found"
  | .unknownClass =>
    "Unicode-aware Perl class not found (make sure the unicode-perl feature is enabled)"
  | .unknownCase =>
    "Unicode-aware case insensitivity matching is not available " ++
      "(make sure the unicode-case feature is enabled)"

/-- Why a text is no pattern. -/
inductive PatternError where
  /-- The fault shows in some stretches of the text. -/
  | malformed (fault : PatternFault) (stretches : List Stretch)
  /-- The pattern would take too much memory. -/
  | tooLarge
  /-- The pattern asks where words of any script begin or end. -/
  | foreignWords
  deriving DecidableEq, Repr

/-- The number of bytes that a pattern may take. -/
def maxPatternSize : Nat := 10485760

namespace PatternError

/-! ## The text with its marks -/

/-- The lines of a text; a carriage return in front of a line break belongs to it, and after the
last break no line begins. -/
def lines : List Char → List (List Char)
  | [] => []
  | '\n' :: cs | '\r' :: '\n' :: cs => [] :: lines cs
  | c :: cs =>
    match lines cs with
    | [] => [[c]]
    | line :: more => (c :: line) :: more

/-- Marks under a stretch of a line, behind the marks that are there. -/
def mark (marks : List Char) (s : Stretch) : List Char :=
  marks ++ List.replicate (s.start.column - 1 - marks.length) ' ' ++
    List.replicate (max 1 (s.stop.column - s.start.column)) '^'

/-- A line of the text behind its number, which takes so many places, and the marks under it. -/
def drawLine (width number : Nat) (line : List Char) (stretches : List Stretch) : String :=
  let number := toString number
  let margin :=
    if width = 0 then "    "
    else String.ofList (List.replicate (width - number.length) ' ') ++ number ++ ": "
  let marks :=
    if stretches.isEmpty then ""
    else String.ofList (List.replicate margin.length ' ' ++ stretches.foldl mark []) ++ "\n"
  margin ++ String.ofList line ++ "\n" ++ marks

/-- The text with marks under the stretches that lie in one line each. -/
def draw (cs : List Char) (stretches : List Stretch) : String :=
  let lines := lines cs
  let count := lines.length + (if cs.getLast? = some '\n' then 1 else 0)
  let width := if count ≤ 1 then 0 else (toString count).length
  String.join ((lines.zipIdx 1).map fun (line, number) =>
    drawLine width number line (stretches.filter (·.isInLine number)))

/-- The places of a stretch that goes over several lines. -/
def describe (s : Stretch) : String :=
  s!"on line {s.start.line} (column {s.start.column}) " ++
    s!"through line {s.stop.line} (column {s.stop.column - 1})\n"

/-- The line above and below a text of several lines. -/
def divider : String := String.ofList (List.replicate 79 '~') ++ "\n"

/-- The wording of the error, for a text: the text with marks under the fault. -/
def message (text : String) : PatternError → String
  | .malformed fault stretches =>
    let stretches := stretches.mergeSort fun a b => a.start.le b.start
    let drawing := draw text.toList stretches
    let shown :=
      if text.toList.contains '\n' then
        divider ++ drawing ++ divider ++ String.join ((stretches.filter (·.isLong)).map describe)
      else drawing
    "regex parse error:\n" ++ shown ++ "error: " ++ fault.message
  | .tooLarge => s!"Compiled regex exceeds size limit of {maxPatternSize} bytes."
  | .foreignWords => "error building NFA"

end PatternError

end BlockGraph.Text
