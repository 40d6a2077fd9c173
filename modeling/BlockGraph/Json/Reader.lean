import BlockGraph.Json.Doc
import BlockGraph.Text.Blank
import BlockGraph.Text.Hex
import BlockGraph.Text.Utf8

/-!
# Reading JSON text

A pushdown machine that takes one character at a time. Its stack holds the containers that are open,
each with what it waits for; between two tokens it is there alone, inside a token a `Lexeme` stands
beside it. An error of grammar ends the reading, and the open containers become cut ones.

The machine is a fold (`Reader.read`), so reading one text after another is reading their
concatenation.
-/

namespace BlockGraph

/-- What a character does to a token. -/
inductive Progress (σ α : Type) where
  /-- It belongs to the token. -/
  | more (state : σ)
  /-- It ends the token and belongs to it. -/
  | last (result : α)
  /-- It follows the token. -/
  | after (result : α)
  /-- It breaks the grammar. -/
  | fault

/-! ## Numbers -/

/-- How much of a number has been read. -/
inductive NumberStage where
  | sign
  | zero
  | whole
  | point
  | fraction
  | mark
  | exponentSign
  | exponent
  deriving DecidableEq, Repr

/-- A number as far as it has been read. -/
structure NumberScan where
  stage : NumberStage
  literal : Literal
  deriving DecidableEq, Repr

namespace NumberScan

/-- The value of a decimal digit. -/
def digit? (c : Char) : Option Nat := Text.digitBelow? 10 c

/-- The scan after one more digit of the whole part. -/
def pushWhole (s : NumberScan) (stage : NumberStage) (d : Nat) : NumberScan :=
  ⟨stage, { s.literal with whole := s.literal.whole ++ [d] }⟩

/-- The scan after one more digit of the fraction. -/
def pushFraction (s : NumberScan) (d : Nat) : NumberScan :=
  ⟨.fraction, { s.literal with fraction := some (s.literal.fraction.getD [] ++ [d]) }⟩

def signExponent (s : NumberScan) (stage : NumberStage) (negative : Bool) : NumberScan :=
  ⟨stage, { s.literal with exponent := some (negative, []) }⟩

/-- The scan after one more digit of the exponent. -/
def pushExponent (s : NumberScan) (d : Nat) : NumberScan :=
  let (negative, digits) := s.literal.exponent.getD (false, [])
  ⟨.exponent, { s.literal with exponent := some (negative, digits ++ [d]) }⟩

/-- The number up to here, where one may end. -/
def result? (s : NumberScan) : Option Doc :=
  match s.stage with
  | .zero | .whole | .fraction | .exponent => some (.num s.literal.value)
  | .sign | .point | .mark | .exponentSign => none

/-- The number ends before a character, if it may. -/
def ended (s : NumberScan) : Progress NumberScan Doc :=
  match s.result? with
  | some d => .after d
  | none => .fault

/-- One character of a number, or the first one after it. A zero in front takes no further digit. -/
def step (s : NumberScan) (c : Char) : Progress NumberScan Doc :=
  match s.stage, digit? c with
  | .sign, some d => .more (s.pushWhole (if d = 0 then .zero else .whole) d)
  | .zero, some _ => .fault
  | .whole, some d => .more (s.pushWhole .whole d)
  | .point, some d | .fraction, some d => .more (s.pushFraction d)
  | .mark, some d | .exponentSign, some d | .exponent, some d => .more (s.pushExponent d)
  | stage, none =>
    if c = '.' && (stage = .zero || stage = .whole) then .more ⟨.point, s.literal⟩
    else if (c = 'e' || c = 'E') && (stage = .zero || stage = .whole || stage = .fraction) then
      .more (s.signExponent .mark false)
    else if c = '+' && stage = .mark then .more (s.signExponent .exponentSign false)
    else if c = '-' && stage = .mark then .more (s.signExponent .exponentSign true)
    else s.ended

/-- A number that begins with a character. -/
def start? (c : Char) : Option NumberScan :=
  let empty : Literal := ⟨false, [], none, none⟩
  if c = '-' then some ⟨.sign, { empty with negative := true }⟩
  else match step ⟨.sign, empty⟩ c with
    | .more s => some s
    | _ => none

end NumberScan

/-! ## Strings -/

/-- Where a string stands between its characters. -/
inductive StringStage where
  | plain
  | escape
  /-- Inside a `\u` escape: the digits that are owed, and the value so far. -/
  | unicode (owed value : Nat)
  deriving DecidableEq, Repr

/-- A string as far as it has been read. -/
structure StringScan where
  stage : StringStage
  /-- The characters so far, the last one first. -/
  chars : List Char
  /-- The first half of a surrogate pair, when the second must follow. -/
  half : Option Nat
  /-- Whether the characters so far stand for a text. -/
  sound : Bool
  deriving DecidableEq, Repr

namespace StringScan

/-- The string before its first character. -/
def start : StringScan := ⟨.plain, [], none, true⟩

/-- One more character; it leaves a waiting half of a pair alone. -/
def push (s : StringScan) (c : Char) : StringScan :=
  ⟨.plain, c :: s.chars, none, s.sound && s.half.isNone⟩

/-- The string once it can no longer stand for a text. -/
def spoil (s : StringScan) : StringScan := ⟨.plain, s.chars, none, false⟩

/-- One more code unit from an escape: a surrogate counts only as a half of a pair. -/
def pushUnit (s : StringScan) (unit : Nat) : StringScan :=
  if 0xD800 ≤ unit && unit < 0xDC00 then
    if s.half.isSome then s.spoil else { s with stage := .plain, half := some unit }
  else if 0xDC00 ≤ unit && unit < 0xE000 then
    match s.half with
    | some high =>
      let c := Char.ofNat (0x10000 + (high - 0xD800) * 0x400 + (unit - 0xDC00))
      { s with stage := .plain, chars := c :: s.chars, half := none }
    | none => s.spoil
  else s.push (Char.ofNat unit)

/-- The text of the string, if it stands for one. -/
def text? (s : StringScan) : Option String :=
  if s.sound && s.half.isNone then some (String.ofList s.chars.reverse) else none

/-- What a letter after a backslash stands for. -/
def escaped? : Char → Option Char
  | '"' => some '"'
  | '\\' => some '\\'
  | '/' => some '/'
  | 'b' => some '\x08'
  | 'f' => some '\x0c'
  | 'n' => some '\n'
  | 'r' => some '\r'
  | 't' => some '\t'
  | _ => none

/-- One character of a string; `none` stands for bytes that spell none. Characters below U+0020
have to be escaped. -/
def step (s : StringScan) (c : Option Char) : Progress StringScan (Option String) :=
  match s.stage, c with
  | .plain, none => .more s.spoil
  | .plain, some c =>
    if c = '"' then .last s.text?
    else if c = '\\' then .more { s with stage := .escape }
    else if c.toNat < 0x20 then .fault
    else .more (s.push c)
  | .escape, some 'u' => .more { s with stage := .unicode 4 0 }
  | .escape, some c =>
    match escaped? c with
    | some e => .more (s.push e)
    | none => .fault
  | .unicode owed value, some c =>
    match Text.hexDigit? c with
    | some d =>
      if owed ≤ 1 then .more (s.pushUnit (value * 16 + d))
      else .more { s with stage := .unicode (owed - 1) (value * 16 + d) }
    | none => .fault
  | .escape, none | .unicode _ _, none => .fault

end StringScan

/-! ## The machine -/

/-- What an open array waits for. -/
inductive ItemsWait where
  | itemOrEnd
  | item
  | separator
  deriving DecidableEq, Repr

/-- What an open object waits for. -/
inductive MembersWait where
  | keyOrEnd
  | key
  | colon (key : Option String)
  | value (key : Option String)
  | separator
  deriving DecidableEq, Repr

/-- An open container with its complete parts, the last one first. -/
inductive Frame where
  | items (done : List Doc) (wait : ItemsWait)
  | members (done : List (Option String × Doc)) (wait : MembersWait)

namespace Frame

/-- The container cut off where it stands. -/
def cut : Frame → Doc
  | .items done _ => .arr done.reverse false
  | .members done (.colon key) | .members done (.value key) =>
    .obj ((key, .broken) :: done).reverse false
  | .members done _ => .obj done.reverse false

/-- The container cut off inside a part of it. -/
def cutWith (inner : Doc) : Frame → Doc
  | .items done _ => .arr (inner :: done).reverse false
  | .members done (.colon key) | .members done (.value key) =>
    .obj ((key, inner) :: done).reverse false
  | .members done _ => .obj done.reverse false

end Frame

/-- The token that is being read. -/
inductive Lexeme where
  /-- None: the machine stands between tokens. -/
  | gap
  | word (rest : List Char) (meaning : Doc)
  | number (scan : NumberScan)
  | string (scan : StringScan)

/-- The state of the machine. -/
inductive Reader where
  | reading (stack : List Frame) (lexeme : Lexeme)
  /-- The value is complete; `trailing` tells whether more than blanks followed. -/
  | complete (doc : Doc) (trailing : Bool)
  /-- The grammar was broken. -/
  | halted (doc : Doc)

namespace Reader

/-- The machine before the first character. -/
def start : Reader := .reading [] .gap

/-- The document when the innermost of the open containers has become `inner`. -/
def enclose (inner : Doc) (outer : List Frame) : Doc :=
  outer.foldl (fun doc frame => frame.cutWith doc) inner

/-- The document cut off where the machine stands. -/
def cutAt : List Frame → Doc
  | [] => .broken
  | frame :: outer => enclose frame.cut outer

/-- Ends the reading here. -/
def halt (stack : List Frame) : Reader := .halted (cutAt stack)

/-- Hands a complete value to the innermost open container. -/
def deliver (stack : List Frame) (doc : Doc) : Reader :=
  match stack with
  | [] => .complete doc false
  | .items done .itemOrEnd :: outer | .items done .item :: outer =>
    .reading (.items (doc :: done) .separator :: outer) .gap
  | .members done (.value key) :: outer =>
    .reading (.members ((key, doc) :: done) .separator :: outer) .gap
  | _ => halt stack

/-- Hands a complete string to the innermost open container, which may take it as a key. -/
def deliverString (stack : List Frame) (text : Option String) : Reader :=
  match stack with
  | .members done .keyOrEnd :: outer | .members done .key :: outer =>
    .reading (.members done (.colon text) :: outer) .gap
  | _ => deliver stack (.str text)

/-- The first character of a value. -/
def beginValue (stack : List Frame) (c : Char) : Reader :=
  match c with
  | '[' => .reading (.items [] .itemOrEnd :: stack) .gap
  | '\x7b' => .reading (.members [] .keyOrEnd :: stack) .gap
  | '"' => .reading stack (.string .start)
  | 'n' => .reading stack (.word ['u', 'l', 'l'] .null)
  | 't' => .reading stack (.word ['r', 'u', 'e'] (.bool true))
  | 'f' => .reading stack (.word ['a', 'l', 's', 'e'] (.bool false))
  | c =>
    match NumberScan.start? c with
    | some scan => .reading stack (.number scan)
    | none => halt stack

/-- The blanks that JSON allows between tokens. -/
def isGap (c : Char) : Bool := c = ' ' || c = '\n' || c = '\t' || c = '\r'

/-- A character between two tokens. -/
def stepGap (stack : List Frame) (c : Char) : Reader :=
  if isGap c then .reading stack .gap
  else match stack, c with
    | .items done .itemOrEnd :: outer, ']' | .items done .separator :: outer, ']' =>
      deliver outer (.arr done.reverse true)
    | .items done .separator :: outer, ',' => .reading (.items done .item :: outer) .gap
    | .items _ .separator :: _, _ => halt stack
    | .members done .keyOrEnd :: outer, '\x7d' | .members done .separator :: outer, '\x7d' =>
      deliver outer (.obj done.reverse true)
    | .members done .separator :: outer, ',' => .reading (.members done .key :: outer) .gap
    | .members _ .separator :: _, _ => halt stack
    | .members done (.colon key) :: outer, ':' =>
      .reading (.members done (.value key) :: outer) .gap
    | .members _ (.colon _) :: _, _ => halt stack
    | .members _ .keyOrEnd :: _, c | .members _ .key :: _, c =>
      if c = '"' then .reading stack (.string .start) else halt stack
    | _, c => beginValue stack c

/-- One character; `none` stands for bytes that spell none. -/
def step (r : Reader) (c : Option Char) : Reader :=
  match r, c with
  | .halted doc, _ => .halted doc
  | .complete doc trailing, some c => .complete doc (trailing || !isGap c)
  | .complete doc _, none => .complete doc true
  | .reading stack .gap, some c => stepGap stack c
  | .reading stack (.word (expected :: rest) meaning), some c =>
    if c ≠ expected then halt stack
    else if rest.isEmpty then deliver stack meaning
    else .reading stack (.word rest meaning)
  | .reading stack (.number scan), some c =>
    match scan.step c with
    | .more scan => .reading stack (.number scan)
    | .last doc => deliver stack doc
    | .after doc =>
      match deliver stack doc with
      | .reading stack _ => stepGap stack c
      | .complete doc _ => .complete doc (!isGap c)
      | .halted doc => .halted doc
    | .fault => halt stack
  | .reading stack (.string scan), c =>
    match scan.step c with
    | .more scan => .reading stack (.string scan)
    | .last text | .after text => deliverString stack text
    | .fault => halt stack
  | .reading stack (.number scan), none =>
    match scan.result? with
    | some doc =>
      match deliver stack doc with
      | .reading stack _ => halt stack
      | .complete doc _ => .complete doc true
      | .halted doc => .halted doc
    | none => halt stack
  | .reading stack _, _ => halt stack

/-- The machine after a list of characters. -/
def read (r : Reader) (cs : List (Option Char)) : Reader := cs.foldl step r

theorem read_append (r : Reader) (cs ds : List (Option Char)) :
    r.read (cs ++ ds) = (r.read cs).read ds := List.foldl_append

/-- The document when the text ends here, and whether anything followed it. -/
def finish : Reader → Doc × Bool
  | .complete doc trailing => (doc, trailing)
  | .halted doc => (doc, false)
  | .reading stack (.number scan) =>
    match scan.result? with
    | some doc =>
      match deliver stack doc with
      | .complete doc _ => (doc, false)
      | .reading stack _ => (cutAt stack, false)
      | .halted doc => (doc, false)
    | none => (cutAt stack, false)
  | .reading stack _ => (cutAt stack, false)

end Reader

/-- The document of a text, and whether anything follows it. -/
def Doc.ofText (s : String) : Doc × Bool := (Reader.start.read (s.toList.map some)).finish

/-- The document of bytes that need not spell a text, and whether anything follows it. -/
def Doc.ofBytes (bytes : List UInt8) : Doc × Bool :=
  (Reader.start.read (Text.salvage bytes)).finish

end BlockGraph
