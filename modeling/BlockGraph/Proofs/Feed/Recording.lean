import BlockGraph.Aggregator
import BlockGraph.Proofs.Text.Utf8

/-!
# What a recording delivers

A recording delivers the header of each line that holds one, in the order of the lines, up to the first
line that is no text. Blank lines, comments and malformed lines are as if they were not there.

* `header?`, `Delivers` — the header on a line, and what the lines of a file deliver.
* `lines`, `items_play` — the lines without their ends, from which all that is delivered follows.
* `bytes_induction` — bytes as lines, from the first to the last.
* `delivers_play` — a recording delivers what its lines between newlines deliver.
* `ReplayFeed.subscribe_delivers` — a subscription to a recording, read to its end.
-/

namespace BlockGraph

namespace Recording

/-- The header on a line, unless the line is blank, a comment or malformed. -/
def header? (text : String) : Option Header :=
  let record := Text.trim text
  if record = "" ∨ record.toList.head? = some '#' then none
  else match Header.ofText record with
    | .ok header => some header
    | .error _ => none

/-- What lines deliver: their headers, and a failure in the place of the first one that is no text. -/
inductive Delivers : List (List UInt8) → List FeedItem → Prop where
  | ended : Delivers [] []
  | header {text : String} {header : Header} {lines : List (List UInt8)} {items : List FeedItem}
      (held : header? text = some header) (rest : Delivers lines items) :
      Delivers (Text.encode text :: lines) (.ok header :: items)
  | silent {text : String} {lines : List (List UInt8)} {items : List FeedItem}
      (none : header? text = none) (rest : Delivers lines items) :
      Delivers (Text.encode text :: lines) items
  | broken {line : List UInt8} (lines : List (List UInt8)) (error : Text.Utf8Error)
      (noText : ∀ text, line ≠ Text.encode text) :
      Delivers (line :: lines) [.error (.reading (.encoding error))]

/-- The lines of a file without their ends. -/
def lines (bytes : List UInt8) : List (List UInt8) := (splitLines bytes).map withoutEnd

/-- Whether a line is a text that holds no header. -/
def isSilent (line : List UInt8) : Bool :=
  match Text.decode line with
  | .ok text => (header? text).isNone
  | .error _ => false

/-- What lines without their ends deliver. -/
def delivered : List (List UInt8) → List FeedItem
  | [] => []
  | line :: lines =>
    match Text.decode line with
    | .ok text => (header? text).toList.map .ok ++ delivered lines
    | .error e => [.error (.reading (.encoding e))]

/-! ## From the events to the lines -/

theorem items_append (events later : List PlayEvent) :
    items (events ++ later) = items events ++ items later := List.filterMap_append

theorem items_readLine (number : Nat) (text : String) :
    items (readLine number text) = (header? text).toList.map .ok := by
  simp only [readLine, header?, Bool.or_eq_true, decide_eq_true_eq, beq_iff_eq]
  split
  next => rfl
  next => cases Header.ofText (Text.trim text) <;> rfl

theorem items_playLines (passed : Nat) (ls : List (List UInt8)) :
    items (playLines passed ls) = delivered (ls.map withoutEnd) := by
  induction ls generalizing passed with
  | nil => rfl
  | cons line ls ih =>
    rw [playLines, List.map_cons, delivered]
    cases Text.decode (withoutEnd line) with
    | ok text =>
      simp only
      rw [items_append, items_readLine, ih]
    | error e => rfl

theorem items_play (bytes : List UInt8) : items (play bytes) = delivered (lines bytes) :=
  items_playLines 0 _

theorem delivered_append {front : List (List UInt8)} (texts : ∀ line ∈ front, ∃ text, line = Text.encode text)
    (back : List (List UInt8)) : delivered (front ++ back) = delivered front ++ delivered back := by
  induction front with
  | nil => rfl
  | cons line front ih =>
    obtain ⟨text, spelled⟩ := texts line List.mem_cons_self
    rw [List.cons_append, delivered, delivered, Text.decode_iff.2 spelled]
    simp only [ih fun later member => texts later (List.mem_cons_of_mem line member), List.append_assoc]

/-- Lines without a header can be left out. -/
theorem delivered_filter (ls : List (List UInt8)) :
    delivered (ls.filter fun line => !isSilent line) = delivered ls := by
  induction ls with
  | nil => rfl
  | cons line ls ih =>
    rw [List.filter_cons, isSilent, delivered]
    cases read : Text.decode line with
    | error e => simp [delivered, read]
    | ok text =>
      cases held : header? text with
      | some header => simp [delivered, read, held, ih]
      | none => simp [held, ih]

/-! ## From the bytes to the lines -/

/-- Bytes are one line without an end, or a line with its end before other bytes. -/
theorem bytes_induction {motive : List UInt8 → Prop} (last : ∀ line, 10 ∉ line → motive line)
    (ended : ∀ line rest, 10 ∉ line → motive rest → motive (line ++ 10 :: rest)) (bytes : List UInt8) :
    motive bytes := by
  induction size : bytes.length using Nat.strongRecOn generalizing bytes with
  | ind length ih =>
    by_cases member : 10 ∈ bytes
    · obtain ⟨line, rest, rfl, free⟩ := List.eq_append_cons_of_mem member
      refine ended line rest free (ih rest.length ?_ rest rfl)
      rw [← size, List.length_append, List.length_cons]
      omega
    · exact last bytes member

theorem splitLines_cons {b : UInt8} (other : b ≠ 10) (bytes : List UInt8) :
    splitLines (b :: bytes) = match splitLines bytes with
      | line :: rest => (b :: line) :: rest
      | [] => [[b]] := by
  rw [splitLines, List.foldr_cons, ← splitLines]
  cases splitLines bytes <;> simp

theorem splitLines_single {line : List UInt8} (free : 10 ∉ line) :
    splitLines line = if line = [] then [] else [line] := by
  induction line with
  | nil => rfl
  | cons b line ih =>
    have other : b ≠ 10 := fun same => free (by simp [same])
    rw [splitLines_cons other, ih fun member => free (List.mem_cons_of_mem b member)]
    cases line <;> rfl

theorem splitLines_ended {line : List UInt8} (free : 10 ∉ line) (rest : List UInt8) :
    splitLines (line ++ 10 :: rest) = (line ++ [10]) :: splitLines rest := by
  induction line with
  | nil => rfl
  | cons b line ih =>
    have other : b ≠ 10 := fun same => free (by simp [same])
    rw [List.cons_append, splitLines_cons other, ih fun member => free (List.mem_cons_of_mem b member)]
    rfl

theorem withoutEnd_single {line : List UInt8} (free : 10 ∉ line) : withoutEnd line = line := by
  unfold withoutEnd
  split
  next bytes same => exact absurd (List.mem_reverse.1 (same ▸ List.mem_cons_self)) free
  next bytes same => exact absurd (List.mem_reverse.1 (same ▸ List.mem_cons_self)) free
  next => rfl

/-- The end of a line is a newline, with the carriage return before it if there is one. -/
theorem withoutEnd_ended (line : List UInt8) :
    withoutEnd (line ++ [10]) = line ∨ line = withoutEnd (line ++ [10]) ++ [13] := by
  have reversed : (line ++ [10]).reverse = 10 :: line.reverse := by simp
  rw [withoutEnd, reversed]
  cases back : line.reverse with
  | nil => exact .inl (by simp_all)
  | cons b bytes =>
    have shape : line = bytes.reverse ++ [b] := by
      rw [← List.reverse_reverse line, back, List.reverse_cons]
    by_cases return_ : b = 13
    · subst return_
      exact .inr shape
    · refine .inl ?_
      split
      next => simp_all
      next bytes _ same =>
        obtain ⟨_, rfl⟩ := List.cons.inj same
        rw [shape, List.reverse_cons]
      next other => exact absurd rfl (other _)

theorem lines_single {line : List UInt8} (free : 10 ∉ line) :
    lines line = if line = [] then [] else [line] := by
  rw [lines, splitLines_single free]
  split
  · rfl
  · rw [List.map_singleton, withoutEnd_single free]

theorem lines_ended {line : List UInt8} (free : 10 ∉ line) (rest : List UInt8) :
    lines (line ++ 10 :: rest) = withoutEnd (line ++ [10]) :: lines rest := by
  rw [lines, splitLines_ended free]
  rfl

/-! ## Carriage returns -/

theorem trimChars_return (cs : List Char) : Text.trimChars (cs ++ ['\r']) = Text.trimChars cs := by
  have blank : Text.isBlank '\r' = true := by decide
  rw [Text.trimChars, Text.trimChars, List.dropWhile_append]
  split
  next nothing =>
    rw [List.isEmpty_iff.1 nothing, List.dropWhile_cons_of_pos blank]
    rfl
  next => simp [blank]

theorem header?_return (text : String) : header? (text ++ "\r") = header? text := by
  have trimmed : Text.trim (text ++ "\r") = Text.trim text := by
    rw [Text.trim, Text.trim, String.toList_append]
    exact congrArg String.ofList (trimChars_return text.toList)
  rw [header?, header?, trimmed]

theorem encode_return (text : String) : Text.encode (text ++ "\r") = Text.encode text ++ [13] := by
  rw [Text.encode_append]
  exact congrArg (Text.encode text ++ ·) (Text.encode_eq _)

/-- With its end or without it, a line holds the same header. -/
theorem encode_of_ended {line : List UInt8} {text : String}
    (spelled : withoutEnd (line ++ [10]) = Text.encode text) :
    ∃ whole, line = Text.encode whole ∧ header? whole = header? text := by
  rcases withoutEnd_ended line with same | returned
  · exact ⟨text, same.symm.trans spelled, rfl⟩
  · exact ⟨text ++ "\r", by rw [returned, spelled, encode_return], header?_return text⟩

theorem ended_of_encode {line : List UInt8} {whole : String} (spelled : line = Text.encode whole) :
    ∃ text, withoutEnd (line ++ [10]) = Text.encode text := by
  rcases withoutEnd_ended line with same | returned
  · exact ⟨whole, same.trans spelled⟩
  · obtain ⟨text, _, before, _⟩ := Text.encode_split (b := 13) (by decide) (spelled.symm.trans returned)
    exact ⟨text, before⟩

/-! ## What is delivered -/

/-- One line delivers its header, nothing, or a failure. -/
theorem Delivers.text {text : String} {lines : List (List UInt8)} {items : List FeedItem}
    (rest : Delivers lines items) :
    Delivers (Text.encode text :: lines) ((header? text).toList.map .ok ++ items) := by
  cases held : header? text with
  | some header => exact .header held rest
  | none => exact .silent held rest

theorem delivered_single {line : List UInt8} (free : 10 ∉ line) :
    Delivers [line] (delivered (lines line)) := by
  have empty : Text.encode "" = [] := Text.encode_eq ""
  rw [lines_single free]
  split
  next nothing =>
    have blank : header? "" = none := by simp [header?, Text.trim, Text.trimChars]
    rw [nothing, ← empty]
    exact .silent blank .ended
  next =>
    rw [delivered]
    cases read : Text.decode line with
    | ok text =>
      rw [Text.decode_iff.1 read]
      exact .text .ended
    | error e =>
      refine .broken [] e fun text spelled => ?_
      rw [Text.decode_iff.2 spelled] at read
      cases read

theorem delivered_ended {line rest : List UInt8} (free : 10 ∉ line) {pieces : List (List UInt8)}
    (behind : Delivers pieces (delivered (lines rest))) :
    Delivers (line :: pieces) (delivered (lines (line ++ 10 :: rest))) := by
  rw [lines_ended free, delivered]
  cases read : Text.decode (withoutEnd (line ++ [10])) with
  | ok text =>
    obtain ⟨whole, rfl, same⟩ := encode_of_ended (Text.decode_iff.1 read)
    simp only [← same]
    exact .text behind
  | error e =>
    refine .broken pieces e fun whole spelled => ?_
    obtain ⟨text, spelled⟩ := ended_of_encode spelled
    rw [Text.decode_iff.2 spelled] at read
    cases read

/-- A recording delivers what its lines between newlines deliver. -/
theorem delivers_play (bytes : List UInt8) : Delivers (bytes.splitOn 10) (items (play bytes)) := by
  rw [items_play]
  induction bytes using bytes_induction with
  | last line free =>
    rw [List.splitOn_eq_singleton free]
    exact delivered_single free
  | ended line rest free ih =>
    rw [List.splitOn_append_cons_self_of_not_mem free]
    exact delivered_ended free ih

/-! ## Parts of a recording -/

theorem lines_texts {bytes : List UInt8} {text : String} (spelled : bytes = Text.encode text) :
    ∀ line ∈ lines bytes, ∃ part, line = Text.encode part := by
  induction bytes using bytes_induction generalizing text with
  | last line free =>
    rw [lines_single free]
    intro part member
    split at member
    · cases member
    · exact ⟨text, (List.mem_singleton.1 member).trans spelled⟩
  | ended line rest free ih =>
    obtain ⟨before, after, front, back⟩ := Text.encode_split (b := 10) (by decide) spelled.symm
    rw [lines_ended free]
    intro part member
    rcases List.mem_cons.1 member with rfl | later
    · exact ended_of_encode front
    · exact ih back part later

theorem lines_append (front back : List UInt8) :
    lines (front ++ 10 :: back) = lines (front ++ [10]) ++ lines back := by
  induction front using bytes_induction with
  | last line free =>
    have none : lines [] = [] := rfl
    rw [lines_ended free, lines_ended free, none]
    rfl
  | ended line rest free ih =>
    rw [List.append_assoc, List.append_assoc, List.cons_append, List.cons_append, lines_ended free,
      lines_ended free, ih]
    rfl

/-- A text that ends with a line is played, and then what comes behind it. -/
theorem items_play_append {front : List UInt8} {text : String} (spelled : front = Text.encode text)
    (closed : front.getLast? = some 10) (back : List UInt8) :
    items (play (front ++ back)) = items (play front) ++ items (play back) := by
  obtain ⟨line, rfl⟩ := List.getLast?_eq_some_iff.1 closed
  rw [items_play, items_play, items_play, List.append_assoc, List.singleton_append, lines_append,
    delivered_append (lines_texts spelled)]

theorem isSilent_iff {line : List UInt8} :
    isSilent line = true ↔ ∃ text, line = Text.encode text ∧ header? text = none := by
  unfold isSilent
  constructor
  · intro silent
    split at silent
    next text read => exact ⟨text, Text.decode_iff.1 read, Option.isNone_iff_eq_none.1 silent⟩
    next => cases silent
  · rintro ⟨text, spelled, none⟩
    rw [Text.decode_iff.2 spelled]
    exact Option.isNone_iff_eq_none.2 none

/-- Lines without a header change nothing, wherever they are. -/
theorem items_play_silent {bytes other : List UInt8}
    (same : (lines bytes).filter (fun line => !isSilent line) =
      (lines other).filter fun line => !isSilent line) : items (play bytes) = items (play other) := by
  rw [items_play, items_play, ← delivered_filter, same, delivered_filter]

end Recording

/-! ## Subscriptions -/

namespace Lines

/-- The lines after so many items have been taken from one. -/
def afterTaking (ls : Lines) (n : Nat) : Nat → Lines
  | 0 => ls
  | k + 1 => (ls.take n).1.afterTaking n k

/-- A line to which nothing is added yields what is on it, and then its end. -/
theorem take_afterTaking {ls : Lines} {n : Nat} {queue : List FeedItem}
    (found : ls.lines.get? n = some ⟨queue, false⟩) (k : Nat) :
    ((ls.afterTaking n k).take n).2 = match queue[k]? with
      | some item => .item item
      | none => .ended := by
  induction k generalizing ls queue with
  | zero =>
    rw [afterTaking, take, found]
    cases queue <;> rfl
  | succ k ih =>
    rw [afterTaking]
    cases queue with
    | nil =>
      have stays : (ls.take n).1 = ls := by rw [take, found]
      rw [stays]
      exact ih found
    | cons item queue =>
      have rest : (ls.take n).1.lines.get? n = some ⟨queue, false⟩ := by
        rw [take, found]
        exact SortedMap.get?_insert_self ..
      exact ih rest

end Lines

namespace ReplayFeed

/-- A subscription to a recording yields what the lines of the file deliver, item by item, and then
ends. A front part that is a text and ends with a line is played before the rest, and lines that hold no
header do not count. -/
theorem subscribe_delivers {f : ReplayFeed} {source : String} {bytes : List UInt8}
    (opens : f.openFile (f.pathFor source) = .ok (.ok bytes)) (earlier : Lines) :
    let items := Recording.items (Recording.play bytes)
    (∃ lines n, (Feed.replay f earlier).subscribe source = .ok (.replay f lines, n) ∧
      ∀ k, ((lines.afterTaking n k).take n).2 = match items[k]? with
        | some item => .item item
        | none => .ended) ∧
      Recording.Delivers (bytes.splitOn 10) items ∧
      (∀ front back, bytes = front ++ back → (∃ text, front = Text.encode text) →
        front.getLast? = some 10 →
          items = Recording.items (Recording.play front) ++ Recording.items (Recording.play back)) ∧
      ∀ other, (Recording.lines other).filter (fun line => !Recording.isSilent line) =
          (Recording.lines bytes).filter (fun line => !Recording.isSilent line) →
        Recording.items (Recording.play other) = items := by
  intro items
  have events : f.subscribe source = .ok (Recording.play bytes) := by
    rw [subscribe, opens]
    rfl
  refine ⟨⟨(earlier.add ⟨items, false⟩).1, earlier.next, ?_,
    Lines.take_afterTaking (SortedMap.get?_insert_self ..)⟩, Recording.delivers_play bytes, ?_,
    fun other same => Recording.items_play_silent same⟩
  · rw [Feed.subscribe, events]
    rfl
  · rintro front back rfl ⟨text, spelled⟩ closed
    exact Recording.items_play_append spelled closed back

/-- A file with a comment, a header, a malformed line and a line that is no text. -/
theorem subscribe_delivers_broken :
    let ascii (text : String) : List UInt8 := text.toList.map fun c => UInt8.ofNat c.toNat
    let record := "\x7b\"number\": 1, \"hash\": \"0x1\", \"parentHash\": \"0x0\"\x7d"
    let bytes := ascii ("# one\n" ++ record ++ "\r\n\n\x7b\n") ++ [0xC3, 0x28]
    let f : ReplayFeed := ⟨none, fun _ => .ok (.ok bytes)⟩
    f.openFile (f.pathFor "a") = .ok (.ok bytes) ∧
      (Recording.items (Recording.play bytes)).map (·.toOption) = [some (.new 1 "0x1" "0x0"), none] ∧
      ∃ lines n, (Feed.replay f .empty).subscribe "a" = .ok (.replay f lines, n) ∧
        ∀ k, ((lines.afterTaking n k).take n).2 =
          match (Recording.items (Recording.play bytes))[k]? with
          | some item => .item item
          | none => .ended := by
  intro ascii record bytes f
  have opens : f.openFile (f.pathFor "a") = .ok (.ok bytes) := rfl
  exact ⟨opens, by decide +kernel, (subscribe_delivers opens .empty).1⟩

end ReplayFeed

end BlockGraph
