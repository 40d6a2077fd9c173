import BlockGraph.Proofs.Engine.Growth
import BlockGraph.Proofs.Engine.Journal
import BlockGraph.Proofs.Wire.Event

/-!
# Runs on the wire

What an engine tells is read back from its text, line by line. The blocks that it tells of carry the
digests of the headers that it was fed with and groups of its seal table, so this comes down to the
headers and the table: a header that was accepted keeps its digest on the wire if its numbers are
integers of 64 bits, and no table assigns a reserved name.

* `SealTable.Made`, `Made.classifySeal` — the tables of the interface, and the groups that they assign.
* `Header.Plain` — the headers that a run is fed with.
* `appliedAll_added` — where the blocks of a journal come from.
* `DiffEvent.ofLines` — reading the text of events.
* `reads_back` — headers and whole runs are read back.
-/

namespace BlockGraph

/-! ## Tables -/

namespace SealTable

/-- The tables of the interface. -/
inductive Made : SealTable → Prop
  | standard : Made standard
  | empty : Made empty
  | ofEntries {entries : List (String × String)} {table : SealTable}
      (built : ofEntries entries = .ok table) : Made table

/-- The groups of a table are found again by their names. -/
def Assigns (table : SealTable) : Prop :=
  ∀ byte name, table.groups.get? byte = some name → (Group.algorithm name).Assignable

variable {table : SealTable}

theorem empty_assigns : empty.Assigns := fun _ _ found => nomatch found

theorem addEntry_assigns (assigns : table.Assigns) {entry : String × String} {next : SealTable}
    (added : table.addEntry entry = .ok next) : next.Assigns := by
  obtain ⟨key, group⟩ := entry
  simp only [addEntry] at added
  cases byte : keyByte? key with
  | none => simp [byte] at added
  | some byte' =>
    simp only [byte] at added
    split at added
    · cases added
    next free =>
      obtain rfl := Except.ok.inj added
      simp only [Bool.or_eq_true, decide_eq_true_eq, not_or] at free
      obtain ⟨⟨_, notGenesis⟩, notUnknown⟩ := free
      intro other name found
      rw [SortedMap.get?_insert] at found
      split at found
      · obtain rfl := Option.some.inj found
        simp [Group.Assignable, Group.name, Group.ofName, notGenesis, notUnknown]
      · exact assigns other name found

theorem foldlM_assigns {entries : List (String × String)} (assigns : table.Assigns) {last : SealTable}
    (built : entries.foldlM addEntry table = .ok last) : last.Assigns := by
  induction entries generalizing table with
  | nil => exact Except.ok.inj built ▸ assigns
  | cons entry entries ih =>
    cases added : table.addEntry entry with
    | error => simp [List.foldlM_cons, added, bind, Except.bind] at built
    | ok next =>
      simp only [List.foldlM_cons, added, bind, Except.bind] at built
      exact ih (addEntry_assigns assigns added) built

theorem standard_built : ofEntries [("00", "md5"), ("01", "sha3"), ("02", "keccak")] = .ok standard := rfl

theorem Made.assigns (made : table.Made) : table.Assigns := by
  cases made with
  | standard => exact foldlM_assigns empty_assigns standard_built
  | empty => exact empty_assigns
  | ofEntries built => exact foldlM_assigns empty_assigns built

theorem Made.classifySeal (made : table.Made) (height : UInt64) (payload : Option String) :
    (table.classifySeal height payload).Assignable := by
  unfold SealTable.classifySeal
  split
  · rfl
  · split
    next name found =>
      obtain ⟨byte, _, assigned⟩ := Option.bind_eq_some_iff.1 found
      exact made.assigns byte name assigned
    next => rfl

theorem Made.classify (made : table.Made) (header : Header) : (table.classify header).Assignable :=
  made.classifySeal header.number _

end SealTable

/-! ## Headers -/

/-- A header that was accepted from some text, with integers of 64 bits for numbers in its digest. -/
structure Header.Plain (h : Header) : Prop where
  accepted : ∃ text, ofText text = .ok h
  words : h.inWords = true

theorem Header.ofText_eq_ok {text : String} {h : Header} (read : (ofText text).toOption = some h) :
    ofText text = .ok h := by
  cases found : ofText text with
  | error => simp [found, Except.toOption] at read
  | ok g => simpa [found, Except.toOption] using read

/-- What is needed of the block of a header so that it is read back. -/
theorem Header.Plain.portable {h : Header} (plain : h.Plain) {table : SealTable} (made : table.Made)
    {b : Block} (digest : b.sealBytes = h.digest.logs) (group : b.group = table.classify h)
    (arrival : b.firstSeenAt ≤ Text.maxWord) : b.Portable := by
  obtain ⟨⟨text, accepted⟩, words⟩ := plain
  exact {
    group := group ▸ made.classify h
    arrival
    kept := digest ▸ (Header.accepted_of_ofText accepted).kept
    words := by rw [digest]; exact words }

/-! ## Blocks of a journal -/

namespace Engine

open BlockStore

variable {e : Engine} {source : String} {header : Header} {b : Block}

theorem applied_table (valid : e.store.Valid) : (e.applied source header).store.table = e.store.table := by
  have plain := congrArg BlockStore.table (@applied_plain e source header valid)
  exact plain.trans (inserted_kept e.store.plain ⟨source, header⟩).1

/-- A cycle tells of one new block at most, that of its header. -/
theorem announced_added (valid : e.store.Valid) (told : .nodeAdded b ∈ e.announced source header) :
    b = e.settledBlock source header ∧
      (e.applied source header).store.blocks.length = e.store.blocks.length + 1 := by
  cases blank : header.isBlank with
  | true =>
    rw [announced, apply_blank blank] at told
    cases told
  | false =>
    cases found : e.store.byHash? header.hash with
    | some known =>
      rw [announced, apply_known blank found] at told
      simp only [mergedEvents] at told
      split at told
      · cases told
      · cases List.mem_singleton.1 told
    | none =>
      have fresh := valid.byHash?_eq_none.1 found
      rw [announced, apply_new valid fresh blank] at told
      rw [applied_new valid blank fresh]
      refine ⟨?_, by simp [settledStore]⟩
      rcases List.mem_cons.1 told with same | rest
      · exact DiffEvent.nodeAdded.inj same
      · simp at rest

/-- A block that is told as new carries the digest of a header, the group that the table gives this
header, and the number of the blocks before it. -/
theorem appliedAll_added (reachable : e.store.Reachable) (as : List Announcement)
    (told : .nodeAdded b ∈ (e.appliedAll as).journal) :
    .nodeAdded b ∈ e.journal ∨ ∃ a ∈ as, b.sealBytes = a.header.digest.logs ∧
      b.group = e.store.table.classify a.header ∧
      b.firstSeenAt < (e.appliedAll as).store.blocks.length := by
  induction as generalizing e with
  | nil => exact .inl told
  | cons a as ih =>
    have next : (e.applied a.source a.header).store.Reachable := applied_reachable reachable
    rcases ih next told with first | ⟨c, later, digest, group, place⟩
    · rw [journal_applied reachable.valid, List.mem_append] at first
      refine first.imp id fun here => ⟨a, List.mem_cons_self, ?_⟩
      obtain ⟨rfl, length⟩ := announced_added reachable.valid here
      refine ⟨rfl, rfl, ?_⟩
      -- The block takes the next place, and later blocks come behind it.
      have grown := (appliedAll_grows next as).length_le
      simp only [List.length_map] at grown
      show e.store.nextSequence < ((e.applied a.source a.header).appliedAll as).store.blocks.length
      rw [reachable.valid.counted]
      omega
    · refine .inr ⟨c, List.mem_cons_of_mem a later, digest, ?_, place⟩
      rw [group, applied_table reachable.valid]

/-- What is needed of the events of a run so that they are read back. -/
theorem Built.journal_portable (built : e.Built) (made : e.store.table.Made) {as : List Announcement}
    (plain : ∀ a ∈ as, a.header.Plain)
    (few : (e.appliedAll as).store.blocks.length ≤ Text.maxWord + 1) :
    ∀ event ∈ (e.appliedAll as).journal, event.Portable := by
  intro event told
  cases event with
  | edgeAdded | nodeUpdated => trivial
  | nodeAdded b =>
    have before : e.journal = [] := built.journal
    rcases appliedAll_added built.reachable as told with early | ⟨a, listed, digest, group, place⟩
    · rw [before] at early
      cases early
    · exact (plain a listed).portable made digest group (by omega)

end Engine

/-! ## Reading lines -/

namespace DiffEvent

/-- The events of a text that holds one on each line. -/
def ofLines (text : String) : Except Fault (List DiffEvent) :=
  (text.toList.splitOn '\n').dropLast.mapM fun line => codec.decode (String.ofList line)

theorem ofLines_linesOf {events : List DiffEvent} (portable : ∀ e ∈ events, e.Portable) :
    ofLines (linesOf events) = .ok events := by
  have each : (events.map (·.line.toList)).mapM (fun line => codec.decode (String.ofList line)) =
      .ok events := by
    induction events with
    | nil => rfl
    | cons e events ih =>
      have first : codec.decode (String.ofList e.line.toList) = .ok e := by
        rw [String.ofList_toList]
        exact decode_line (portable e List.mem_cons_self)
      have rest := ih fun f member => portable f (List.mem_cons_of_mem e member)
      simp only [List.map_cons, List.mapM_cons, first, rest, bind, Except.bind, pure, Except.pure]
  rw [ofLines, splitOn_linesOf portable, List.dropLast_concat]
  exact each

/-- Written and read again, as characters throughout: an evaluation need not go through the bytes of a
text. -/
theorem ofLines_linesOf_chars (events : List DiffEvent) :
    ofLines (linesOf events) =
      ((events.flatMap fun e => (codec.write e).compactChars ++ ['\n']).splitOn '\n').dropLast.mapM
        fun line => codec.decodeDoc (Reader.start.read (line.map some)).finish := by
  have line (e : DiffEvent) : e.line.toList = (codec.write e).compactChars := String.toList_ofList
  simp only [ofLines, linesOf_toList, List.flatMap_map, line, Codec.decode, Doc.ofText,
    String.toList_ofList]

end DiffEvent

/-! ## Headers and runs -/

/-- Headers that were accepted are read back from their text. Of any run that is fed with such headers,
the text of its events has one newline behind each event and none in it, and line by line it is read as
these events. Numbers in digests are integers of 64 bits, and arrivals are numbered with 64 bits. -/
theorem reads_back :
    (∀ h : Header, h.Plain → Header.ofText (Header.codec.encode h) = .ok h) ∧
    ∀ (e : Engine) (as : List Announcement), e.Built → e.store.table.Made →
      (∀ a ∈ as, a.header.Plain) → (e.appliedAll as).store.blocks.length ≤ Text.maxWord + 1 →
      let events := (e.appliedAll as).journal
      let text := DiffEvent.linesOf events
      text.toList.splitOn '\n' = events.map (·.line.toList) ++ [[]] ∧
        (∀ event ∈ events, '\n' ∉ event.line.toList) ∧ DiffEvent.ofLines text = .ok events := by
  constructor
  · rintro h ⟨⟨text, accepted⟩, words⟩
    exact Header.ofText_encode (Header.accepted_of_ofText accepted) words
  · intro e as built made plain few events text
    have portable := built.journal_portable made plain few
    exact ⟨DiffEvent.splitOn_linesOf portable,
      fun event told => DiffEvent.newline_not_mem_line (portable event told),
      DiffEvent.ofLines_linesOf portable⟩

/-- A header with nested entries, an escaped newline in its hash and the largest integers, on a table of
one entry; the block that it names as its parent comes later, and it comes a second time itself. -/
theorem reads_back_nested :
    let text := "\x7b\"number\":\"0x2\",\"hash\":\"0x\\u00e9\\n\",\"parentHash\":\"0x1\",\"digest\":\x7b\"logs\":" ++
      "[\x7b\"seal\":[\"\",\"2A\"]\x7d,[[-9223372036854775808,18446744073709551615],-0]]\x7d\x7d"
    let header : Header := ⟨2, "0xé\n", "0x1", "", "",
      ⟨[.obj [("seal", .strings ["", "2A"])],
        .arr [.arr [.num (.int (-9223372036854775808)), .nat 18446744073709551615],
          .num (.real (Binary64.ofNat 0).neg)]]⟩⟩
    let parent : Header := .new 1 "0x1" "0x0"
    let table : SealTable := ⟨.ofList [(42, "bêta")]⟩
    let as : List Announcement := [⟨"a", header⟩, ⟨"a", parent⟩, ⟨"ä", header⟩]
    let events := ((Engine.new table .backfill).appliedAll as).journal
    Header.ofText text = .ok header ∧ Header.ofText (Header.codec.encode header) = .ok header ∧
      events.length = 4 ∧ DiffEvent.ofLines (DiffEvent.linesOf events) = .ok events := by
  intro text header parent table as events
  have read : Header.ofText text = .ok header := Header.ofText_eq_ok (by decide +kernel)
  have readParent : Header.ofText (Header.codec.encode parent) = .ok parent :=
    Header.ofText_eq_ok (by decide +kernel)
  have plain : header.Plain := ⟨⟨text, read⟩, by decide +kernel⟩
  have plainParent : parent.Plain := ⟨⟨_, readParent⟩, by decide +kernel⟩
  have built : SealTable.ofEntries [("0x2A", "bêta")] = .ok table := rfl
  have all : ∀ a ∈ as, a.header.Plain := by
    simp only [as, List.forall_mem_cons]
    exact ⟨plain, plainParent, plain, fun _ member => nomatch member⟩
  have result := reads_back.2 (.new table .backfill) as (.new table .backfill) (.ofEntries built) all
    (by decide +kernel)
  exact ⟨read, reads_back.1 header plain, by decide +kernel, result.2.2⟩

/-! ## Larger numbers -/

/-- Whether a number is whole, however large. -/
def Number.isWhole : Number → Bool
  | .int _ => true
  | .real x =>
    let (num, den) := Binary64.scaled x.significand x.exponent
    x.isFinite && num % den == 0

/-- A whole number of more than 64 bits is kept as a floating-point number, and the one that is read
from what is written of it may be another. -/
theorem not_reads_back_large :
    ¬ ∀ text h, Header.ofText text = .ok h → Json.allHoldOnly Number.isWhole h.digest.logs = true →
      Header.ofText (Header.codec.encode h) = .ok h := by
  intro always
  let text := "\x7b\"number\":1,\"hash\":\"0xa\",\"parentHash\":\"0x0\",\"digest\":\x7b\"logs\":" ++
    "[91829728565645052638]\x7d\x7d"
  let header : Header := ⟨1, "0xa", "0x0", "", "", ⟨[.num (.real ⟨0x4413e992ee61ff42⟩)]⟩⟩
  have read : Header.ofText text = .ok header := Header.ofText_eq_ok (by decide +kernel)
  have again := always text header read (by decide +kernel)
  have other : (Header.ofText (Header.codec.encode header)).toOption ≠ some header := by decide +kernel
  exact other (by rw [again]; rfl)

end BlockGraph
