import BlockGraph.Diff
import BlockGraph.Proofs.Json.Codec
import BlockGraph.Proofs.Json.Text
import BlockGraph.Proofs.Wire.Header

/-!
# Events on the wire

An event is read back from its line. The content of an event is kept until its kind is known, so the
reader goes through it twice: once to see that it can be kept, from the text and within its bound on
nesting, and once to read it from what was kept. A block lies as deep in its event as a digest in its
header, so the entries that a header could hold fit here as well.

* `Group.Assignable` — groups that are found again by their names.
* `Block.Portable`, `DiffEvent.Portable` — what is needed of a block, and of an event.
* `block_returns`, `event_returns` — they are read back from what is written of them.
* `decode_line` — an event is read back from its line, which is one line.
* `splitOn_linesOf` — the text of events holds their lines, each of them ended.
-/

namespace BlockGraph

open Codec

/-- A group that is found again by its name: no reserved name stands for another group. -/
def Group.Assignable (g : Group) : Prop := ofName g.name = g

/-- What is needed of a block so that it is read back. -/
structure Block.Portable (b : Block) : Prop where
  group : b.group.Assignable
  arrival : b.firstSeenAt ≤ Text.maxWord
  kept : ∀ v ∈ b.sealBytes, v.Kept Digest.reading
  words : Json.allInWords b.sealBytes = true

/-- What is needed of an event so that it is read back. -/
def DiffEvent.Portable : DiffEvent → Prop
  | .nodeAdded b => b.Portable
  | .edgeAdded _ | .nodeUpdated .. => True

/-! ## Blocks and edges -/

namespace Block

variable {b : Block}

theorem position_returns {r s : Reading} (entered : r.enter = .ok s) (p : Position) :
    Position.codec.Returns r p :=
  Fields.returns (by decide) entered rfl ⟨word64_returns _ p.rank, word32_returns _ p.lane, trivial⟩

/-- A block is read back wherever there is room for the entries of its digest, two levels down. -/
theorem block_returns {r s t : Reading} (portable : b.Portable) (entered : r.enter = .ok s)
    (further : s.enter = .ok t) (kept : ∀ v ∈ b.sealBytes, v.Kept t) : codec.Returns r b := by
  have seals : (list json).Returns s b.sealBytes :=
    list_returns further fun v member => json_returns (kept v member)
  have group : Group.codec.Returns s b.group :=
    map_returns (string_returns _ b.group.name) (congrArg Except.ok portable.group)
  have position := optional_returns (o := b.position) (by nofun) (position_returns further)
  exact Fields.returns (by decide) entered rfl
    ⟨string_returns _ b.hash, string_returns _ b.parentHash, word64_returns _ b.height,
      string_returns _ b.stateRoot, string_returns _ b.extrinsicsRoot, seals, group,
      stringSet_returns further b.reportingSources, nat_returns _ portable.arrival,
      bool_returns _ b.isCompeting, position, trivial⟩

/-- Below the block and its event there is room for a list of texts, a position and the entries. -/
theorem block_fits (portable : b.Portable) :
    (codec.write b).Fits (.stream (Reading.maxDepth - 1)) := by
  have text (t : String) (r : Reading) : (Json.str t).Fits r := ⟨_, rfl⟩
  have nat (n : Nat) (r : Reading) : (Json.nat n).Fits r := ⟨_, rfl⟩
  have seals : ((list json).write b.sealBytes).Fits (.stream (Reading.maxDepth - 2)) :=
    list_fits rfl fun v member => (portable.kept v member).fits
  have position (p : Position) : (Position.codec.write p).Fits (.stream (Reading.maxDepth - 2)) :=
    Fields.write_fits rfl ⟨fun _ => nat p.rank.toNat _, fun _ => nat p.lane.toNat _, trivial⟩
  exact Fields.write_fits rfl
    ⟨fun _ => text b.hash _, fun _ => text b.parentHash _, fun _ => nat b.height.toNat _,
      fun _ => text b.stateRoot _, fun _ => text b.extrinsicsRoot _, fun _ => seals,
      fun _ => text b.group.name _, fun _ => stringSet_fits rfl b.reportingSources,
      fun _ => nat b.firstSeenAt _, fun _ => ⟨_, rfl⟩, optional_writes b.position position, trivial⟩

theorem block_words (portable : b.Portable) : (codec.write b).inWords = true := by
  have seals : ((list json).write b.sealBytes).inWords = true :=
    list_words (Json.allInWords_iff.1 portable.words)
  have position (p : Position) : (Position.codec.write p).inWords = true := by
    have lane : p.lane.toNat ≤ Text.maxWord := Nat.le_trans (Nat.le_of_lt p.lane.toNat_lt) (by decide)
    exact Fields.write_words
      ⟨fun _ => Json.nat_inWords (Nat.le_of_lt_succ p.rank.toNat_lt), fun _ => Json.nat_inWords lane, trivial⟩
  exact Fields.write_words
    ⟨fun _ => rfl, fun _ => rfl, fun _ => Json.nat_inWords (Nat.le_of_lt_succ b.height.toNat_lt),
      fun _ => rfl, fun _ => rfl, fun _ => seals, fun _ => rfl, fun _ => stringSet_words b.reportingSources,
      fun _ => Json.nat_inWords portable.arrival, fun _ => rfl,
      optional_writes (P := (·.inWords = true)) b.position position, trivial⟩

end Block

theorem Edge.edge_returns (e : Edge) (r : Reading) (entered : ∃ s, r.enter = .ok s) :
    codec.Returns r e := by
  obtain ⟨s, entered⟩ := entered
  exact Fields.returns (by decide) entered rfl
    ⟨string_returns _ e.parentHash, string_returns _ e.childHash, trivial⟩

/-! ## Contents -/

namespace DiffEvent

variable {e : DiffEvent}

theorem fields_returns (fields : NodeFields) : NodeFields.codec.Returns .held fields := by
  have sources := optional_returns (r := .held) (o := fields.reportingSources) (by nofun)
    (stringSet_returns rfl)
  have flag := optional_returns (o := fields.isCompeting) (by nofun) (bool_returns .held)
  exact Fields.returns (by decide) rfl rfl ⟨sources, flag, trivial⟩

/-- The content of an event is read back once its kind is known. -/
theorem content_returns (portable : e.Portable) :
    readContent e.kind (Json.obj e.contentMembers).toDoc = .ok e := by
  cases e with
  | nodeAdded b =>
    have block : Block.codec.Returns .held b := Block.block_returns portable rfl rfl fun v member =>
      Doc.kept_of_keep _ (portable.kept v member) (.held _)
    have content : blockCodec.Returns .held b := Fields.returns (by decide) rfl rfl ⟨block, trivial⟩
    show nodeAdded <$> blockCodec.read .held (blockCodec.write b).toDoc = _
    rw [show blockCodec.read .held (blockCodec.write b).toDoc = .ok b from content]
    rfl
  | edgeAdded edge =>
    have content : edgeCodec.Returns .held edge :=
      Fields.returns (by decide) rfl rfl ⟨edge.edge_returns .held ⟨.held, rfl⟩, trivial⟩
    show edgeAdded <$> edgeCodec.read .held (edgeCodec.write edge).toDoc = _
    rw [show edgeCodec.read .held (edgeCodec.write edge).toDoc = .ok edge from content]
    rfl
  | nodeUpdated hash fields =>
    have content : updateCodec.Returns .held (hash, fields) :=
      Fields.returns (by decide) rfl rfl ⟨string_returns _ hash, fields_returns fields, trivial⟩
    show _ <$> updateCodec.read .held (updateCodec.write (hash, fields)).toDoc = _
    rw [show updateCodec.read .held (updateCodec.write (hash, fields)).toDoc = .ok (hash, fields) from
      content]
    rfl

theorem content_fits (portable : e.Portable) :
    ∀ m ∈ e.contentMembers, m.1 ≠ kindKey ∧ m.2.Fits (.stream (Reading.maxDepth - 1)) := by
  have text (t : String) (r : Reading) : (Json.str t).Fits r := ⟨_, rfl⟩
  cases e with
  | nodeAdded b =>
    intro m listed
    obtain rfl := List.mem_singleton.1 listed
    exact ⟨(by decide : "block" ≠ kindKey), Block.block_fits portable⟩
  | edgeAdded edge =>
    have content : (Edge.codec.write edge).Fits (.stream (Reading.maxDepth - 1)) :=
      Fields.write_fits rfl ⟨fun _ => text edge.parentHash _, fun _ => text edge.childHash _, trivial⟩
    intro m listed
    obtain rfl := List.mem_singleton.1 listed
    exact ⟨(by decide : "edge" ≠ kindKey), content⟩
  | nodeUpdated hash fields =>
    have content : (NodeFields.codec.write fields).Fits (.stream (Reading.maxDepth - 1)) :=
      Fields.write_fits rfl
        ⟨optional_writes fields.reportingSources (stringSet_fits rfl),
          optional_writes fields.isCompeting fun _ => ⟨_, rfl⟩, trivial⟩
    intro m listed
    rcases List.mem_cons.1 listed with rfl | last
    · exact ⟨(by decide : "hash" ≠ kindKey), text hash _⟩
    · obtain rfl := List.mem_singleton.1 last
      exact ⟨(by decide : "fields" ≠ kindKey), content⟩

theorem content_words (portable : e.Portable) : Json.membersInWords e.contentMembers = true := by
  cases e with
  | nodeAdded b => exact Bool.and_eq_true_iff.2 ⟨Block.block_words portable, rfl⟩
  | edgeAdded edge => rfl
  | nodeUpdated hash fields =>
    have content : (NodeFields.codec.write fields).inWords = true :=
      Fields.write_words
        ⟨optional_writes (P := (·.inWords = true)) fields.reportingSources stringSet_words,
          optional_writes (P := (·.inWords = true)) fields.isCompeting fun _ => rfl, trivial⟩
    exact Bool.and_eq_true_iff.2 ⟨rfl, Bool.and_eq_true_iff.2 ⟨content, rfl⟩⟩

/-! ## Events -/

theorem kind_returns (k : Kind) (r : Reading) : Kind.codec.Returns r k := by cases k <;> rfl

/-- Members without a kind are left as they are, if they can be kept. -/
theorem splitMembers_content {r : Reading} {ms : List (String × Json)} (kind : Option Kind)
    (content : ∀ m ∈ ms, m.1 ≠ kindKey ∧ m.2.Fits r) :
    splitMembers r (Json.toDocMembers ms) kind = .ok (kind, Json.toDocMembers ms) := by
  induction ms with
  | nil => rfl
  | cons m ms ih =>
    obtain ⟨other, w, kept⟩ := content m List.mem_cons_self
    have rest := ih fun n listed => content n (List.mem_cons_of_mem m listed)
    simp only [Json.toDocMembers, splitMembers, Doc.key, Option.elim_some, if_neg other, kept, rest, bind,
      Except.bind, pure, Except.pure]

theorem event_returns (portable : e.Portable) : codec.Returns (.stream Reading.maxDepth) e := by
  have kind : Kind.codec.read (.stream (Reading.maxDepth - 1)) (Kind.codec.write e.kind).toDoc =
      .ok e.kind := kind_returns e.kind _
  have split := splitMembers_content (some e.kind) (content_fits portable)
  have entered : (Reading.stream Reading.maxDepth).enter = .ok (.stream (Reading.maxDepth - 1)) := rfl
  show DiffEvent.read (.stream Reading.maxDepth)
    (Json.obj ((kindKey, Kind.codec.write e.kind) :: e.contentMembers)).toDoc = _
  simp only [Json.toDoc, Json.toDocMembers, DiffEvent.read, entered, splitMembers, Doc.key,
    Option.elim_some, if_true, Option.isSome_none, Bool.false_eq_true, if_false, kind, split, Bool.not_true,
    bind, Except.bind, pure, Except.pure]
  exact content_returns portable

theorem write_words (portable : e.Portable) :
    Json.membersInWords ((kindKey, Kind.codec.write e.kind) :: e.contentMembers) = true :=
  Bool.and_eq_true_iff.2 ⟨rfl, content_words portable⟩

/-- An event is read back from its line. -/
theorem decode_line (portable : e.Portable) : codec.decode e.line = .ok e := by
  -- The text gives back the document that was written, and the document gives back the event.
  have document : Doc.ofText e.line = ((codec.write e).toDoc, false) :=
    Doc.ofText_compact (write_words portable)
  have returned : codec.read (.stream Reading.maxDepth) (codec.write e).toDoc = .ok e :=
    event_returns portable
  simp [decode, decodeDoc, document, returned, bind, Except.bind, pure, Except.pure]

theorem newline_not_mem_line (portable : e.Portable) : '\n' ∉ e.line.toList := by
  have line : e.line.toList = (codec.write e).compactChars := String.toList_ofList
  rw [line]
  exact Json.newline_not_mem_compact _ (write_words portable)

/-! ## Lines -/

theorem linesOf_toList (events : List DiffEvent) :
    (linesOf events).toList = (events.map (·.line.toList)).flatMap (· ++ ['\n']) := by
  induction events with
  | nil => rfl
  | cons e events ih =>
    have first : linesOf (e :: events) = (e.line ++ "\n") ++ linesOf events := String.join_cons
    have ended : "\n".toList = ['\n'] := rfl
    rw [first, String.toList_append, String.toList_append, ih, ended, List.map_cons, List.flatMap_cons]

theorem intercalate_ended {α : Type} (separator : List α) (lines : List (List α)) :
    separator.intercalate (lines ++ [[]]) = lines.flatMap (· ++ separator) := by
  induction lines with
  | nil => rfl
  | cons line lines ih =>
    rw [List.cons_append, List.intercalate_cons_of_ne_nil (by simp), ih, List.flatMap_cons]

/-- The text of events holds their lines, each of them ended, and nothing else. -/
theorem splitOn_linesOf {events : List DiffEvent} (portable : ∀ e ∈ events, e.Portable) :
    (linesOf events).toList.splitOn '\n' = events.map (·.line.toList) ++ [[]] := by
  rw [linesOf_toList, ← intercalate_ended]
  refine List.splitOn_intercalate '\n' ?_ (by simp)
  intro line member
  rcases List.mem_append.1 member with told | last
  · obtain ⟨e, listed, rfl⟩ := List.mem_map.1 told
    exact newline_not_mem_line (portable e listed)
  · rw [List.mem_singleton.1 last]
    exact List.not_mem_nil

end DiffEvent

end BlockGraph
