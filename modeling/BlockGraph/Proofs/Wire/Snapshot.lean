import BlockGraph.Proofs.Json.Pretty
import BlockGraph.Proofs.Wire.Event
import BlockGraph.Snapshot

/-!
# Snapshots on the wire

A block lies one level deeper in a snapshot than in the line of its event, and so do the entries of its
digest. So a header may carry entries that just fit where the header is read and are too deep for a
snapshot: its text is written all the same, and the reader refuses it.

* `Snapshot.Portable`, `Snapshot.Shallow` — what is needed of a snapshot so that it is read back.
* `state_returns`, `status_returns`, `snapshot_returns` — states, statuses and snapshots are read back from
  what is written of them.
* `shallow_of_read` — no snapshot with deeper entries was ever read.
* `decode_text` — a snapshot is read back from its text, on one line or indented, just when it is shallow.
-/

namespace BlockGraph

open Codec

/-! ## Sources -/

theorem SourceState.state_returns {r s : Reading} (entered : r.enter = .ok s) (state : SourceState) :
    SourceState.codec.Returns r state := by
  cases state with
  | running | stopped | capReached | ended => rfl
  | failed reason =>
    show Variant.read _ r (.obj [(some "failed", .str (some reason))] true) = _
    cases r with
    | held => rfl
    | stream room =>
      cases room with
      | zero => cases entered
      | succ room => rfl

theorem SourceState.state_words (state : SourceState) :
    (SourceState.codec.write state).inWords = true := by
  cases state <;> rfl

namespace SourceStatus

variable {status : SourceStatus}

theorem status_returns {r s t : Reading} (counted : status.observedCount ≤ Text.maxWord)
    (entered : r.enter = .ok s) (further : s.enter = .ok t) : codec.Returns r status := by
  have latest : (option string).Returns s status.latestHash :=
    option_returns (by nofun) (string_returns s)
  exact Fields.returns (by decide) entered rfl
    ⟨string_returns _ status.id, bool_returns _ status.active, nat_returns _ counted, latest,
      SourceState.state_returns further status.state, trivial⟩

theorem status_words (counted : status.observedCount ≤ Text.maxWord) :
    (codec.write status).inWords = true := by
  have latest : ((option string).write status.latestHash).inWords = true := by
    cases status.latestHash <;> rfl
  exact Fields.write_words
    ⟨fun _ => rfl, fun _ => rfl, fun _ => Json.nat_inWords counted, fun _ => latest,
      fun _ => SourceState.state_words status.state, trivial⟩

end SourceStatus

theorem Edge.edge_words (e : Edge) : (codec.write e).inWords = true := rfl

/-! ## Snapshots -/

namespace Snapshot

variable {s : Snapshot}

/-- What is needed of a snapshot besides its depth. -/
structure Portable (s : Snapshot) : Prop where
  nodes : ∀ b ∈ s.nodes, b.Portable
  counts : ∀ status ∈ s.sources, status.observedCount ≤ Text.maxWord

/-- The entries of the digests fit below the snapshot, its list of blocks, their block and its list. -/
def Shallow (s : Snapshot) : Prop :=
  ∀ b ∈ s.nodes, ∀ v ∈ b.sealBytes, v.depth ≤ Reading.maxDepth - 4

instance decidableShallow : Decidable s.Shallow :=
  inferInstanceAs (Decidable (∀ b ∈ s.nodes, ∀ v ∈ b.sealBytes, v.depth ≤ Reading.maxDepth - 4))

/-- The text of a snapshot, on one line or indented. -/
def text (s : Snapshot) (compact : Bool) : String :=
  if compact then (codec.write s).compact else (codec.write s).pretty

theorem snapshot_returns (portable : s.Portable) (shallow : s.Shallow) :
    codec.Returns (.stream Reading.maxDepth) s := by
  have nodes : (list Block.codec).Returns (.stream (Reading.maxDepth - 1)) s.nodes :=
    list_returns rfl fun b listed => Block.block_returns (portable.nodes b listed) rfl rfl
      fun v member => Json.kept_of_depth_le v ((portable.nodes b listed).kept v member)
        (shallow b listed v member)
  have edges : (list Edge.codec).Returns (.stream (Reading.maxDepth - 1)) s.edges :=
    list_returns rfl fun e _ => e.edge_returns _ ⟨_, rfl⟩
  have sources : (list SourceStatus.codec).Returns (.stream (Reading.maxDepth - 1)) s.sources :=
    list_returns rfl fun status listed => SourceStatus.status_returns (portable.counts status listed) rfl rfl
  exact Fields.returns (by decide) rfl rfl ⟨nodes, edges, sources, trivial⟩

theorem members_words (portable : s.Portable) :
    ∃ members, codec.write s = .obj members ∧ Json.membersInWords members = true := by
  refine ⟨_, rfl, Json.membersInWords_iff.2 (Fields.members_write (P := (·.inWords = true)) ?_)⟩
  exact ⟨fun _ => list_words fun b listed => Block.block_words (portable.nodes b listed),
    fun _ => list_words fun e _ => e.edge_words,
    fun _ => list_words fun status listed => SourceStatus.status_words (portable.counts status listed),
    trivial⟩

/-! ## Snapshots that were read -/

theorem block_kept {doc : Doc} {b : Block} {room : Nat}
    (read : Block.codec.read (.stream (room + 2)) doc = .ok b) :
    ∀ v ∈ b.sealBytes, v.Kept (.stream room) := by
  obtain ⟨s, entered, yields⟩ := Fields.yields_of_read read
  obtain rfl := Except.ok.inj entered
  obtain ⟨_, _, _, _, _, _, _, _, _, _, seals, gives, _, _, _, _, _, _, _, _, _, _, rfl⟩ := yields
  rcases gives with ⟨inner, found⟩ | absent | short
  · obtain ⟨t, further, each⟩ := list_read found
    obtain rfl := Except.ok.inj further
    intro v member
    obtain ⟨item, kept⟩ := each v member
    exact Doc.kept_of_keep item kept (.refl _)
  · cases absent
  · cases short

theorem shallow_of_read {doc : Doc} (read : codec.read (.stream Reading.maxDepth) doc = .ok s) :
    s.Shallow := by
  obtain ⟨r, entered, yields⟩ := Fields.yields_of_read read
  obtain rfl := Except.ok.inj entered
  obtain ⟨nodes, gives, _, _, _, _, rfl⟩ := yields
  rcases gives with ⟨inner, found⟩ | absent | short
  · obtain ⟨t, further, each⟩ := list_read found
    obtain rfl := Except.ok.inj further
    intro b listed v member
    obtain ⟨item, blockRead⟩ := each b listed
    exact Json.depth_le_of_kept v (block_kept blockRead v member)
  · cases absent
  · cases short

/-! ## Texts -/

theorem ofText_text (portable : s.Portable) (compact : Bool) :
    Doc.ofText (s.text compact) = ((codec.write s).toDoc, false) ∧
      Doc.ofText (s.text compact ++ "\n") = ((codec.write s).toDoc, false) := by
  obtain ⟨members, written, words⟩ := members_words portable
  refine Doc.ofText_ended ?_
  rw [text, written]
  cases compact with
  | true =>
    rw [if_pos rfl, Json.compact, String.toList_ofList]
    exact Reader.read_object words
  | false =>
    rw [if_neg Bool.false_ne_true, Json.pretty, String.toList_ofList]
    exact Reader.read_prettyObject words

/-- Written and read again, as characters throughout. -/
theorem decode_chars (s : Snapshot) (compact : Bool) :
    codec.decode (s.text compact) = codec.decodeDoc (Reader.start.read
      ((if compact then (codec.write s).compactChars else (codec.write s).prettyChars 0).map some)).finish := by
  cases compact with
  | true => rw [text, if_pos rfl, Json.compact, decode, Doc.ofText, String.toList_ofList, if_pos rfl]
  | false =>
    rw [text, if_neg Bool.false_ne_true, Json.pretty, decode, Doc.ofText, String.toList_ofList,
      if_neg Bool.false_ne_true]

/-- A document is read as the snapshot that it was written from just when that is shallow. -/
theorem decode_iff (portable : s.Portable) {text : String}
    (document : Doc.ofText text = ((codec.write s).toDoc, false)) :
    codec.decode text = .ok s ↔ s.Shallow := by
  rw [decode, decodeDoc, document]
  constructor
  · intro decoded
    cases read : codec.read (.stream Reading.maxDepth) (codec.write s).toDoc with
    | error => simp [read, bind, Except.bind] at decoded
    | ok t =>
      obtain rfl : t = s := by simpa [read, bind, Except.bind, pure, Except.pure] using decoded
      exact shallow_of_read read
  · intro shallow
    have returned : codec.read (.stream Reading.maxDepth) (codec.write s).toDoc = .ok s :=
      snapshot_returns portable shallow
    simp [returned, bind, Except.bind, pure, Except.pure]

theorem decode_text (portable : s.Portable) (compact : Bool) :
    (codec.decode (s.text compact) = .ok s ↔ s.Shallow) ∧
      (codec.decode (s.text compact ++ "\n") = .ok s ↔ s.Shallow) := by
  obtain ⟨document, ended⟩ := ofText_text portable compact
  exact ⟨decode_iff portable document, decode_iff portable ended⟩

end Snapshot

end BlockGraph
