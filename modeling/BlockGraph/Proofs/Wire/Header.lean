import BlockGraph.Header
import BlockGraph.Proofs.Json.Codec
import BlockGraph.Proofs.Json.Text

/-!
# Headers on the wire

A header that was accepted is read back from what is written of it, whatever its texts are and however
deep the entries of its digest; of the numbers in these it is assumed that they are integers of 64 bits.

* `Header.Accepted` — what acceptance says of a header: its entries have been kept, three levels down.
* `accepted_of_ofText` — headers that were read from a text.
* `ofText_encode` — they are read back.
-/

namespace BlockGraph

open Codec

/-- How entries of a digest are kept: below the header, its digest and the list of the entries. -/
def Digest.reading : Reading := .stream (Reading.maxDepth - 3)

namespace Header

variable {h : Header} {r : Reading}

/-- Whether all numbers in the digest are integers of 64 bits. -/
def inWords (h : Header) : Bool := Json.allInWords h.digest.logs

/-- What acceptance says of a header. -/
structure Accepted (h : Header) : Prop where
  named : h.isBlank = false
  kept : ∀ v ∈ h.digest.logs, v.Kept Digest.reading

/-! ## Headers that were read -/

theorem logs_kept {doc : Doc} {logs : List Json} {room : Nat}
    (read : Digest.logsCodec.read (.stream (room + 1)) doc = .ok logs) :
    ∀ v ∈ logs, v.Kept (.stream room) := by
  have shape : Digest.logsCodec.read (.stream (room + 1)) doc =
      (fun v : Json => v.items?.getD []) <$> doc.keep (.stream (room + 1)) := rfl
  rw [shape] at read
  cases kept : doc.keep (.stream (room + 1)) with
  | error => rw [kept] at read; cases read
  | ok v =>
    rw [kept] at read
    obtain rfl := Except.ok.inj read
    cases v with
    | arr items =>
      -- The entries are one level below the list that was kept.
      cases doc with
      | arr docs closed =>
        obtain ⟨s, vs, entered, all, same⟩ := Doc.keep_arr kept
        obtain rfl := Except.ok.inj entered
        obtain rfl := Json.arr.inj same
        exact Doc.kept_of_keepItems docs all (.refl _)
      | obj members closed =>
        obtain ⟨_, _, _, _, same⟩ := Doc.keep_obj kept
        cases same
      | num n => cases n <;> cases kept
      | str s => cases s <;> cases kept
      | null | bool | broken => cases kept
    | null | bool | num | str | obj => exact fun _ member => nomatch member

theorem digest_kept {doc : Doc} {digest : Digest} {room : Nat}
    (read : Digest.codec.read (.stream (room + 2)) doc = .ok digest) :
    ∀ v ∈ digest.logs, v.Kept (.stream room) := by
  obtain ⟨s, entered, yields⟩ := Fields.yields_of_read read
  obtain rfl := Except.ok.inj entered
  obtain ⟨logs, gives, rfl⟩ := yields
  rcases gives with ⟨inner, found⟩ | absent | short
  · exact logs_kept found
  · obtain rfl := Option.some.inj absent
    exact fun _ member => nomatch member
  · obtain rfl := Option.some.inj short
    exact fun _ member => nomatch member

theorem header_kept {doc : Doc} (read : codec.read (.stream Reading.maxDepth) doc = .ok h) :
    ∀ v ∈ h.digest.logs, v.Kept Digest.reading := by
  obtain ⟨s, entered, yields⟩ := Fields.yields_of_read read
  obtain rfl := Except.ok.inj entered
  obtain ⟨_, _, _, _, _, _, _, _, _, _, digest, gives, rfl⟩ := yields
  rcases gives with ⟨inner, found⟩ | absent | short
  · exact digest_kept found
  · obtain rfl := Option.some.inj absent
    exact fun _ member => nomatch member
  · obtain rfl := Option.some.inj short
    exact fun _ member => nomatch member

theorem ofText_eq (text : String) :
    ofText text = match codec.decode text with
      | .error fault => .error (.unreadable fault)
      | .ok h => if h.isBlank then .error (.blankHash h.number none) else .ok h := by
  unfold ofText
  cases codec.decode text <;> rfl

theorem accepted_of_ofText {text : String} (read : ofText text = .ok h) : h.Accepted := by
  rw [ofText_eq] at read
  cases decoded : codec.decode text with
  | error => simp [decoded] at read
  | ok g =>
    simp only [decoded] at read
    split at read
    · cases read
    next named =>
      obtain rfl := Except.ok.inj read
      refine ⟨by simpa using named, ?_⟩
      -- What follows the value does not matter once it has been accepted.
      rw [Codec.decode, decodeDoc] at decoded
      cases whole : codec.read (.stream Reading.maxDepth) (Doc.ofText text).1 with
      | error => simp [whole, bind, Except.bind] at decoded
      | ok f =>
        simp only [whole, bind, Except.bind] at decoded
        split at decoded
        · cases decoded
        · obtain rfl := Except.ok.inj decoded
          exact header_kept whole

/-! ## Headers that were written -/

theorem number_returns (r : Reading) (n : UInt64) : numberCodec.Returns r n := by
  have within : n.toNat ≤ Text.maxWord := Nat.le_of_lt_succ n.toNat_lt
  have range : (0 ≤ (n.toNat : Int) && (n.toNat : Int) ≤ Text.maxWord) = true := by simpa using within
  refine (if_pos range).trans ?_
  simp [pure, Except.pure]

theorem digest_returns {digest : Digest} {room : Nat} (kept : ∀ v ∈ digest.logs, v.Kept (.stream room)) :
    Digest.codec.Returns (.stream (room + 2)) digest := by
  have logs : Digest.logsCodec.Returns (.stream (room + 1)) digest.logs := by
    have all : (Json.arr digest.logs).Kept (.stream (room + 1)) := Json.kept_arr rfl kept
    show (fun v : Json => v.items?.getD []) <$> (Json.arr digest.logs).toDoc.keep (.stream (room + 1)) = _
    rw [all]
    rfl
  exact Fields.returns (by decide) rfl rfl ⟨logs, trivial⟩

theorem header_returns (accepted : h.Accepted) : codec.Returns (.stream Reading.maxDepth) h :=
  Fields.returns (by decide) rfl rfl
    ⟨number_returns _ h.number, string_returns _ h.hash, string_returns _ h.parentHash,
      string_returns _ h.stateRoot, string_returns _ h.extrinsicsRoot,
      digest_returns accepted.kept, trivial⟩

theorem members_words (words : h.inWords = true) :
    ∃ members, codec.write h = .obj members ∧ Json.membersInWords members = true := by
  refine ⟨_, rfl, Json.membersInWords_iff.2 (Fields.members_write (P := (·.inWords = true)) ?_)⟩
  have digest : (Digest.codec.write h.digest).inWords = true := Fields.write_words ⟨fun _ => words, trivial⟩
  exact ⟨fun _ => Json.nat_inWords (Nat.le_of_lt_succ h.number.toNat_lt), fun _ => rfl, fun _ => rfl,
    fun _ => rfl, fun _ => rfl, fun _ => digest, trivial⟩

/-- A header that was accepted is read back from its text. -/
theorem ofText_encode (accepted : h.Accepted) (words : h.inWords = true) :
    ofText (codec.encode h) = .ok h := by
  obtain ⟨members, written, inWords⟩ := members_words words
  have document : Doc.ofText (codec.encode h) = ((codec.write h).toDoc, false) := by
    rw [encode, written, Doc.ofText_compact inWords]
  have returned : codec.read (.stream Reading.maxDepth) (codec.write h).toDoc = .ok h :=
    header_returns accepted
  have decoded : codec.decode (codec.encode h) = .ok h := by
    simp [decode, decodeDoc, document, returned, bind, Except.bind, pure, Except.pure]
  simp [ofText_eq, decoded, accepted.named]

end Header

end BlockGraph
