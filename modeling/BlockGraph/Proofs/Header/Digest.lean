import BlockGraph.Proofs.Json.Members
import BlockGraph.Proofs.Json.Sorted
import BlockGraph.Proofs.Wire.Header

/-!
# Digests of headers

What may stand in the place of a digest. The list of its entries is free-form, and anything but a list
counts as no entries; the digest around it is a record, which stands as an object or as the array of its one
field, and any other value refuses the whole header.

* `Digest.ofValue`, `Digest.Tolerated` — what is read from a value, and the values that are not refused.
* `Digest.digest_read` — a digest that is not too deep is read as described.
* `Header.header_read` — a header is read from its members in any order, as its digest is.
* `Header.ofText_digest` — the headers that are read, and their entries.
-/

namespace BlockGraph

/-! ## Digests -/

namespace Digest

/-- The entries of a list that was given for them, each with sorted objects, and none in place of any
other value. -/
def entriesOf : Option Json → List Json
  | some (.arr items) => items.map Json.sorted
  | _ => []

/-- What is read from a value in the place of a digest. -/
def ofValue : Json → Except Fault Digest
  | .obj members => .ok ⟨entriesOf (SortedMap.find? "logs" members)⟩
  | .arr [] => .ok ⟨[]⟩
  | .arr [logs] => .ok ⟨entriesOf (some logs)⟩
  | .arr _ => .error .malformed
  | _ => .error .invalidType

/-- The values that do not make a header unreadable. -/
def Tolerated (v : Json) : Prop :=
  (∃ members, v = .obj members) ∨ ∃ items, v = .arr items ∧ items.length ≤ 1

variable {v : Json} {members : List (String × Json)} {room : Nat}

theorem ofValue_ok_iff : (∃ digest, ofValue v = .ok digest) ↔ Tolerated v := by
  cases v with
  | null | bool | num | str => simp [ofValue, Tolerated]
  | obj members => simp [ofValue, Tolerated]
  | arr items =>
    cases items with
    | nil => simp [ofValue, Tolerated]
    | cons logs items => cases items <;> simp [ofValue, Tolerated]

theorem logs_read (distinct : v.Distinct) (fits : v.depth ≤ room) :
    logsCodec.read (.stream room) v.toDoc = .ok (entriesOf (some v)) := by
  show (fun v : Json => v.items?.getD []) <$> v.toDoc.keep (.stream room) = _
  rw [Json.keep_toDoc v distinct fits]
  cases v with
  | arr items =>
    show Except.ok (Json.sortedItems items) = _
    rw [Json.sortedItems_eq]
    rfl
  | null | bool | num | str | obj => rfl

/-- The one field of a digest, from the members of an object. -/
theorem members_read (distinct : (Json.obj members).Distinct)
    (fits : Json.depthOfMembers members ≤ room) :
    codec.read (.stream (room + 1)) (Json.obj members).toDoc =
      .ok ⟨entriesOf (SortedMap.find? "logs" members)⟩ := by
  refine (Fields.read_obj _ _ rfl).trans ?_
  refine (Fields.ofMembers_single _ Digest.mk members distinct.1).trans ?_
  simp only [Field.defaulted]
  cases found : SortedMap.find? "logs" members with
  | none => rfl
  | some logs =>
    obtain ⟨own, shallow⟩ := distinct.2.each fits _ (SortedMap.mem_of_find? found)
    exact congrArg (Digest.mk <$> ·) (logs_read own shallow)

theorem digest_read (distinct : v.Distinct) (fits : v.depth ≤ room) :
    codec.read (.stream room) v.toDoc = ofValue v := by
  cases v with
  | null | bool | num | str => rfl
  | obj members =>
    obtain ⟨room, rfl⟩ := Nat.exists_eq_succ_of_ne_zero (Nat.ne_zero_of_lt fits)
    exact members_read distinct (Nat.le_of_succ_le_succ fits)
  | arr items =>
    -- A digest may stand as the array of its one field.
    obtain ⟨room, rfl⟩ := Nat.exists_eq_succ_of_ne_zero (Nat.ne_zero_of_lt fits)
    match items, distinct, fits with
    | [], _, _ => rfl
    | [logs], ⟨own, _⟩, fits =>
      have inner := logs_read own (Nat.le_trans (Nat.le_max_left ..) (Nat.le_of_succ_le_succ fits))
      show (logsCodec.read (.stream room) logs.toDoc >>= fun logs => .ok (Digest.mk logs)) = _
      rw [inner]
      rfl
    | logs :: _ :: _, ⟨own, _⟩, fits =>
      have inner := logs_read own (Nat.le_trans (Nat.le_max_left ..) (Nat.le_of_succ_le_succ fits))
      show (logsCodec.read (.stream room) logs.toDoc >>= fun _ => .error .malformed) = _
      rw [inner]
      rfl

end Digest

/-! ## Headers -/

namespace Header

variable {n : UInt64} {hash parentHash text : String} {v : Json} {ms : List (String × Json)} {room : Nat}

/-- A header of four members in any order. -/
theorem header_read (given : ms.Perm [("number", .nat n.toNat), ("hash", .str hash),
      ("parentHash", .str parentHash), ("digest", v)]) :
    codec.read (.stream (room + 1)) (Json.obj ms).toDoc =
      (⟨n, hash, parentHash, "", "", ·⟩) <$> Digest.codec.read (.stream room) v.toDoc := by
  have given : (Json.toDocMembers ms).Perm [(some "number", (Json.nat n.toNat).toDoc),
      (some "hash", .str hash), (some "parentHash", .str parentHash), (some "digest", v.toDoc)] := by
    rw [Json.toDocMembers_eq]
    exact given.map _
  refine (Fields.read_obj _ _ rfl).trans ?_
  refine Fields.ofMembers_take given (by simp [Field.required]) (number_returns _ n) fun _ given => ?_
  refine Fields.ofMembers_take given (by simp [Field.required]) rfl fun _ given => ?_
  refine Fields.ofMembers_take given (by simp [Field.required]) rfl fun _ given => ?_
  obtain rfl := List.perm_singleton.1 given
  refine (Fields.ofMembers_absent (by simp [Field.defaulted]) rfl).trans ?_
  refine (Fields.ofMembers_absent (by simp [Field.defaulted]) rfl).trans ?_
  exact Fields.ofMembers_single _ _ [("digest", v)] (List.nodup_singleton _)

theorem ofText_eq_ofValue (spelled : Doc.ofText text = ((Json.obj ms).toDoc, false))
    (given : ms.Perm [("number", .nat n.toNat), ("hash", .str hash), ("parentHash", .str parentHash),
      ("digest", v)])
    (named : Text.isBlankText hash = false) (distinct : v.Distinct) (shallow : v.depth ≤ 100) :
    ofText text = match Digest.ofValue v with
      | .ok digest => .ok ⟨n, hash, parentHash, "", "", digest⟩
      | .error fault => .error (.unreadable fault) := by
  have fits : v.depth ≤ 126 := Nat.le_trans shallow (by decide)
  have read : codec.read (.stream Reading.maxDepth) (Json.obj ms).toDoc =
      (⟨n, hash, parentHash, "", "", ·⟩) <$> Digest.ofValue v := by
    rw [← Digest.digest_read distinct fits]
    exact header_read given
  rw [ofText_eq, Codec.decode, Codec.decodeDoc, spelled, read]
  cases Digest.ofValue v with
  | error => rfl
  | ok digest => simp [bind, Except.bind, Functor.map, Except.map, pure, Except.pure, isBlank, named]

/-- A header is read with whatever object stands in the place of its digest, and with an array of at most
one item; any other value makes it unreadable. The entries of an object are those of its list, in their
order. -/
theorem ofText_digest (spelled : Doc.ofText text = ((Json.obj ms).toDoc, false))
    (given : ms.Perm [("number", .nat n.toNat), ("hash", .str hash), ("parentHash", .str parentHash),
      ("digest", v)])
    (named : Text.isBlankText hash = false) (distinct : v.Distinct) (shallow : v.depth ≤ 100) :
    ((∃ digest, ofText text = .ok ⟨n, hash, parentHash, "", "", digest⟩) ↔ Digest.Tolerated v) ∧
      (∀ members, v = .obj members → ofText text =
        .ok ⟨n, hash, parentHash, "", "", ⟨Digest.entriesOf (SortedMap.find? "logs" members)⟩⟩) ∧
      (ofText text = match Digest.ofValue v with
        | .ok digest => .ok ⟨n, hash, parentHash, "", "", digest⟩
        | .error fault => .error (.unreadable fault)) := by
  have read := ofText_eq_ofValue spelled given named distinct shallow
  refine ⟨?_, ?_, read⟩
  · rw [read, ← Digest.ofValue_ok_iff]
    cases Digest.ofValue v with
    | error => simp
    | ok digest => simp
  · rintro members rfl
    exact read

/-- A digest with more than its entries, of which one has its members out of order. -/
theorem ofText_digest_unsorted :
    ofText ("\x7b\"digest\":\x7b\"extra\":[],\"logs\":[\x7b\"b\":1,\"a\":[null]\x7d,7]\x7d," ++
        "\"hash\":\"0xa\",\"number\":1,\"parentHash\":\"0x0\"\x7d") =
      .ok ⟨1, "0xa", "0x0", "", "", ⟨[.obj [("a", .arr [.null]), ("b", .nat 1)], .nat 7]⟩⟩ := by
  have given : [("digest", Json.obj [("extra", .arr []),
        ("logs", .arr [.obj [("b", .nat 1), ("a", .arr [.null])], .nat 7])]), ("hash", .str "0xa"),
        ("number", .nat (1 : UInt64).toNat), ("parentHash", .str "0x0")].Perm
      [("number", .nat (1 : UInt64).toNat), ("hash", .str "0xa"), ("parentHash", .str "0x0"),
        ("digest", .obj [("extra", .arr []), ("logs", .arr [.obj [("b", .nat 1), ("a", .arr [.null])],
          .nat 7])])] := by decide +kernel
  have distinct : (Json.obj [("extra", .arr []), ("logs", .arr [.obj [("b", .nat 1), ("a", .arr [.null])],
      .nat 7])]).Distinct := by simp [Json.Distinct, Json.MembersDistinct, Json.ItemsDistinct, Json.nat]
  have log : Json.sorted (.obj [("b", .nat 1), ("a", .arr [.null])]) =
      .obj [("a", .arr [.null]), ("b", .nat 1)] := by
    rw [← Json.object_eq (by decide)]
    decide +kernel
  rw [← log]
  exact (ofText_digest rfl given (by decide +kernel) distinct (by decide +kernel)).2.1 _ rfl

/-- The digest `null` makes a header unreadable. -/
theorem ofText_digest_null : ¬ ∀ text n hash parentHash v ms,
    Doc.ofText text = ((Json.obj ms).toDoc, false) →
    ms.Perm [("number", .nat (n : UInt64).toNat), ("hash", .str hash), ("parentHash", .str parentHash),
      ("digest", v)] →
    Text.isBlankText hash = false → v.Distinct → v.depth ≤ 100 →
    ∃ digest, ofText text = .ok ⟨n, hash, parentHash, "", "", digest⟩ := by
  intro tolerated
  obtain ⟨digest, accepted⟩ := tolerated
    "\x7b\"number\":1,\"hash\":\"0xa\",\"parentHash\":\"0x0\",\"digest\":null\x7d" 1 "0xa" "0x0" .null _
    rfl (.refl _) (by decide +kernel) trivial (by decide +kernel)
  have refused : ofText "\x7b\"number\":1,\"hash\":\"0xa\",\"parentHash\":\"0x0\",\"digest\":null\x7d" =
      .error (.unreadable .invalidType) := by decide +kernel
  rw [refused] at accepted
  cases accepted

end Header

end BlockGraph
