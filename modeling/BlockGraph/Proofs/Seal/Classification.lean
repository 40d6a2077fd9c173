import BlockGraph.Proofs.Text.Spelling
import BlockGraph.Proofs.Wire.Run

/-!
# Classification of headers

The group of a header is told by the byte that its seal opens with. Nothing else in the header counts but
whether its height is zero: not the tag of the seal, not the entries behind it, and not how the byte is
spelled.

* `Opens`, `opens_spelled` — payloads that open with a byte, in any spelling and whatever follows.
* `Digest.Carries`, `Header.SealByte` — the entries that carry a payload, and the byte of a header.
* `classifySeal_eq_genesis_iff`, `classifySeal_eq_algorithm_iff`, `classifySeal_eq_unknown_iff` — the groups.
* `classifies_by_byte` — the group of a header, and that it is found again by its name.
-/

namespace BlockGraph

open Text

/-! ## Payloads -/

/-- The payload opens with the two digits of a byte, between blanks and behind a marker or without one. -/
def Opens (payload : String) (byte : UInt8) : Prop :=
  ∃ marked high low rest, Presented marked (high :: low :: rest) payload.toList ∧ HexByte high low byte

variable {payload : String} {byte : UInt8}

theorem leadingByte?_eq_some_iff : SealTable.leadingByte? payload = some byte ↔ Opens payload byte := by
  constructor
  · intro read
    unfold SealTable.leadingByte? at read
    split at read
    next high low rest body =>
      obtain ⟨marked, presented⟩ := dropMarker_trimChars_eq_iff.1 body
      exact ⟨marked, high, low, rest, presented, byteOfDigits?_eq_some_iff.1 read⟩
    next => cases read
  · rintro ⟨marked, high, low, rest, presented, digits⟩
    rw [SealTable.leadingByte?, dropMarker_trimChars_eq_iff.2 ⟨marked, presented⟩]
    exact byteOfDigits?_eq_some_iff.2 digits

/-- The blanks and the marker in front, the case of the digits and what follows them do not count. -/
theorem opens_spelled {front marker : List Char} {marked : Bool} {high low : Char} (blanks : Blanks front)
    (is : Marker marked marker) (digits : HexByte high low byte) (rest : List Char) :
    Opens (String.ofList (front ++ (marker ++ high :: low :: rest))) byte := by
  obtain ⟨h, l, first, second, value⟩ := digits
  have unmarked : Unmarked (high :: low :: rest.rdropWhile isBlank) :=
    unmarked_of_second (second.ne (by decide)) (second.ne (by decide))
  refine ⟨marked, high, low, rest.rdropWhile isBlank, ⟨marker, is, fun _ => unmarked, ?_, ?_, ?_⟩,
    h, l, first, second, value⟩
  · refine ⟨front, rest.rtakeWhile isBlank, ?_, blanks, fun c member => List.mem_rtakeWhile_imp member⟩
    rw [String.toList_ofList, List.append_assoc, List.cons_append, List.cons_append,
      List.rdropWhile_append_rtakeWhile]
  · intro c begins
    cases is <;> obtain rfl := Option.some.inj begins
    · exact first.solid
    · decide
    · decide
  · intro c ends
    rw [List.append_cons, List.append_cons] at ends
    by_cases blank : rest.rdropWhile isBlank = []
    · rw [blank, List.append_nil, List.getLast?_concat] at ends
      obtain rfl := Option.some.inj ends
      exact second.solid
    · rw [List.getLast?_append_of_ne_nil _ blank, List.getLast?_eq_some_getLast blank] at ends
      obtain rfl := Option.some.inj ends
      simpa using List.rdropWhile_last_not isBlank rest blank

/-! ## Seals -/

/-- The entry is an object with a list under either spelling of its key, and the payload is second. -/
def Digest.Carries (log : Json) (payload : String) : Prop :=
  ∃ members parts, log = .obj members ∧ parts[1]? = some (.str payload) ∧
    (SortedMap.find? "seal" members = some (.arr parts) ∨
      SortedMap.find? "seal" members = none ∧ SortedMap.find? "Seal" members = some (.arr parts))

theorem Json.text?_eq_some_iff {v : Json} {s : String} : v.text? = some s ↔ v = .str s := by
  cases v <;> simp [Json.text?]

theorem Json.items?_eq_some_iff {v : Json} {items : List Json} : v.items? = some items ↔ v = .arr items := by
  cases v <;> simp [Json.items?]

theorem Digest.sealPayload?_eq_some_iff {log : Json} :
    Digest.sealPayload? log = some payload ↔ Digest.Carries log payload := by
  have read : Digest.sealPayload? log = some payload ↔ ∃ parts,
      ((log.get? "seal").or (log.get? "Seal")) = some (.arr parts) ∧ parts[1]? = some (.str payload) := by
    simp [Digest.sealPayload?, Digest.sealParts?, Option.bind_eq_some_iff, Json.text?_eq_some_iff,
      Json.items?_eq_some_iff]
  rw [read]
  cases log with
  | obj members =>
    simp only [Digest.Carries, Json.get?, Option.or_eq_some_iff, Json.obj.injEq]
    grind
  | null | bool | num | str | arr => simp [Digest.Carries, Json.get?]

/-- The payload of a header's first entry. -/
def Header.SealPayload (header : Header) (payload : String) : Prop :=
  ∃ log, header.digest.logs.head? = some log ∧ Digest.Carries log payload

/-- The byte that the seal of a header opens with. -/
def Header.SealByte (header : Header) (byte : UInt8) : Prop :=
  ∃ payload, header.SealPayload payload ∧ Opens payload byte

theorem Header.sealPayload_iff {header : Header} :
    (header.digest.logs.head? >>= Digest.sealPayload?) = some payload ↔ header.SealPayload payload := by
  simp only [Option.bind_eq_bind, Option.bind_eq_some_iff, Digest.sealPayload?_eq_some_iff,
    Header.SealPayload]

namespace SealTable

variable {table : SealTable} {header : Header} {height : UInt64} {found : Option String} {g : String}

/-! ## Groups -/

theorem sealGroup_eq_some_iff : (found >>= leadingByte? >>= table.groups.get?) = some g ↔
    ∃ payload byte, found = some payload ∧ Opens payload byte ∧ table.groups.get? byte = some g := by
  simp only [Option.bind_eq_bind, Option.bind_eq_some_iff, leadingByte?_eq_some_iff]
  constructor
  · rintro ⟨byte, ⟨payload, carried, opens⟩, assigned⟩
    exact ⟨payload, byte, carried, opens, assigned⟩
  · rintro ⟨payload, byte, carried, opens, assigned⟩
    exact ⟨byte, ⟨payload, carried, opens⟩, assigned⟩

theorem classifySeal_eq_genesis_iff : table.classifySeal height found = .genesis ↔ height = 0 := by
  unfold classifySeal
  split
  next zero => simp [zero]
  next other => split <;> simp [other]

theorem classifySeal_eq_algorithm_iff : table.classifySeal height found = .algorithm g ↔
    height ≠ 0 ∧ ∃ payload byte, found = some payload ∧ Opens payload byte ∧
      table.groups.get? byte = some g := by
  rw [← sealGroup_eq_some_iff]
  unfold classifySeal
  split
  next zero => simp [zero]
  next other =>
    split
    next name assigned =>
      rw [assigned]
      simp [other]
    next none =>
      rw [none]
      simp [other]

theorem classifySeal_eq_unknown_iff : table.classifySeal height found = .unknown ↔
    height ≠ 0 ∧ ¬ ∃ g payload byte, found = some payload ∧ Opens payload byte ∧
      table.groups.get? byte = some g := by
  simp only [← sealGroup_eq_some_iff]
  unfold classifySeal
  split
  next zero => simp [zero]
  next other =>
    split
    next name assigned =>
      rw [assigned]
      simp [other]
    next none =>
      rw [none]
      simp [other]

/-! ## Headers -/

theorem classify_eq_genesis_iff : table.classify header = .genesis ↔ header.number = 0 :=
  classifySeal_eq_genesis_iff

theorem classify_eq_algorithm_iff : table.classify header = .algorithm g ↔
    header.number ≠ 0 ∧ ∃ byte, header.SealByte byte ∧ table.groups.get? byte = some g := by
  rw [classify, classifySeal_eq_algorithm_iff]
  simp only [Header.sealPayload_iff, Header.SealByte]
  grind

theorem classify_eq_unknown_iff : table.classify header = .unknown ↔
    header.number ≠ 0 ∧ ¬ ∃ g byte, header.SealByte byte ∧ table.groups.get? byte = some g := by
  rw [classify, classifySeal_eq_unknown_iff]
  simp only [Header.sealPayload_iff, Header.SealByte]
  grind

theorem classify_eq_classifyPayload {payload : String} (carried : header.SealPayload payload) :
    table.classify header = table.classifyPayload header.number payload := by
  rw [classify, classifyPayload, Header.sealPayload_iff.2 carried]

/-- Headers of the same byte are in the same group. -/
theorem classify_congr {other : Header} (height : header.number = 0 ↔ other.number = 0)
    (seals : ∀ byte, header.SealByte byte ↔ other.SealByte byte) :
    table.classify header = table.classify other := by
  cases group : table.classify other with
  | genesis => exact classify_eq_genesis_iff.2 (height.2 (classify_eq_genesis_iff.1 group))
  | algorithm g =>
    rw [classify_eq_algorithm_iff] at group ⊢
    simpa only [seals, ne_eq, height] using group
  | unknown =>
    rw [classify_eq_unknown_iff] at group ⊢
    simpa only [seals, ne_eq, height] using group

/-- The groups of the tables of the interface are told by height and seal byte alone, and found again by
their names. -/
theorem classifies_by_byte (made : table.Made) :
    (∀ header : Header,
      (table.classify header = .genesis ↔ header.number = 0) ∧
      (∀ g, table.classify header = .algorithm g ↔
        header.number ≠ 0 ∧ ∃ byte, header.SealByte byte ∧ table.groups.get? byte = some g) ∧
      (table.classify header = .unknown ↔
        header.number ≠ 0 ∧ ¬ ∃ g byte, header.SealByte byte ∧ table.groups.get? byte = some g) ∧
      (∀ payload, header.SealPayload payload →
        table.classify header = table.classifyPayload header.number payload)) ∧
    (∀ header other : Header, (header.number = 0 ↔ other.number = 0) →
      (∀ byte, header.SealByte byte ↔ other.SealByte byte) → table.classify header = table.classify other) ∧
    (∀ front marked marker high low byte rest, Blanks front → Marker marked marker → HexByte high low byte →
      Opens (String.ofList (front ++ (marker ++ high :: low :: rest))) byte) ∧
    (∀ header : Header, Group.ofName (table.classify header).name = table.classify header) ∧
    ∀ height payload,
      Group.ofName (table.classifyPayload height payload).name = table.classifyPayload height payload := by
  refine ⟨fun header => ⟨classify_eq_genesis_iff, ?_, classify_eq_unknown_iff, ?_⟩, ?_, ?_, ?_, ?_⟩
  · exact fun g => classify_eq_algorithm_iff
  · exact fun payload => classify_eq_classifyPayload
  · exact fun header other => classify_congr
  · exact fun front marked marker high low byte rest blanks is digits => opens_spelled blanks is digits rest
  · exact fun header => made.classifySeal header.number _
  · exact fun height payload => made.classifySeal height (some payload)

/-- A byte in capital letters behind a blank and a marker, in the second spelling of the key. -/
theorem classifies_by_byte_capitals :
    let log := Json.obj [("Seal", .arr [.null, .str "\u30000XfF, and more"]), ("other", .bool true)]
    ∃ table, ofEntries [("0xff", "lyra2"), ("ab", "sha3"), (" 0XFF", "blake2")] = .ok table ∧
      table.Made ∧ table.classify ⟨7, "0xb", "0xa", "", "", ⟨[log, .null]⟩⟩ = .algorithm "blake2" := by
  intro log
  have built : ofEntries [("0xff", "lyra2"), ("ab", "sha3"), (" 0XFF", "blake2")] =
      .ok ⟨.ofList [(0xab, "sha3"), (0xff, "blake2")]⟩ := by decide +kernel
  have made := Made.ofEntries built
  obtain ⟨exact, _, opens, _⟩ := classifies_by_byte made
  have digits : HexByte 'f' 'F' 0xff := ⟨15, 15, .inl rfl, .inr rfl, rfl⟩
  have spelled : "\u30000XfF, and more" =
      String.ofList (['\u3000'] ++ (['0', 'X'] ++ 'f' :: 'F' :: ", and more".toList)) := by decide +kernel
  have payload : Opens "\u30000XfF, and more" 0xff := by
    rw [spelled]
    exact opens ['\u3000'] true _ 'f' 'F' 0xff _ (List.forall_mem_singleton.2 (by decide)) .upper digits
  have carried : Digest.Carries log "\u30000XfF, and more" := ⟨_, _, rfl, rfl, .inr ⟨rfl, rfl⟩⟩
  refine ⟨_, built, made, ((exact _).2.1 "blake2").2 ⟨by decide, 0xff, ?_, by decide +kernel⟩⟩
  exact ⟨_, ⟨log, rfl, carried⟩, payload⟩

end SealTable

end BlockGraph
