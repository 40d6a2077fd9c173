import BlockGraph.Proofs.Seal.Classification
import BlockGraph.Proofs.Seal.Table
import BlockGraph.Seal.Prefix

/-!
# Seal tables by prefix

A table of prefixes is a table of bytes in disguise: a prefix has a normal form exactly if it spells a byte,
and the normal forms are in the order of the bytes. So both tables are made of the same entries, refuse the
same ones with the same words, list the same, and put every header into the same group.

* `normalPrefix?_eq`, `sealPrefix?_eq` — the normal form of a prefix is that of the byte it spells.
* `SealTable.prefixes` — the table of prefixes that tells the same as a table of bytes.
* `PrefixTable.ofEntries_eq` — the table of a list of entries, or what is wrong with them.
* `SealTable.classify_prefixes`, `SealTable.classifyPayload_prefixes` — the groups.
-/

namespace BlockGraph

open Text

variable {key payload : String} {byte : UInt8}

/-! ## Digits as bytes of text -/

theorem Text.HexDigit.utf8Size {c : Char} {value : Nat} (digit : HexDigit c value) : c.utf8Size = 1 := by
  have lower : "0123456789abcdef".toList.all (·.utf8Size == 1) = true := by decide +kernel
  have upper : "0123456789ABCDEF".toList.all (·.utf8Size == 1) = true := by decide +kernel
  rcases digit with listed | listed
  · simpa using List.all_eq_true.1 lower c (List.mem_of_getElem? listed)
  · simpa using List.all_eq_true.1 upper c (List.mem_of_getElem? listed)

theorem Text.length_le_byteLength (cs : List Char) : cs.length ≤ byteLength cs := by
  induction cs with
  | nil => exact Nat.le_refl 0
  | cons c cs ih =>
    have some := c.utf8Size_pos
    simp only [List.length_cons, byteLength]
    omega

namespace Text.HexByte

variable {high low : Char}

theorem byteLength (digits : HexByte high low byte) : Text.byteLength [high, low] = 2 := by
  obtain ⟨_, _, first, second, _⟩ := digits
  simp [Text.byteLength, first.utf8Size, second.utf8Size]

theorem cut (digits : HexByte high low byte) (rest : List Char) :
    cut? 2 (high :: low :: rest) = some [high, low] := by
  obtain ⟨_, _, first, second, _⟩ := digits
  simp [cut?, first.utf8Size, second.utf8Size]

theorem denotes (digits : HexByte high low byte) : SealTable.Denotes (String.ofList [high, low]) byte := by
  obtain ⟨h, l, first, second, value⟩ := digits
  refine ⟨false, high, low, ?_, h, l, first, second, value⟩
  rw [String.toList_ofList]
  exact presented_digits .none (List.cons_ne_nil _ _) (by simpa using ⟨⟨h, first⟩, ⟨l, second⟩⟩)

end Text.HexByte

/-! ## Prefixes -/

/-- A key has a normal form exactly if it spells a byte, and it is the one of that byte. -/
theorem normalPrefix?_eq (key : String) : normalPrefix? key = (SealTable.keyByte? key).map byteText := by
  unfold normalPrefix? SealTable.keyByte?
  generalize dropMarker (trimChars key.toList) = body
  -- One character of two bytes has the right length too, but is no pair of digits; three characters are
  -- too long, however few bytes each takes.
  match body with
  | [] => rfl
  | [c] => simp [bytesOfDigits?]
  | [high, low] =>
    cases read : byteOfDigits? high low with
    | none => simp [bytesOfDigits?, read]
    | some byte =>
      have two := (byteOfDigits?_eq_some_iff.1 read).byteLength
      simp [two, bytesOfDigits?, read, digitsOfBytes, byteText]
  | first :: second :: third :: rest =>
    have long : byteLength (first :: second :: third :: rest) ≠ 2 := by
      have counted := length_le_byteLength (first :: second :: third :: rest)
      simp only [List.length_cons] at counted
      omega
    simp [long]

theorem SealTable.Denotes.digits (denotes : Denotes key byte) (two : byteLength key.toList = 2) :
    ∃ high low, key.toList = [high, low] ∧ HexByte high low byte := by
  obtain ⟨_, high, low, ⟨marker, _, _, ⟨front, back, spelled, _, _⟩, _⟩, digits⟩ := denotes
  -- The two digits leave no room for blanks or a marker.
  have short := length_le_byteLength key.toList
  rw [two, spelled] at short
  simp only [List.length_append, List.length_cons, List.length_nil] at short
  have unpadded : front = [] ∧ marker = [] ∧ back = [] := by
    simp only [← List.length_eq_zero_iff]
    omega
  obtain ⟨rfl, rfl, rfl⟩ := unpadded
  exact ⟨high, low, spelled, digits⟩

/-- The byte that a payload opens with is the byte of its first two bytes of text, read as a key. -/
theorem opens_iff_cut : Opens payload byte ↔
    ∃ front, cut? 2 (dropMarker (trimChars payload.toList)) = some front ∧
      SealTable.Denotes (String.ofList front) byte := by
  constructor
  · rintro ⟨marked, high, low, rest, presented, digits⟩
    refine ⟨[high, low], ?_, digits.denotes⟩
    rw [dropMarker_trimChars_eq_iff.2 ⟨marked, presented⟩]
    exact digits.cut rest
  · rintro ⟨front, cut, denotes⟩
    obtain ⟨rest, whole, two⟩ := cut?_append cut
    obtain ⟨high, low, spelled, digits⟩ := denotes.digits (by rwa [String.toList_ofList])
    rw [String.toList_ofList] at spelled
    subst spelled
    obtain ⟨marked, presented⟩ := dropMarker_trimChars_eq_iff.1 whole
    exact ⟨marked, high, low, rest, presented, digits⟩

theorem sealPrefix?_eq (payload : String) :
    sealPrefix? payload = (SealTable.leadingByte? payload).map byteText := by
  have leading : SealTable.leadingByte? payload =
      (cut? 2 (dropMarker (trimChars payload.toList))).bind
        fun front => SealTable.keyByte? (String.ofList front) := by
    ext byte
    simp only [leadingByte?_eq_some_iff, opens_iff_cut, Option.bind_eq_some_iff,
      SealTable.keyByte?_eq_some_iff]
  simp only [sealPrefix?, normalPrefix?_eq, leading, Option.map_bind, Option.bind_eq_bind]
  rfl

/-! ## Tables -/

namespace SealTable

variable {table : SealTable}

/-- The table with its bytes in their normal form. -/
def prefixes (table : SealTable) : PrefixTable := ⟨table.groups.mapKeys byteText_lt⟩

theorem standard_prefixes : standard.prefixes = PrefixTable.standard := by decide +kernel

theorem toList_prefixes (table : SealTable) : table.prefixes.groups.toList = table.entries := rfl

theorem bind_get?_prefixes (table : SealTable) (byte? : Option UInt8) :
    (byte?.map byteText).bind table.prefixes.groups.get? = byte?.bind table.groups.get? := by
  cases byte? with
  | none => rfl
  | some byte => exact SortedMap.get?_mapKeys byteText_lt table.groups byte

theorem groupOf?_prefixes (table : SealTable) (key : String) :
    table.prefixes.groupOf? key = table.groupOf? key := by
  rw [PrefixTable.groupOf?, normalPrefix?_eq]
  exact table.bind_get?_prefixes (keyByte? key)

/-- One more entry is taken by both or refused by both. -/
theorem addEntry_prefixes (table : SealTable) (entry : String × String) :
    table.prefixes.addEntry entry =
      ((table.addEntry entry).mapError SealTableError.message).map prefixes := by
  obtain ⟨key, group⟩ := entry
  simp only [PrefixTable.addEntry, addEntry, normalPrefix?_eq]
  cases keyByte? key with
  | none => rfl
  | some byte =>
    simp only [Option.map_some]
    split
    · rfl
    · exact congrArg Except.ok (congrArg PrefixTable.mk (SortedMap.insert_mapKeys byteText_lt _ _ _))

theorem foldlM_addEntry_prefixes (entries : List (String × String)) (table : SealTable) :
    entries.foldlM PrefixTable.addEntry table.prefixes =
      ((entries.foldlM addEntry table).mapError SealTableError.message).map prefixes := by
  induction entries generalizing table with
  | nil => rfl
  | cons entry entries ih =>
    rw [List.foldlM_cons, List.foldlM_cons, addEntry_prefixes]
    cases table.addEntry entry with
    | error e => rfl
    | ok next => exact ih next

theorem sealGroup_prefixes (table : SealTable) {height : UInt64} (above : height ≠ 0)
    (payload : Option String) : table.prefixes.sealGroup payload = table.classifySeal height payload := by
  have found : (payload >>= sealPrefix? >>= table.prefixes.groups.get?) =
      (payload >>= leadingByte? >>= table.groups.get?) := by
    cases payload with
    | none => rfl
    | some payload =>
      simp only [Option.bind_eq_bind, Option.bind_some, sealPrefix?_eq]
      exact table.bind_get?_prefixes (leadingByte? payload)
  rw [PrefixTable.sealGroup, found, classifySeal, if_neg above]
  cases payload >>= leadingByte? >>= table.groups.get? <;> rfl

theorem classifyPayload_prefixes (table : SealTable) (height : UInt64) (payload : String) :
    table.prefixes.classifyPayload height payload = table.classifyPayload height payload := by
  rw [PrefixTable.classifyPayload]
  split
  next zero => rw [classifyPayload, classifySeal, if_pos zero]
  next above => exact table.sealGroup_prefixes above (some payload)

theorem classify_prefixes (table : SealTable) (header : Header) :
    table.prefixes.classify header = table.classify header := by
  rw [PrefixTable.classify]
  split
  next zero => rw [classify, classifySeal, if_pos zero]
  next above => exact table.sealGroup_prefixes above _

end SealTable

/-- The entries make the same table, or the first that is not sound is refused with the same words. -/
theorem PrefixTable.ofEntries_eq (entries : List (String × String)) :
    ofEntries entries =
      ((SealTable.ofEntries entries).mapError SealTableError.message).map SealTable.prefixes :=
  SealTable.foldlM_addEntry_prefixes entries .empty

end BlockGraph
