import BlockGraph.Proofs.Map
import BlockGraph.Proofs.Text.Spelling
import BlockGraph.Seal
import Mathlib.Data.List.Forall2

/-!
# Seal tables by byte

A table is made of entries whose keys spell bytes. Each entry is taken or refused for itself, and one that
is taken replaces what the table told of its byte; so the table of a list is told byte by byte, by the
last entry of each.

* `Denotes`, `Sound`, `Objection` — spellings of a byte, and what is wrong with an entry.
* `Assigned`, `Holds` — the group that a list gives a byte, and tables that agree with a list.
* `addEntry_cases`, `Holds.insert`, `foldlM_addEntry` — one entry, and a run over a list.
* `ofEntries_entries` — a table is made of its own entries.
* `ofEntries_keyed_by_byte` — the table of a list, or the first entry that is not sound.
-/

namespace BlockGraph.SealTable

open Text

variable {table : SealTable} {entries told front : List (String × String)} {entry : String × String}
  {key group : String} {byte other : UInt8} {e : SealTableError}

/-! ## Entries -/

/-- The byte of a key: two digits between blanks, behind a marker or without one. -/
def Denotes (key : String) (byte : UInt8) : Prop :=
  ∃ marked high low, Presented marked [high, low] key.toList ∧ HexByte high low byte

/-- The names that no table assigns. -/
def Reserved (group : String) : Prop := group = "" ∨ group = "genesis" ∨ group = "unknown"

/-- An entry that a table takes. -/
def Sound (entry : String × String) : Prop := (∃ byte, Denotes entry.1 byte) ∧ ¬ Reserved entry.2

/-- What is wrong with an entry, its key before its group. -/
inductive Objection : String × String → SealTableError → Prop
  | key {key group : String} (strange : ∀ byte, ¬ Denotes key byte) :
      Objection (key, group) (.notOneByte key)
  | group {key group : String} {byte : UInt8} (denotes : Denotes key byte) (reserved : Reserved group) :
      Objection (key, group) (.reservedGroup group byte)

/-- The group that the last entry of a byte gives it. -/
def Assigned (entries : List (String × String)) (byte : UInt8) (group : String) : Prop :=
  ∃ front key back, entries = front ++ (key, group) :: back ∧ Denotes key byte ∧
    ∀ entry ∈ back, ¬ Denotes entry.1 byte

theorem keyByte?_eq_some_iff : keyByte? key = some byte ↔ Denotes key byte := by
  constructor
  · intro read
    unfold keyByte? at read
    split at read
    next high low body =>
      obtain ⟨marked, presented⟩ := dropMarker_trimChars_eq_iff.1 body
      exact ⟨marked, high, low, presented, byteOfDigits?_eq_some_iff.1 read⟩
    next => cases read
  · rintro ⟨marked, high, low, presented, digits⟩
    rw [keyByte?, dropMarker_trimChars_eq_iff.2 ⟨marked, presented⟩]
    exact byteOfDigits?_eq_some_iff.2 digits

theorem keyByte?_eq_none_iff : keyByte? key = none ↔ ∀ byte, ¬ Denotes key byte := by
  simp only [Option.eq_none_iff_forall_ne_some, ne_eq, keyByte?_eq_some_iff]

theorem Denotes.unique (denotes : Denotes key byte) (same : Denotes key other) : byte = other :=
  Option.some.inj ((keyByte?_eq_some_iff.2 denotes).symm.trans (keyByte?_eq_some_iff.2 same))

theorem reserved_iff : (group = "" || group = Group.genesisName || group = Group.unknownName) = true ↔
    Reserved group := by
  simp only [Bool.or_eq_true, decide_eq_true_eq, or_assoc]
  rfl

theorem Objection.not_sound (objection : Objection entry e) : ¬ Sound entry := by
  cases objection with
  | key strange => exact fun sound => sound.1.elim strange
  | group _ reserved => exact fun sound => sound.2 reserved

/-! ## One entry -/

theorem addEntry_denoted (denotes : Denotes key byte) (free : ¬ Reserved group) (table : SealTable) :
    table.addEntry (key, group) = .ok ⟨table.groups.insert byte group⟩ := by
  simp only [addEntry, keyByte?_eq_some_iff.2 denotes, reserved_iff, free, if_false]

/-- An entry is taken, or refused for what is wrong with it. -/
theorem addEntry_cases (table : SealTable) (entry : String × String) :
    (∃ byte, Denotes entry.1 byte ∧ ¬ Reserved entry.2 ∧
      table.addEntry entry = .ok ⟨table.groups.insert byte entry.2⟩) ∨
      ∃ e, Objection entry e ∧ table.addEntry entry = .error e := by
  obtain ⟨key, group⟩ := entry
  cases read : keyByte? key with
  | none => exact .inr ⟨_, .key (keyByte?_eq_none_iff.1 read), by simp only [addEntry, read]⟩
  | some byte =>
    have denotes := keyByte?_eq_some_iff.1 read
    by_cases reserved : Reserved group
    · refine .inr ⟨_, .group denotes reserved, ?_⟩
      simp only [addEntry, read, reserved_iff, reserved, if_true]
    · exact .inl ⟨byte, denotes, reserved, addEntry_denoted denotes reserved table⟩

/-! ## Lists of entries -/

/-- The table assigns each byte the group of its last entry. -/
def Holds (table : SealTable) (entries : List (String × String)) : Prop :=
  ∀ byte group, table.groups.get? byte = some group ↔ Assigned entries byte group

theorem not_assigned_nil : ¬ Assigned [] byte group := by
  rintro ⟨front, key, back, same, _⟩
  cases front <;> cases same

/-- The entry at the end counts for its own byte and for no other. -/
theorem assigned_concat_iff {last : String} : Assigned (entries ++ [(key, last)]) byte group ↔
    Denotes key byte ∧ group = last ∨ ¬ Denotes key byte ∧ Assigned entries byte group := by
  constructor
  · rintro ⟨front, own, back, same, denotes, behind⟩
    rcases List.eq_nil_or_concat back with rfl | ⟨back, entry, rfl⟩
    · cases (List.append_inj' same rfl).2
      exact .inl ⟨denotes, rfl⟩
    · rw [List.concat_eq_append] at same behind
      have whole : entries ++ [(key, last)] = (front ++ (own, group) :: back) ++ [entry] := by
        rw [same, List.append_assoc, List.cons_append]
      obtain ⟨rfl, ends⟩ := List.append_inj' whole rfl
      cases ends
      have differs := behind (key, last) (List.mem_append_right _ (List.mem_singleton_self _))
      refine .inr ⟨differs, front, own, back, rfl, denotes, fun entry member => ?_⟩
      exact behind entry (List.mem_append_left _ member)
  · rintro (⟨denotes, rfl⟩ | ⟨differs, front, own, back, rfl, denotes, behind⟩)
    · exact ⟨entries, key, [], rfl, denotes, List.forall_mem_nil _⟩
    · refine ⟨front, own, back ++ [(key, last)], ?_, denotes, fun entry member => ?_⟩
      · rw [List.append_assoc, List.cons_append]
      rcases List.mem_append.1 member with member | member
      · exact behind entry member
      · exact List.mem_singleton.1 member ▸ differs

/-- Taking one more entry keeps a table that assigns what its entries say. -/
theorem Holds.insert (holds : table.Holds told) (denotes : Denotes key byte) (group : String) :
    Holds ⟨table.groups.insert byte group⟩ (told ++ [(key, group)]) := by
  intro other last
  rw [SortedMap.get?_insert, assigned_concat_iff]
  by_cases own : other = byte
  · subst own
    simp [denotes, eq_comm]
  · have differs : ¬ Denotes key other := fun same => own (same.unique denotes)
    simp [own, differs, holds other last]

/-- A run over entries ends in the table they describe, or at the first entry that is not sound. -/
theorem foldlM_addEntry (holds : table.Holds told) (entries : List (String × String)) :
    (∃ last, entries.foldlM addEntry table = .ok last ∧ last.Holds (told ++ entries) ∧
      ∀ entry ∈ entries, Sound entry) ∨
    ∃ front entry back e, entries = front ++ entry :: back ∧ (∀ x ∈ front, Sound x) ∧
      Objection entry e ∧ entries.foldlM addEntry table = .error e := by
  induction entries generalizing table told with
  | nil => exact .inl ⟨table, rfl, by rwa [List.append_nil], List.forall_mem_nil _⟩
  | cons entry entries ih =>
    rcases addEntry_cases table entry with ⟨byte, denotes, free, added⟩ | ⟨e, objection, refused⟩
    · have sound : Sound entry := ⟨⟨byte, denotes⟩, free⟩
      have next := holds.insert denotes entry.2
      rcases ih next with ⟨last, run, final, rest⟩ | ⟨front, first, back, e, rfl, before, objection, run⟩
      · refine .inl ⟨last, ?_, by rwa [List.append_assoc] at final, List.forall_mem_cons.2 ⟨sound, rest⟩⟩
        rw [List.foldlM_cons, added]
        exact run
      · have before := List.forall_mem_cons.2 ⟨sound, before⟩
        refine .inr ⟨entry :: front, first, back, e, rfl, before, objection, ?_⟩
        rw [List.foldlM_cons, added]
        exact run
    · refine .inr ⟨[], entry, entries, e, rfl, List.forall_mem_nil _, objection, ?_⟩
      rw [List.foldlM_cons, refused]
      rfl

theorem holds_empty : empty.Holds [] := fun byte group => by
  simp [empty, not_assigned_nil]

/-! ## The entries of a table -/

theorem denotes_byteText (byte : UInt8) : Denotes (byteText byte) byte := by
  obtain ⟨high, low, spelled, digits⟩ := byteText_eq byte
  refine ⟨true, high, low, ?_, digits⟩
  rw [spelled]
  obtain ⟨h, l, first, second, _⟩ := digits
  exact presented_digits .lower (List.cons_ne_nil _ _) (by simpa using ⟨⟨h, first⟩, ⟨l, second⟩⟩)

/-- Some entry of a byte is the last one. -/
theorem exists_assigned_iff :
    (∃ group, Assigned entries byte group) ↔ ∃ entry ∈ entries, Denotes entry.1 byte := by
  constructor
  · rintro ⟨group, front, key, back, rfl, denotes, _⟩
    exact ⟨_, List.mem_append_right _ List.mem_cons_self, denotes⟩
  · rintro ⟨entry, member, denotes⟩
    induction entries using List.reverseRecOn with
    | nil => cases member
    | append_singleton entries last ih =>
      by_cases own : Denotes last.1 byte
      · exact ⟨last.2, assigned_concat_iff.2 (.inl ⟨own, rfl⟩)⟩
      · have before : entry ∈ entries := by
          refine (List.mem_append.1 member).resolve_right fun same => own ?_
          exact List.mem_singleton.1 same ▸ denotes
        obtain ⟨group, assigned⟩ := ih before
        exact ⟨group, assigned_concat_iff.2 (.inr ⟨own, assigned⟩)⟩

theorem Assigned.mem (assigned : Assigned entries byte group) : ∃ key, (key, group) ∈ entries := by
  obtain ⟨front, key, back, rfl, _⟩ := assigned
  exact ⟨key, List.mem_append_right _ List.mem_cons_self⟩

theorem groupOf?_eq_some_iff :
    table.groupOf? key = some group ↔ ∃ byte, Denotes key byte ∧ table.groups.get? byte = some group := by
  simp only [groupOf?, Option.bind_eq_bind, Option.bind_eq_some_iff, keyByte?_eq_some_iff]

/-- The normal forms of bytes are taken one by one. -/
theorem foldlM_normal {groups : List (UInt8 × String)} (free : ∀ e ∈ groups, ¬ Reserved e.2)
    (table : SealTable) :
    (groups.map fun (byte, group) => (byteText byte, group)).foldlM addEntry table =
      .ok ⟨groups.foldl (fun m e => m.insert e.1 e.2) table.groups⟩ := by
  induction groups generalizing table with
  | nil => rfl
  | cons e groups ih =>
    obtain ⟨own, rest⟩ := List.forall_mem_cons.1 free
    rw [List.map_cons, List.foldlM_cons, addEntry_denoted (denotes_byteText e.1) own]
    exact ih rest _

/-- A table without reserved names is made of its own entries. -/
theorem ofEntries_entries (free : ∀ e ∈ table.groups.toList, ¬ Reserved e.2) :
    ofEntries table.entries = .ok table := by
  have same : table.groups.toList.foldl (fun m e => m.insert e.1 e.2) .empty = table.groups :=
    SortedMap.ofList_toList table.groups
  rw [ofEntries, entries, foldlM_normal free, empty, same]

/-! ## Tables -/

/-- A table as its entries describe it. -/
structure Tabulates (table : SealTable) (entries : List (String × String)) : Prop where
  /-- One entry for each byte that occurs, in the order of the bytes. -/
  listed : ∃ bytes : List UInt8, bytes.Pairwise (· < ·) ∧
    (∀ byte, byte ∈ bytes ↔ ∃ entry ∈ entries, Denotes entry.1 byte) ∧
    List.Forall₂ (fun byte entry => entry.1 = byteText byte ∧ Assigned entries byte entry.2)
      bytes table.entries
  ascending : (table.entries.map (·.1)).Pairwise (· < ·)
  found : ∀ key group,
    table.groupOf? key = some group ↔ ∃ byte, Denotes key byte ∧ Assigned entries byte group
  rebuilt : ofEntries table.entries = .ok table

theorem Holds.tabulates (holds : table.Holds entries) (sound : ∀ entry ∈ entries, Sound entry) :
    table.Tabulates entries where
  listed := by
    refine ⟨table.groups.keys, table.groups.keys_ascending, fun byte => ?_, ?_⟩
    · rw [SortedMap.mem_keys, Option.isSome_iff_exists, ← exists_assigned_iff]
      exact exists_congr (holds byte)
    · rw [SortedMap.keys, SealTable.entries, SortedMap.toList, List.forall₂_map_left_iff,
        List.forall₂_map_right_iff, List.forall₂_same]
      rintro ⟨byte, group⟩ member
      exact ⟨rfl, (holds byte group).1 (SortedMap.get?_of_mem member)⟩
  ascending := by
    rw [SealTable.entries, List.map_map]
    exact List.pairwise_map.2 (table.groups.ascending.imp byteText_lt)
  found key group := by
    rw [groupOf?_eq_some_iff]
    exact exists_congr fun byte => and_congr_right' (holds byte group)
  rebuilt := by
    refine ofEntries_entries fun e member => ?_
    obtain ⟨key, listed⟩ := ((holds e.1 e.2).1 (SortedMap.get?_of_mem member)).mem
    exact (sound _ listed).2

/-- A list of entries makes the table that it describes, or is refused for the first one that is not
sound. -/
theorem ofEntries_keyed_by_byte (entries : List (String × String)) :
    ((∃ e, ofEntries entries = .error e) ↔ ∃ entry ∈ entries, ¬ Sound entry) ∧
      match ofEntries entries with
      | .ok table => table.Tabulates entries
      | .error e => ∃ front entry back, entries = front ++ entry :: back ∧ (∀ x ∈ front, Sound x) ∧
        Objection entry e := by
  rcases foldlM_addEntry holds_empty entries with
    ⟨table, built, holds, sound⟩ | ⟨front, entry, back, e, same, before, objection, refused⟩
  · rw [ofEntries, built]
    refine ⟨⟨(nomatch ·), fun ⟨entry, member, strange⟩ => ?_⟩, holds.tabulates sound⟩
    exact absurd (sound entry member) strange
  · rw [ofEntries, refused]
    have member : entry ∈ entries := same ▸ List.mem_append_right _ List.mem_cons_self
    refine ⟨⟨fun _ => ⟨entry, member, objection.not_sound⟩, fun _ => ⟨e, rfl⟩⟩, ?_⟩
    exact ⟨front, entry, back, same, before, objection⟩

end BlockGraph.SealTable
