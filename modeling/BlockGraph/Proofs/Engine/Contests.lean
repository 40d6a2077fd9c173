import BlockGraph.Proofs.Engine.Flags
import BlockGraph.Proofs.Engine.Growth
import BlockGraph.Proofs.Store.Alike

/-!
# Contested heights

At any time of an engine a block is flagged exactly if another block has its height, the heights that
are told as contested are those of the flagged blocks, and a flag that is set stays.

* `isContested_iff` — a height is contested if it has another block than a given one.
* `Valid.mem_competingHeights` — what the list of the contested heights holds.
* `Contests`, `Built.appliedAll_contests` — the flags and the list after any number of headers.
-/

namespace BlockGraph

open BlockStore

/-- A list without repetitions is longer than one if it holds something else than a given member. -/
theorem two_le_length_iff {α : Type} {l : List α} (nodup : l.Nodup) {a : α} (member : a ∈ l) :
    2 ≤ l.length ↔ ∃ c ∈ l, c ≠ a := by
  obtain ⟨front, back, rfl⟩ := List.append_of_mem member
  rw [List.nodup_append, List.nodup_cons] at nodup
  obtain ⟨_, ⟨absent, _⟩, apart⟩ := nodup
  constructor
  · intro long
    rw [List.length_append, List.length_cons] at long
    cases front with
    | cons c front => exact ⟨c, by simp, apart c (by simp) a (by simp)⟩
    | nil =>
      cases back with
      | cons c back => exact ⟨c, by simp, fun same => absent (by simp [same])⟩
      | nil => simp at long
  · rintro ⟨c, here, other⟩
    rw [List.length_append, List.length_cons]
    rcases List.mem_append.1 here with before | behind
    · have some := List.length_pos_of_mem before
      omega
    · have some := List.length_pos_of_mem ((List.mem_cons.1 behind).resolve_left other)
      omega

namespace BlockStore

variable {s : BlockStore}

/-- A height is contested if it has another block than a given one. -/
theorem Valid.isContested_iff (valid : s.Valid) {b : Block} (stored : b ∈ s.blocks) :
    s.isContested b.height = true ↔ ∃ c ∈ s.blocks, c.hash ≠ b.hash ∧ c.height = b.height := by
  have here : b.hash ∈ s.hashesAt b.height := mem_hashesAt.2 ⟨b, stored, rfl, rfl⟩
  rw [isContested, decide_eq_true_eq, two_le_length_iff (valid.hashesAt_nodup b.height) here]
  constructor
  · rintro ⟨hash, member, other⟩
    obtain ⟨c, storedToo, height, rfl⟩ := mem_hashesAt.1 member
    exact ⟨c, storedToo, other, height⟩
  · rintro ⟨c, storedToo, other, height⟩
    exact ⟨c.hash, mem_hashesAt.2 ⟨c, storedToo, height, rfl⟩, other⟩

theorem Valid.mem_competingHeights (valid : s.Valid) {set : CompetingSet} :
    set ∈ s.competingHeights ↔ s.isContested set.height = true ∧ set.hashes = s.hashesAt set.height := by
  obtain ⟨height, hashes⟩ := set
  simp only [competingHeights, List.mem_map, List.mem_filter, decide_eq_true_eq, Prod.exists,
    CompetingSet.mk.injEq, SortedMap.mem_toList, valid.levelled, listed_eq_some, isContested]
  constructor
  · rintro ⟨_, _, ⟨⟨_, rfl⟩, contested⟩, rfl, rfl⟩
    exact ⟨contested, rfl⟩
  · rintro ⟨contested, rfl⟩
    refine ⟨height, s.hashesAt height, ⟨⟨?_, rfl⟩, contested⟩, rfl, rfl⟩
    intro none
    rw [none] at contested
    cases contested

theorem Valid.competingHeights_ascending (valid : s.Valid) :
    (s.competingHeights.map (·.height)).Pairwise (· < ·) := by
  rw [valid.competingHeights_height]
  exact s.heights.keys_ascending.filter _

/-- The flags and the contested heights tell which blocks share a height. -/
structure Contests (s : BlockStore) : Prop where
  flagged : ∀ b ∈ s.blocks, b.isCompeting = true ↔
    ∃ c ∈ s.blocks, c.hash ≠ b.hash ∧ c.height = b.height
  ascending : (s.competingHeights.map (·.height)).Pairwise (· < ·)
  listed : ∀ height hashes, ⟨height, hashes⟩ ∈ s.competingHeights ↔
    (∃ b ∈ s.blocks, b.height = height ∧ b.isCompeting = true) ∧
      hashes = (s.blocks.filter fun b => b.height == height).map (·.hash)
  union : ∀ b ∈ s.blocks, b.isCompeting = true ↔ ∃ set ∈ s.competingHeights, b.hash ∈ set.hashes

theorem Flagged.contests (valid : s.Valid) (flagged : s.Flagged) : s.Contests where
  flagged b stored := by rw [flagged b stored, valid.isContested_iff stored]
  ascending := valid.competingHeights_ascending
  listed height hashes := by
    rw [valid.mem_competingHeights]
    refine and_congr_left fun _ => ⟨fun contested => ?_, ?_⟩
    · -- A contested height has a block, and its flag is right.
      have two : 2 ≤ (s.hashesAt height).length := by simpa [isContested] using contested
      obtain ⟨hash, member⟩ := List.exists_mem_of_length_pos (Nat.lt_of_succ_lt two)
      obtain ⟨b, stored, rfl, _⟩ := mem_hashesAt.1 member
      exact ⟨b, stored, rfl, (flagged b stored).trans contested⟩
    · rintro ⟨b, stored, rfl, flag⟩
      exact (flagged b stored).symm.trans flag
  union b stored := by
    rw [flagged b stored]
    constructor
    · intro contested
      exact ⟨⟨b.height, s.hashesAt b.height⟩, valid.mem_competingHeights.2 ⟨contested, rfl⟩,
        mem_hashesAt.2 ⟨b, stored, rfl, rfl⟩⟩
    · rintro ⟨set, member, named⟩
      obtain ⟨contested, hashes⟩ := valid.mem_competingHeights.1 member
      rw [hashes] at named
      obtain ⟨c, storedToo, height, same⟩ := mem_hashesAt.1 named
      rwa [← valid.eq_of_hash_eq storedToo stored same, height]

end BlockStore

namespace Engine

variable {e : Engine}

/-- A flag that is set stays set. -/
theorem Built.flag_stays (built : e.Built) (as bs : List Announcement) {b : Block}
    (stored : b ∈ (e.appliedAll as).store.blocks) (flag : b.isCompeting = true) :
    ∃ c, (e.appliedAll (as ++ bs)).store.byHash? b.hash = some c ∧ c.isCompeting = true := by
  have reachable := appliedAll_reachable built.reachable as
  rw [appliedAll_append]
  obtain ⟨c, found, same⟩ := appliedAll_lasts reachable bs stored
  refine ⟨c, found, ?_⟩
  have later := (appliedAll_reachable reachable bs).valid
  have flagged := built.appliedAll_flagged (as ++ bs)
  rw [appliedAll_append] at flagged
  obtain ⟨member, _⟩ := later.byHash?_eq_some.1 found
  rw [flagged c member, later.isContested_iff member]
  -- The other block at the height is still there, and still at that height.
  rw [built.appliedAll_flagged as b stored, reachable.valid.isContested_iff stored] at flag
  obtain ⟨d, storedToo, other, height⟩ := flag
  obtain ⟨d', foundToo, sameToo⟩ := appliedAll_lasts reachable bs storedToo
  refine ⟨d', (later.byHash?_eq_some.1 foundToo).1, ?_, ?_⟩
  · rwa [Block.lasting_hash sameToo, Block.lasting_hash same]
  · rw [Block.lasting_height sameToo, Block.lasting_height same, height]

/-- However an engine was built: after any number of headers the flags and the contested heights tell
which blocks share a height, and no flag is ever taken back. -/
theorem Built.appliedAll_contests (built : e.Built) (as bs : List Announcement) :
    (e.appliedAll as).store.Contests ∧
      ∀ b ∈ (e.appliedAll as).store.blocks, b.isCompeting = true →
        ∃ c, (e.appliedAll (as ++ bs)).store.byHash? b.hash = some c ∧ c.isCompeting = true := by
  have valid := (appliedAll_reachable built.reachable as).valid
  exact ⟨(built.appliedAll_flagged as).contests valid, fun b => built.flag_stays as bs⟩

/-- An engine around two blocks of one height whose flags were never set, which then receives two of
another height. -/
theorem appliedAll_contests_stale :
    let store := (BlockStore.new .standard .childOnly).insertAll
      [⟨"a", .new 5 "0xa" "0x4"⟩, ⟨"b", .new 5 "0xb" "0x4"⟩]
    let told : List Announcement := [⟨"a", .new 6 "0xc" "0xa"⟩]
    let more : List Announcement := [⟨"b", .new 6 "0xd" "0xb"⟩]
    (ofStore store).Built ∧ store.blocks.map (·.isCompeting) = [false, false] ∧
      ((ofStore store).appliedAll told).store.blocks.map (·.isCompeting) = [true, true, false] ∧
      ((ofStore store).appliedAll told).store.Contests ∧
      ∀ b ∈ ((ofStore store).appliedAll told).store.blocks, b.isCompeting = true →
        ∃ c, ((ofStore store).appliedAll (told ++ more)).store.byHash? b.hash = some c ∧
          c.isCompeting = true := by
  intro store told more
  have built : (ofStore store).Built := .ofStore (.insertAll (.new .standard .childOnly) _)
  exact ⟨built, by decide +kernel, by decide +kernel, built.appliedAll_contests told more⟩

end Engine

end BlockGraph
