import BlockGraph.Proofs.Store.Flags

/-!
# Stores with the same blocks

Two stores that have the same blocks, apart from the order of their arrival, show the same graph: the
same levels, the same orphans and, where late parents are linked, the same edges.

* `Alike` — the two stores have the same blocks.
* `Agrees` — the two stores show the same graph.
* `Alike.agrees` — the first leads to the second, unless a block of height zero names a parent.
-/

namespace BlockGraph

namespace Block

/-- The block apart from its arrival and its position. -/
def timeless (b : Block) : Block := { b with firstSeenAt := 0, position := none }

/-- The block as all of its headers have told it. -/
def announced (b : Block) : Block := { b.timeless with isCompeting := false }

variable {b c : Block}

theorem announced_hash (same : b.announced = c.announced) : b.hash = c.hash := by
  injection same
theorem announced_parentHash (same : b.announced = c.announced) : b.parentHash = c.parentHash := by
  injection same
theorem announced_height (same : b.announced = c.announced) : b.height = c.height := by
  injection same
theorem announced_isGenesis (same : b.announced = c.announced) : b.isGenesis = c.isGenesis := by
  rw [isGenesis, announced_height same, isGenesis]

end Block

namespace BlockStore

variable {s t : BlockStore}

/-- Both stores have the same blocks, perhaps in another order and with other flags and positions. -/
structure Alike (s t : BlockStore) : Prop where
  left : s.Valid
  right : t.Valid
  blocks : ∀ b, b ∈ s.blocks.map Block.announced ↔ b ∈ t.blocks.map Block.announced

/-- No block of height zero names another one as its parent. -/
def Grounded (s : BlockStore) : Prop :=
  ∀ b ∈ s.blocks, b.isGenesis = true → ∀ c ∈ s.blocks, c.hash = b.parentHash → c.hash = b.hash

/-- Both stores show the same graph. -/
structure Agrees (s t : BlockStore) : Prop where
  byHash? : ∀ hash, (s.byHash? hash).map Block.timeless = (t.byHash? hash).map Block.timeless
  edges : s.edges.Perm t.edges
  orphans : (s.orphans.map Block.timeless).Perm (t.orphans.map Block.timeless)
  atHeight : ∀ height, (s.atHeight height).Perm (t.atHeight height)
  tipHeight? : s.tipHeight? = t.tipHeight?
  competingHeights : s.competingHeights.map (·.height) = t.competingHeights.map (·.height)

/-! ## Lists without repetitions -/

theorem Valid.orphans_nodup (valid : s.Valid) : (s.orphans.map Block.timeless).Nodup := by
  have hashes : (s.orphans.map (·.hash)).Nodup :=
    valid.hashes_nodup.sublist (List.filter_sublist.map _)
  rw [List.Nodup, List.pairwise_map] at hashes ⊢
  exact hashes.imp fun differ same => differ (by injection same)

theorem Valid.competingHeights_height (valid : s.Valid) :
    s.competingHeights.map (·.height) = s.heights.keys.filter s.isContested := by
  rw [competingHeights, List.map_map, SortedMap.keys, List.filter_map]
  congr 1
  apply List.filter_congr
  rintro ⟨height, hashes⟩ entry
  have level : s.heights.get? height = some hashes := SortedMap.get?_of_mem entry
  have listed := valid.levelled height
  rw [level, eq_comm, listed_eq_some] at listed
  simp only [Function.comp_apply, isContested, listed.2]
  rfl

namespace Alike

theorem symm (alike : Alike s t) : Alike t s := ⟨alike.right, alike.left, fun b => (alike.blocks b).symm⟩

theorem other (alike : Alike s t) {b : Block} (stored : b ∈ s.blocks) :
    ∃ c ∈ t.blocks, c.announced = b.announced :=
  List.mem_map.1 ((alike.blocks _).1 (List.mem_map_of_mem stored))

theorem hashes_subset (alike : Alike s t) {hash : String} (stored : hash ∈ s.hashes) :
    hash ∈ t.hashes := by
  obtain ⟨b, member, rfl⟩ := List.mem_map.1 stored
  obtain ⟨c, here, same⟩ := alike.other member
  exact List.mem_map.2 ⟨c, here, Block.announced_hash same⟩

theorem mem_hashes (alike : Alike s t) (hash : String) : hash ∈ s.hashes ↔ hash ∈ t.hashes :=
  ⟨alike.hashes_subset, alike.symm.hashes_subset⟩

theorem hashesAt_subset (alike : Alike s t) {height : UInt64} {hash : String}
    (stored : hash ∈ s.hashesAt height) : hash ∈ t.hashesAt height := by
  obtain ⟨b, member, rfl, rfl⟩ := mem_hashesAt.1 stored
  obtain ⟨c, here, same⟩ := alike.other member
  exact mem_hashesAt.2 ⟨c, here, Block.announced_height same, Block.announced_hash same⟩

theorem hashesAt_perm (alike : Alike s t) (height : UInt64) :
    (s.hashesAt height).Perm (t.hashesAt height) := by
  refine (List.perm_ext_iff_of_nodup ?_ ?_).2 fun hash =>
    ⟨alike.hashesAt_subset, alike.symm.hashesAt_subset⟩
  · exact alike.left.hashesAt_nodup height
  · exact alike.right.hashesAt_nodup height

theorem isContested (alike : Alike s t) : s.isContested = t.isContested := by
  funext height
  rw [BlockStore.isContested, (alike.hashesAt_perm height).length_eq, BlockStore.isContested]

/-! ## Blocks -/

theorem timeless_eq (alike : Alike s t) (flagged : s.Flagged) (flaggedToo : t.Flagged) {b c : Block}
    (left : b ∈ s.blocks) (right : c ∈ t.blocks) (same : c.announced = b.announced) :
    c.timeless = b.timeless := by
  -- The flags follow from the levels, which are the same.
  have flag : c.isCompeting = b.isCompeting := by
    rw [flagged b left, flaggedToo c right, alike.isContested, Block.announced_height same]
  have split : ∀ b : Block, b.timeless = { b.announced with isCompeting := b.isCompeting } :=
    fun _ => rfl
  rw [split, split, same, flag]

theorem byHash?_le (alike : Alike s t) (flagged : s.Flagged) (flaggedToo : t.Flagged) {hash : String}
    {b : Block} (found : s.byHash? hash = some b) :
    (t.byHash? hash).map Block.timeless = some b.timeless := by
  obtain ⟨member, rfl⟩ := alike.left.byHash?_eq_some.1 found
  obtain ⟨c, here, same⟩ := alike.other member
  rw [alike.right.byHash?_eq_some.2 ⟨here, Block.announced_hash same⟩, Option.map_some,
    alike.timeless_eq flagged flaggedToo member here same]

theorem byHash? (alike : Alike s t) (flagged : s.Flagged) (flaggedToo : t.Flagged) (hash : String) :
    (s.byHash? hash).map Block.timeless = (t.byHash? hash).map Block.timeless := by
  cases left : s.byHash? hash with
  | some b => exact (alike.byHash?_le flagged flaggedToo left).symm
  | none =>
    cases right : t.byHash? hash with
    | some c =>
      have both := alike.symm.byHash?_le flaggedToo flagged right
      rw [left] at both
      cases both
    | none => rfl

/-! ## Edges -/

theorem linked (alike : Alike s t) (backfill : t.policy = .backfill) (grounded : s.Grounded)
    {e : Edge} (linked : s.Linked e) : t.Linked e := by
  obtain ⟨parent, parentStored, child, childStored, rfl, named, differ, _⟩ := linked
  obtain ⟨first, firstStored, sameParent⟩ := alike.other parentStored
  obtain ⟨second, secondStored, sameChild⟩ := alike.other childStored
  have parentHash := Block.announced_hash sameParent
  have childHash := Block.announced_hash sameChild
  refine ⟨first, firstStored, second, secondStored, ?_, ?_, ?_, .inr ⟨backfill, ?_⟩⟩
  · rw [parentHash, childHash]
  · rw [Block.announced_parentHash sameChild, named, parentHash]
  · rwa [parentHash, childHash]
  -- Which of the two came first does not count, as the child stands above height zero.
  · rw [Block.announced_isGenesis sameChild, ← Bool.not_eq_true]
    exact fun genesis => differ (grounded child childStored genesis parent parentStored named.symm)

/-! ## Orphans -/

theorem orphans_subset (alike : Alike s t) (flagged : s.Flagged) (flaggedToo : t.Flagged) {b : Block}
    (orphan : b ∈ s.orphans.map Block.timeless) : b ∈ t.orphans.map Block.timeless := by
  obtain ⟨b, listed, rfl⟩ := List.mem_map.1 orphan
  obtain ⟨member, above, missing⟩ := alike.left.mem_orphans.1 listed
  obtain ⟨c, here, same⟩ := alike.other member
  refine List.mem_map.2 ⟨c, alike.right.mem_orphans.2 ⟨here, ?_, ?_⟩,
    alike.timeless_eq flagged flaggedToo member here same⟩
  · rw [Block.announced_isGenesis same, above]
  · rwa [Block.announced_parentHash same, ← alike.mem_hashes]

/-! ## Heights -/

theorem mem_heights (alike : Alike s t) (height : UInt64) :
    height ∈ s.heights.keys ↔ height ∈ t.heights.keys := by
  have one : ∀ {s t : BlockStore}, Alike s t → height ∈ s.heights.keys → height ∈ t.heights.keys := by
    intro s t alike level
    obtain ⟨b, member, rfl⟩ := alike.left.mem_heights.1 level
    obtain ⟨c, here, same⟩ := alike.other member
    exact alike.right.mem_heights.2 ⟨c, here, Block.announced_height same⟩
  exact ⟨one alike, one alike.symm⟩

/-- Stores with the same blocks show the same graph. -/
theorem agrees (alike : Alike s t) (flagged : s.Flagged) (flaggedToo : t.Flagged)
    (backfill : s.policy = .backfill) (backfillToo : t.policy = .backfill) (grounded : s.Grounded)
    (groundedToo : t.Grounded) : Agrees s t where
  byHash? := alike.byHash? flagged flaggedToo
  edges := by
    refine (List.perm_ext_iff_of_nodup alike.left.edges_nodup alike.right.edges_nodup).2 fun e => ?_
    rw [alike.left.linked, alike.right.linked]
    exact ⟨alike.linked backfillToo grounded, alike.symm.linked backfill groundedToo⟩
  orphans := (List.perm_ext_iff_of_nodup (alike.left.orphans_nodup) (alike.right.orphans_nodup)).2
    fun _ => ⟨alike.orphans_subset flagged flaggedToo, alike.symm.orphans_subset flaggedToo flagged⟩
  atHeight height := by
    rw [alike.left.atHeight_eq, alike.right.atHeight_eq]
    exact alike.hashesAt_perm height
  tipHeight? := by
    ext top
    rw [tipHeight?, tipHeight?, SortedMap.maxKey?_eq_some_iff, SortedMap.maxKey?_eq_some_iff,
      SortedMap.keys_eq_of_mem_iff alike.mem_heights]
  competingHeights := by
    rw [alike.left.competingHeights_height, alike.right.competingHeights_height, alike.isContested,
      SortedMap.keys_eq_of_mem_iff alike.mem_heights]

end Alike

end BlockStore

end BlockGraph
