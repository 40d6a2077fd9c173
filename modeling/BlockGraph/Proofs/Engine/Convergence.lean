import BlockGraph.Proofs.Engine.Flags
import BlockGraph.Proofs.Store.Alike
import BlockGraph.Proofs.Store.Reference

/-!
# Convergence

Where late parents are linked, the graph does not depend on the order in which headers arrive, nor on
how often each source repeats one: two engines that receive the same announcements show the same
graph.

* `Orderless` — which announcements may arrive in any order.
* `appliedAll_alike` — engines that receive the same announcements have the same blocks.
* `appliedAll_agrees` — they show the same graph.
-/

namespace BlockGraph

/-- Announcements whose order does not count: all headers of a hash are equal, and none of height zero
names another one as its parent. -/
structure Orderless (as : List Announcement) : Prop where
  consistent : ∀ a ∈ as, ∀ b ∈ as, a.header.hash = b.header.hash → a.header = b.header
  grounded : ∀ a ∈ as, a.header.number = 0 → ∀ b ∈ as, b.header.hash = a.header.parentHash →
    b.header = a.header

theorem Orderless.congr {as bs : List Announcement} (orderless : Orderless as)
    (same : ∀ a, a ∈ as ↔ a ∈ bs) : Orderless bs := by
  constructor
  · intro a left b right
    exact orderless.consistent a ((same a).2 left) b ((same b).2 right)
  · intro a left zero b right
    exact orderless.grounded a ((same a).2 left) zero b ((same b).2 right)

theorem Orderless.admitted {as : List Announcement} (orderless : Orderless as) :
    Orderless (BlockStore.admitted as) where
  consistent a left b right :=
    orderless.consistent a (List.mem_filter.1 left).1 b (List.mem_filter.1 right).1
  grounded a left zero b right :=
    orderless.grounded a (List.mem_filter.1 left).1 zero b (List.mem_filter.1 right).1

namespace Reference

variable {as bs : List Announcement}

theorem sources_congr (same : ∀ a, a ∈ as ↔ a ∈ bs) (hash : String) :
    sources as hash = sources bs hash := by
  apply SortedSet.ext_contains
  intro source
  rw [sources, sources, SortedSet.contains_ofList, SortedSet.contains_ofList]
  simp [same]

/-- Every header of a hash is its first one. -/
theorem mem_firsts_iff
    (consistent : ∀ a ∈ as, ∀ b ∈ as, a.header.hash = b.header.hash → a.header = b.header)
    {header : Header} : header ∈ firsts as ↔ ∃ a ∈ as, a.header = header := by
  rw [mem_firsts]
  constructor
  · intro first
    obtain ⟨a, found, rfl⟩ := Option.map_eq_some_iff.1 first
    exact ⟨a, List.mem_of_find?_eq_some found, rfl⟩
  · rintro ⟨a, member, rfl⟩
    -- There is a first header of the hash, and all headers of a hash are equal.
    have known := first?_isSome.2 ⟨a, member, rfl⟩
    obtain ⟨header, first⟩ := Option.isSome_iff_exists.1 known
    obtain ⟨b, found, rfl⟩ := Option.map_eq_some_iff.1 first
    have named := first?_hash first
    rw [first, consistent b (List.mem_of_find?_eq_some found) a member named]

theorem mem_blocks_announced {table : SealTable} {b : Block} :
    b ∈ (blocks table as).map Block.announced ↔ ∃ header ∈ firsts as, block table as 0 header = b := by
  rw [List.mem_map, blocks]
  constructor
  · rintro ⟨c, member, rfl⟩
    obtain ⟨i, bound, rfl⟩ := List.mem_mapIdx.1 member
    exact ⟨(firsts as)[i], List.getElem_mem bound, rfl⟩
  · rintro ⟨header, member, rfl⟩
    obtain ⟨i, bound, rfl⟩ := List.getElem_of_mem member
    exact ⟨_, List.mem_mapIdx.2 ⟨i, bound, rfl⟩, rfl⟩

end Reference

theorem BlockStore.announced_plain (s : BlockStore) :
    s.plain.blocks.map Block.announced = s.blocks.map Block.announced := by
  simp only [plain, List.map_map]
  rfl

namespace Engine

open BlockStore

variable {as bs : List Announcement}

theorem new_store (table : SealTable) (policy : EdgePolicy) :
    (Engine.new table policy).store = BlockStore.new table policy := rfl

/-- An engine that receives announcements has, apart from flags and positions, the store of their
insertion. -/
theorem appliedAll_new_plain (table : SealTable) (policy : EdgePolicy) (as : List Announcement) :
    ((Engine.new table policy).appliedAll as).store.plain =
      (BlockStore.new table policy).insertAll as := by
  rw [appliedAll_plain (Built.new table policy).reachable, new_store]
  rfl

theorem appliedAll_new_policy (table : SealTable) (policy : EdgePolicy) (as : List Announcement) :
    ((Engine.new table policy).appliedAll as).store.policy = policy := by
  have plain := congrArg BlockStore.policy (appliedAll_new_plain table policy as)
  exact plain.trans (insertAll_kept _ as).2

/-- The blocks of an engine are those of the headers that were not refused. -/
theorem mem_appliedAll_blocks {table : SealTable} {policy : EdgePolicy} {b : Block} :
    b ∈ ((Engine.new table policy).appliedAll as).store.blocks.map Block.announced ↔
      ∃ header ∈ Reference.firsts (admitted as), Reference.block table (admitted as) 0 header = b := by
  have blocks := ((refines_new table policy).insertAll as).blocks
  rw [(insertAll_kept _ as).1, ← appliedAll_new_plain] at blocks
  rw [← Reference.mem_blocks_announced, ← announced_plain, blocks]
  rfl

/-! ## Announcements in another order -/

theorem mem_admitted (same : ∀ a, a ∈ as ↔ a ∈ bs) (a : Announcement) :
    a ∈ admitted as ↔ a ∈ admitted bs := by
  simp [admitted, same]

theorem mem_firsts_admitted (orderless : Orderless as) {header : Header} :
    header ∈ Reference.firsts (admitted as) ↔ ∃ a ∈ admitted as, a.header = header :=
  Reference.mem_firsts_iff orderless.admitted.consistent

theorem block_congr (table : SealTable) (same : ∀ a, a ∈ as ↔ a ∈ bs) (header : Header) :
    Reference.block table as 0 header = Reference.block table bs 0 header := by
  rw [Reference.block, Reference.sources_congr same, Reference.block]

/-- Engines that receive the same announcements have the same blocks. -/
theorem appliedAll_alike (table : SealTable) (policy : EdgePolicy) (same : ∀ a, a ∈ as ↔ a ∈ bs)
    (orderless : Orderless as) :
    Alike ((Engine.new table policy).appliedAll as).store
      ((Engine.new table policy).appliedAll bs).store where
  left := (appliedAll_reachable (Built.new table policy).reachable as).valid
  right := (appliedAll_reachable (Built.new table policy).reachable bs).valid
  blocks b := by
    simp only [mem_appliedAll_blocks, mem_firsts_admitted orderless,
      mem_firsts_admitted (orderless.congr same), mem_admitted same,
      block_congr table (mem_admitted same)]

/-- No block of height zero names a parent if no header does. -/
theorem appliedAll_grounded (table : SealTable) (policy : EdgePolicy) (orderless : Orderless as) :
    ((Engine.new table policy).appliedAll as).store.Grounded := by
  -- Every block comes from an announcement.
  have origin : ∀ b ∈ ((Engine.new table policy).appliedAll as).store.blocks,
      ∃ a ∈ as, b.hash = a.header.hash ∧ b.parentHash = a.header.parentHash ∧
        b.height = a.header.number := by
    intro b stored
    obtain ⟨header, first, same⟩ := mem_appliedAll_blocks.1 (List.mem_map_of_mem stored)
    obtain ⟨a, member, rfl⟩ := (mem_firsts_admitted orderless).1 first
    refine ⟨a, (List.mem_filter.1 member).1, ?_, ?_, ?_⟩
    · exact congrArg Block.hash same.symm
    · exact congrArg Block.parentHash same.symm
    · exact congrArg Block.height same.symm
  intro b stored genesis c storedToo named
  obtain ⟨a, member, hash, parentHash, height⟩ := origin b stored
  obtain ⟨d, memberToo, hashToo, _⟩ := origin c storedToo
  have zero : a.header.number = 0 := by
    rw [← height]
    simpa [Block.isGenesis] using genesis
  have parent : d.header.hash = a.header.parentHash := by rw [← hashToo, named, parentHash]
  rw [hash, hashToo, orderless.grounded a member zero d memberToo parent]

/-- Engines that link late parents and receive the same announcements, in any order and any number of
times, show the same graph. -/
theorem appliedAll_agrees (table : SealTable) (same : ∀ a, a ∈ as ↔ a ∈ bs)
    (orderless : Orderless as) :
    Agrees ((Engine.new table .backfill).appliedAll as).store
      ((Engine.new table .backfill).appliedAll bs).store := by
  have built := Built.new table .backfill
  exact (appliedAll_alike table .backfill same orderless).agrees
    (built.appliedAll_flagged as) (built.appliedAll_flagged bs)
    (appliedAll_new_policy table .backfill as) (appliedAll_new_policy table .backfill bs)
    (appliedAll_grounded table .backfill orderless)
    (appliedAll_grounded table .backfill (orderless.congr same))

/-- A child and its parent, in both orders, and one of them twice. -/
theorem appliedAll_agrees_reversed :
    let parent : Announcement := ⟨"a", .new 1 "0x1" "0x0"⟩
    let child : Announcement := ⟨"b", .new 2 "0x2" "0x1"⟩
    (∀ a, a ∈ [parent, child] ↔ a ∈ [child, parent, child]) ∧ Orderless [parent, child] ∧
      Agrees ((Engine.new .standard .backfill).appliedAll [parent, child]).store
        ((Engine.new .standard .backfill).appliedAll [child, parent, child]).store := by
  intro parent child
  have same : ∀ a, a ∈ [parent, child] ↔ a ∈ [child, parent, child] := by
    intro a
    simp only [List.mem_cons, List.not_mem_nil, or_false]
    constructor
    · rintro (rfl | rfl) <;> simp
    · rintro (rfl | rfl | rfl) <;> simp
  have orderless : Orderless [parent, child] := by
    constructor <;> simp [parent, child, Header.new]
  exact ⟨same, orderless, appliedAll_agrees .standard same orderless⟩

end Engine

end BlockGraph
