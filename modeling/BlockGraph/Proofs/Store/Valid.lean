import BlockGraph.Competing
import BlockGraph.Lanes
import BlockGraph.Proofs.Map

/-!
# Valid stores

What holds of a store and its indices at any time. The list of the blocks decides everything else:
the index tells each hash its place in the list, the height index groups the hashes, the edges are
those that the policy asks for, and the table of waiting children is the list of the orphans, grouped
by the parent that each one lacks.

* `Valid` — the invariant. It does not look at what is derived of a block (`valid_bare`).
* `Valid.byHash?_eq_some`, `Valid.mem_hashes`, `Valid.atHeight_eq` — a valid store is read like its
  list of blocks.
* `Valid.modify_blocks` — a change of one block, through the index, changes the block of the hash.
-/

namespace BlockGraph

/-- A list as an entry of a table that holds no empty lists. -/
def listed {α : Type} (l : List α) : Option (List α) := if l.isEmpty then none else some l

@[simp] theorem listed_nil {α : Type} : listed ([] : List α) = none := rfl

@[simp] theorem listed_append_singleton {α : Type} (l : List α) (a : α) :
    listed (l ++ [a]) = some (l ++ [a]) := by simp [listed]

@[simp] theorem listed_getD {α : Type} (l : List α) : (listed l).getD [] = l := by
  cases l <;> rfl

theorem listed_eq_some {α : Type} {l k : List α} : listed l = some k ↔ l ≠ [] ∧ k = l := by
  cases l <;> simp [listed, eq_comm]

/-- The block as its first header has announced it. -/
def Block.bare (b : Block) : Block :=
  { b with reportingSources := .empty, isCompeting := false, position := none }

@[simp] theorem Block.bare_hash (b : Block) : b.bare.hash = b.hash := rfl
@[simp] theorem Block.bare_parentHash (b : Block) : b.bare.parentHash = b.parentHash := rfl
@[simp] theorem Block.bare_height (b : Block) : b.bare.height = b.height := rfl
@[simp] theorem Block.bare_firstSeenAt (b : Block) : b.bare.firstSeenAt = b.firstSeenAt := rfl
@[simp] theorem Block.bare_isGenesis (b : Block) : b.bare.isGenesis = b.isGenesis := rfl

namespace BlockStore

variable {s : BlockStore}

/-- The hashes of the blocks at a height. -/
def hashesAt (s : BlockStore) (height : UInt64) : List String :=
  (s.blocks.filter fun b => b.height == height).map (·.hash)

/-- The hashes of the blocks that name a parent, above height zero. -/
def childrenOf (s : BlockStore) (parent : String) : List String :=
  (s.blocks.filter fun b => !b.isGenesis && b.parentHash == parent).map (·.hash)

/-- The hashes that have to wait for a parent. -/
def waitingFor (s : BlockStore) (parent : String) : List String :=
  if s.policy = .backfill ∧ parent ∉ s.hashes then s.childrenOf parent else []

/-- Whether the policy asks for an edge: both ends are stored, and the parent came first or the child
could wait for it. -/
def Linked (s : BlockStore) (e : Edge) : Prop :=
  ∃ parent ∈ s.blocks, ∃ child ∈ s.blocks,
    e = ⟨parent.hash, child.hash⟩ ∧ child.parentHash = parent.hash ∧ parent.hash ≠ child.hash ∧
      (parent.firstSeenAt < child.firstSeenAt ∨ s.policy = .backfill ∧ child.isGenesis = false)

/-- The list of the blocks decides the rest of the store. -/
structure Valid (s : BlockStore) : Prop where
  indexed : ∀ hash i, s.index.get? hash = some i ↔ s.hashes[i]? = some hash
  levelled : ∀ height, s.heights.get? height = listed (s.hashesAt height)
  counted : s.nextSequence = s.blocks.length
  numbered : s.blocks.map (·.firstSeenAt) = List.range s.blocks.length
  linked : ∀ e, e ∈ s.edges ↔ s.Linked e
  edges_nodup : s.edges.Nodup
  awaited : ∀ parent, s.waiting.get? parent = listed (s.waitingFor parent)

/-! ## What is derived of a block does not count -/

/-- The store with its blocks as they were announced, and without warnings. -/
def bare (s : BlockStore) : BlockStore :=
  { s with blocks := s.blocks.map Block.bare, warnings := [] }

@[simp] theorem bare_blocks : s.bare.blocks = s.blocks.map Block.bare := rfl
@[simp] theorem bare_index : s.bare.index = s.index := rfl
@[simp] theorem bare_heights : s.bare.heights = s.heights := rfl
@[simp] theorem bare_edges : s.bare.edges = s.edges := rfl
@[simp] theorem bare_waiting : s.bare.waiting = s.waiting := rfl
@[simp] theorem bare_nextSequence : s.bare.nextSequence = s.nextSequence := rfl
@[simp] theorem bare_policy : s.bare.policy = s.policy := rfl

@[simp] theorem bare_hashes : s.bare.hashes = s.hashes := by
  simp [hashes, Function.comp_def]

@[simp] theorem bare_hashesAt (height : UInt64) : s.bare.hashesAt height = s.hashesAt height := by
  simp [hashesAt, List.filter_map, Function.comp_def]

@[simp] theorem bare_waitingFor (parent : String) :
    s.bare.waitingFor parent = s.waitingFor parent := by
  simp [waitingFor, childrenOf, List.filter_map, Function.comp_def]

@[simp] theorem bare_linked (e : Edge) : s.bare.Linked e ↔ s.Linked e := by
  constructor
  · rintro ⟨_, first, _, second, shape⟩
    obtain ⟨parent, parentStored, rfl⟩ := List.mem_map.1 first
    obtain ⟨child, childStored, rfl⟩ := List.mem_map.1 second
    exact ⟨parent, parentStored, child, childStored, shape⟩
  · rintro ⟨parent, parentStored, child, childStored, shape⟩
    exact ⟨parent.bare, List.mem_map_of_mem parentStored, child.bare,
      List.mem_map_of_mem childStored, shape⟩

theorem valid_bare : s.bare.Valid ↔ s.Valid := by
  constructor <;> intro valid <;> exact
    { indexed := by simpa using valid.indexed
      levelled := by simpa using valid.levelled
      counted := by simpa using valid.counted
      numbered := by simpa [Function.comp_def] using valid.numbered
      linked := by simpa using valid.linked
      edges_nodup := by simpa using valid.edges_nodup
      awaited := by simpa using valid.awaited }

theorem Valid.of_bare {t : BlockStore} (valid : s.Valid) (same : t.bare = s.bare) : t.Valid := by
  rw [← valid_bare, same, valid_bare]
  exact valid

/-! ## Reading a valid store -/

namespace Valid

theorem hashes_nodup (valid : s.Valid) : s.hashes.Nodup := by
  rw [List.Nodup, List.pairwise_iff_getElem]
  intro i j left right before same
  -- A hash in two places of the list would have two places in the index.
  have first := (valid.indexed _ _).2 (List.getElem?_eq_getElem left)
  have second := (valid.indexed _ _).2 (List.getElem?_eq_getElem right)
  rw [same, second] at first
  exact absurd (Option.some.inj first) (Nat.ne_of_gt before)

theorem mem_hashes (valid : s.Valid) {hash : String} :
    s.contains hash = true ↔ hash ∈ s.hashes := by
  rw [contains, SortedMap.contains_eq_true, List.mem_iff_getElem?]
  simp only [valid.indexed]

theorem not_mem_hashes (valid : s.Valid) {hash : String} :
    s.contains hash = false ↔ hash ∉ s.hashes := by
  rw [← Bool.not_eq_true, valid.mem_hashes]

theorem byHash?_eq_some (valid : s.Valid) {hash : String} {b : Block} :
    s.byHash? hash = some b ↔ b ∈ s.blocks ∧ b.hash = hash := by
  simp only [byHash?, Option.bind_eq_some_iff, valid.indexed, hashes, List.getElem?_map,
    Option.map_eq_some_iff]
  constructor
  · rintro ⟨i, ⟨c, here, named⟩, found⟩
    obtain rfl : c = b := Option.some.inj (here.symm.trans found)
    exact ⟨List.mem_of_getElem? here, named⟩
  · rintro ⟨member, named⟩
    obtain ⟨i, here⟩ := List.mem_iff_getElem?.1 member
    exact ⟨i, ⟨b, here, named⟩, here⟩

theorem byHash?_eq_none (valid : s.Valid) {hash : String} :
    s.byHash? hash = none ↔ hash ∉ s.hashes := by
  simp only [Option.eq_none_iff_forall_ne_some, ne_eq, valid.byHash?_eq_some, hashes, List.mem_map,
    not_exists]

theorem byHash?_eq_find? (valid : s.Valid) (hash : String) :
    s.byHash? hash = s.blocks.find? (·.hash == hash) := by
  cases found : s.blocks.find? (·.hash == hash) with
  | some b =>
    rw [valid.byHash?_eq_some]
    exact ⟨List.mem_of_find?_eq_some found, by simpa using List.find?_some found⟩
  | none =>
    rw [valid.byHash?_eq_none]
    simpa [hashes] using found

theorem eq_of_hash_eq (valid : s.Valid) {b c : Block} (left : b ∈ s.blocks) (right : c ∈ s.blocks)
    (same : b.hash = c.hash) : b = c := by
  have first := valid.byHash?_eq_some.2 ⟨left, same⟩
  have second := valid.byHash?_eq_some.2 ⟨right, rfl⟩
  exact Option.some.inj (first.symm.trans second)

theorem atHeight_eq (valid : s.Valid) (height : UInt64) :
    s.atHeight height = s.hashesAt height := by
  rw [atHeight, valid.levelled, listed_getD]

theorem hashesAt_nodup (valid : s.Valid) (height : UInt64) : (s.hashesAt height).Nodup :=
  valid.hashes_nodup.sublist (List.filter_sublist.map _)

theorem mem_heights (valid : s.Valid) {height : UInt64} :
    height ∈ s.heights.keys ↔ ∃ b ∈ s.blocks, b.height = height := by
  rw [SortedMap.mem_keys, valid.levelled, Option.isSome_iff_exists]
  simp [listed_eq_some, hashesAt]

theorem tipHeight?_eq (valid : s.Valid) : s.tipHeight? = (s.blocks.map (·.height)).max? := by
  ext top
  rw [List.max?_eq_some_iff, tipHeight?, SortedMap.maxKey?_eq_some_iff]
  simp [valid.mem_heights]

theorem mem_orphans (valid : s.Valid) {b : Block} :
    b ∈ s.orphans ↔ b ∈ s.blocks ∧ b.isGenesis = false ∧ b.parentHash ∉ s.hashes := by
  simp [orphans, ← valid.mem_hashes]

/-! ## Changes of one block -/

theorem hash_eq_iff (valid : s.Valid) {hash : String} {i j : Nat} {b : Block}
    (place : s.index.get? hash = some i) (here : s.blocks[j]? = some b) :
    b.hash = hash ↔ i = j := by
  have named : s.index.get? b.hash = some j := by simp [valid.indexed, hashes, here]
  constructor
  · rintro rfl
    exact Option.some.inj (place.symm.trans named)
  · rintro rfl
    have both := (valid.indexed _ _).1 place
    simpa [hashes, here] using both

theorem modify_blocks (valid : s.Valid) (hash : String) (f : Block → Block) :
    (s.modify hash f).blocks = s.blocks.map fun b => if b.hash = hash then f b else b := by
  cases place : s.index.get? hash with
  | none =>
    have absent : hash ∉ s.hashes := by
      rw [← valid.not_mem_hashes, contains, SortedMap.contains_eq_false]
      exact place
    simp only [modify, place]
    -- No block has the hash, so neither side changes one.
    have unchanged : ∀ b ∈ s.blocks, (if b.hash = hash then f b else b) = b :=
      fun b member => if_neg fun same => absent (List.mem_map.2 ⟨b, member, same⟩)
    rw [List.map_congr_left unchanged, List.map_id']
  | some i =>
    simp only [modify, place]
    -- The block of the hash is the one at its place, and no other.
    apply List.ext_getElem?
    intro j
    rw [List.getElem?_modify, List.getElem?_map]
    cases here : s.blocks[j]? with
    | none => simp
    | some b =>
      by_cases same : i = j
      · simp [same, (valid.hash_eq_iff place here).2 same]
      · simp [same, mt (valid.hash_eq_iff place here).1 same]

end Valid

theorem modify_eq (s : BlockStore) (hash : String) (f : Block → Block) :
    s.modify hash f = { s with blocks := (s.modify hash f).blocks } := by
  unfold modify
  split <;> rfl

/-- What a change of a block leaves alone is the same in all blocks afterwards. -/
theorem modify_map {α : Type} (s : BlockStore) (hash : String) {f : Block → Block} {g : Block → α}
    (keeps : ∀ b, g (f b) = g b) : (s.modify hash f).blocks.map g = s.blocks.map g := by
  unfold modify
  split
  next i found =>
    apply List.ext_getElem?
    intro j
    rw [List.getElem?_map, List.getElem?_map, List.getElem?_modify]
    by_cases same : i = j
    · cases s.blocks[j]? <;> simp [same, keeps]
    · simp [same]
  next => rfl

end BlockStore

end BlockGraph
