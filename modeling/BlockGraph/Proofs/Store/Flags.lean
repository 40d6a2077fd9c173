import BlockGraph.Proofs.Store.Derived

/-!
# Flags of competing blocks

Recomputing the flags at a height sets the flag of every block there, and of no other block, to
whether the height is contested. What it lists are the blocks whose flag was another one.

* `Valid.recomputeCompeting_store`, `Valid.recomputeCompeting_changed` — what recomputing does.
* `Flagged` — all flags are right; recomputing every height makes them so (`flagged_recomputeAll`).
* `Flagged.eq_of_plain` — right flags follow from the rest of the store.
-/

namespace BlockGraph.BlockStore

variable {s : BlockStore}

/-- Whether more than one block stands at a height. -/
def isContested (s : BlockStore) (height : UInt64) : Bool := 2 ≤ (s.hashesAt height).length

/-- A block with the flag that its height asks for, if that is the height. -/
def flaggedAt (s : BlockStore) (height : UInt64) (b : Block) : Block :=
  if b.height = height then { b with isCompeting := s.isContested height } else b

@[simp] theorem flaggedAt_hash (height : UInt64) (b : Block) :
    (s.flaggedAt height b).hash = b.hash := by unfold flaggedAt; split <;> rfl

@[simp] theorem flaggedAt_height (height : UInt64) (b : Block) :
    (s.flaggedAt height b).height = b.height := by unfold flaggedAt; split <;> rfl

/-- Only a block with the wrong flag changes. -/
theorem flaggedAt_eq (height : UInt64) (b : Block) :
    s.flaggedAt height b =
      if b.height = height ∧ b.isCompeting ≠ s.isContested height then
        { b with isCompeting := s.isContested height }
      else b := by
  unfold flaggedAt
  by_cases here : b.height = height
  · by_cases right : b.isCompeting = s.isContested height
    · rw [if_pos here, if_neg fun wrong => wrong.2 right, ← right]
    · rw [if_pos here, if_pos ⟨here, right⟩]
  · rw [if_neg here, if_neg fun wrong => here wrong.1]

theorem hashesAt_map {t : BlockStore} {f : Block → Block} (blocks : t.blocks = s.blocks.map f)
    (hash : ∀ b, (f b).hash = b.hash) (height : ∀ b, (f b).height = b.height) (level : UInt64) :
    t.hashesAt level = s.hashesAt level := by
  simp [hashesAt, blocks, List.filter_map, Function.comp_def, hash, height]

theorem mem_hashesAt {height : UInt64} {hash : String} :
    hash ∈ s.hashesAt height ↔ ∃ b ∈ s.blocks, b.height = height ∧ b.hash = hash := by
  simp [hashesAt, and_assoc]

/-! ## Recomputing one height -/

theorem Valid.foldl_setCompeting (valid : s.Valid) (hashes : List String) (competing : Bool) :
    hashes.foldl (fun s hash => s.setCompeting hash competing) s =
      { s with blocks := s.blocks.map fun b =>
          if b.hash ∈ hashes then { b with isCompeting := competing } else b } := by
  induction hashes generalizing s with
  | nil => simp
  | cons hash hashes ih =>
    rw [List.foldl_cons, ih (valid.of_plain (setCompeting_plain ..)), setCompeting, modify_eq,
      valid.modify_blocks, List.map_map]
    congr 1
    apply List.map_congr_left
    intro b _
    by_cases first : b.hash = hash <;> by_cases later : b.hash ∈ hashes <;> simp_all

/-- The hashes at a height whose flag is another one than the height asks for. -/
def wronglyFlaggedAt (s : BlockStore) (height : UInt64) : List String :=
  (s.hashesAt height).filter fun hash =>
    (s.byHash? hash).any (·.isCompeting != s.isContested height)

theorem Valid.recomputeCompeting_eq (valid : s.Valid) (height : UInt64) :
    s.recomputeCompeting height =
      ((s.wronglyFlaggedAt height).foldl
          (fun t hash => t.setCompeting hash (s.isContested height)) s,
        (s.wronglyFlaggedAt height).map fun hash => (hash, s.isContested height)) := by
  simp only [recomputeCompeting, valid.atHeight_eq]
  rfl

theorem Valid.wronglyFlaggedAt_eq (valid : s.Valid) (height : UInt64) :
    s.wronglyFlaggedAt height =
      (s.blocks.filter fun b => b.height == height && b.isCompeting != s.isContested height).map
        (·.hash) := by
  rw [wronglyFlaggedAt, hashesAt, List.filter_map, List.filter_filter]
  congr 1
  apply List.filter_congr
  intro b stored
  simp only [Function.comp_apply, valid.byHash?_eq_some.2 ⟨stored, rfl⟩, Option.any_some]
  exact Bool.and_comm ..

theorem Valid.mem_wronglyFlaggedAt (valid : s.Valid) {height : UInt64} {b : Block}
    (stored : b ∈ s.blocks) :
    b.hash ∈ s.wronglyFlaggedAt height ↔
      b.height = height ∧ b.isCompeting ≠ s.isContested height := by
  rw [valid.wronglyFlaggedAt_eq]
  simp only [List.mem_map, List.mem_filter, Bool.and_eq_true, beq_iff_eq, bne_iff_ne]
  constructor
  -- The hash tells the block, so what holds of the one that was found holds of this one.
  · rintro ⟨c, ⟨member, found⟩, same⟩
    exact valid.eq_of_hash_eq member stored same ▸ found
  · exact fun found => ⟨b, ⟨stored, found⟩, rfl⟩

theorem Valid.recomputeCompeting_store (valid : s.Valid) (height : UInt64) :
    (s.recomputeCompeting height).1 = { s with blocks := s.blocks.map (s.flaggedAt height) } := by
  rw [valid.recomputeCompeting_eq]
  dsimp only
  rw [valid.foldl_setCompeting]
  congr 1
  apply List.map_congr_left
  intro b stored
  simp only [valid.mem_wronglyFlaggedAt stored, flaggedAt_eq]

/-- Recomputing the flags at a height lists the blocks there whose flag was another one. -/
theorem Valid.recomputeCompeting_changed (valid : s.Valid) (height : UInt64) :
    (s.recomputeCompeting height).2 =
      (s.wronglyFlaggedAt height).map fun hash => (hash, s.isContested height) := by
  rw [valid.recomputeCompeting_eq]

/-! ## All flags -/

/-- Every flag tells whether the height of its block is contested. -/
def Flagged (s : BlockStore) : Prop := ∀ b ∈ s.blocks, b.isCompeting = s.isContested b.height

theorem Valid.recomputeCompeting_isContested (valid : s.Valid) (height level : UInt64) :
    (s.recomputeCompeting height).1.isContested level = s.isContested level := by
  rw [isContested, isContested, valid.recomputeCompeting_store,
    hashesAt_map (t := { s with blocks := _ }) rfl (flaggedAt_hash height) (flaggedAt_height height)]

/-- Recomputing some heights makes the flags of their blocks right and keeps all others. -/
theorem Valid.flagged_foldl (valid : s.Valid) (heights : List UInt64)
    (right : ∀ b ∈ s.blocks, b.height ∉ heights → b.isCompeting = s.isContested b.height) :
    (heights.foldl (fun s height => (s.recomputeCompeting height).1) s).Flagged := by
  -- The heights that are left are the only ones where a flag may be wrong.
  induction heights generalizing s with
  | nil => exact fun b stored => right b stored (by simp)
  | cons height heights ih =>
    rw [List.foldl_cons]
    apply ih (valid.of_plain (recomputeCompeting_plain ..))
    intro b stored later
    rw [valid.recomputeCompeting_isContested]
    rw [valid.recomputeCompeting_store] at stored
    obtain ⟨c, member, rfl⟩ := List.mem_map.1 stored
    rw [flaggedAt_height] at later ⊢
    unfold flaggedAt
    split
    next here => rw [here]
    next elsewhere => exact right c member (by simp [elsewhere, later])

theorem Valid.flagged_recomputeAll (valid : s.Valid) :
    (s.heights.keys.foldl (fun s height => (s.recomputeCompeting height).1) s).Flagged :=
  valid.flagged_foldl _ fun _ stored absent => absurd (valid.mem_heights.2 ⟨_, stored, rfl⟩) absent

/-! ## What decides the flags -/

@[simp] theorem plain_hashesAt (s : BlockStore) (height : UInt64) :
    s.plain.hashesAt height = s.hashesAt height := by
  simp [hashesAt, plain, List.filter_map, Function.comp_def, Block.plain]

/-- A block is its plain form with its flag and its position. -/
theorem block_eq_of_plain {b c : Block} (plain : b.plain = c.plain)
    (flag : b.isCompeting = c.isCompeting) (position : b.position = c.position) : b = c := by
  have parts : ∀ b : Block, b = { b.plain with isCompeting := b.isCompeting, position := b.position } :=
    fun _ => rfl
  rw [parts b, parts c, plain, flag, position]

/-- Stores with right flags are equal if they agree in the positions and in what is not derived. -/
theorem Flagged.eq_of_plain {t : BlockStore} (flagged : s.Flagged) (flaggedToo : t.Flagged)
    (plain : s.plain = t.plain)
    (positions : s.blocks.map (·.position) = t.blocks.map (·.position)) : s = t := by
  have contested : ∀ height, s.isContested height = t.isContested height := by
    intro height
    rw [isContested, isContested, ← plain_hashesAt, plain, plain_hashesAt]
  have plainBlocks : s.blocks.map Block.plain = t.blocks.map Block.plain :=
    congrArg BlockStore.blocks plain
  have blocks : s.blocks = t.blocks := by
    apply List.ext_getElem?
    intro i
    have samePlain := congrArg (fun l : List Block => l[i]?) plainBlocks
    have samePosition := congrArg (fun l : List (Option Position) => l[i]?) positions
    simp only [List.getElem?_map] at samePlain samePosition
    cases here : s.blocks[i]? with
    | none =>
      rw [here] at samePlain
      exact (Option.map_eq_none_iff.1 samePlain.symm).symm
    | some b =>
      rw [here] at samePlain samePosition
      obtain ⟨c, there, same⟩ := Option.map_eq_some_iff.1 samePlain.symm
      rw [there] at samePosition ⊢
      have height : b.height = c.height := by injection same.symm
      refine congrArg some (block_eq_of_plain same.symm ?_ (Option.some.inj samePosition))
      rw [flagged b (List.mem_of_getElem? here), flaggedToo c (List.mem_of_getElem? there), height,
        contested]
  have parts : ∀ s : BlockStore, s = { s.plain with blocks := s.blocks } := fun _ => rfl
  rw [parts s, parts t, plain, blocks]

end BlockGraph.BlockStore
