import BlockGraph.Proofs.Store.Derived

/-!
# Lanes handed out in order

When each of some blocks is given the next free lane at its height, one after another, the lanes count
the blocks of every height, and the lane of a block counts those before it. Rebuilding a layout does
just that with all blocks of a store, whatever positions they had, as long as each lane can be numbered.

* `Laid` — the lanes after some blocks have been placed one after another.
* `Laid.lanesAt`, `Laid.position` — what the lanes and the positions are.
* `Laid.unique` — they follow from the heights of the blocks.
* `Laid.place_eq` — the lanes of few blocks do not run over.
* `Valid.assignAll_laid`, `Valid.rebuild_eq` — a layout that is rebuilt.
-/

namespace BlockGraph

/-- Lanes from which each of some blocks has taken the next free one at its height. -/
inductive Laid : Lanes → List Block → Prop
  | nil : Laid .new []
  | snoc {l : Lanes} {blocks : List Block} {b : Block} (laid : Laid l blocks)
      (placed : b.position = some ⟨b.height, l.lanesAt b.height⟩) :
      Laid ⟨l.next.insert b.height (l.lanesAt b.height + 1)⟩ (blocks ++ [b])

/-- The number of blocks at a height. -/
def countAt (height : UInt64) (blocks : List Block) : Nat := blocks.countP (·.height == height)

theorem countAt_append (height : UInt64) (blocks later : List Block) :
    countAt height (blocks ++ later) = countAt height blocks + countAt height later :=
  List.countP_append

theorem countAt_singleton (height : UInt64) (b : Block) :
    countAt height [b] = if b.height = height then 1 else 0 := by
  by_cases same : b.height = height <;> simp [countAt, same]

theorem Lanes.lanesAt_insert (l : Lanes) (height rank : UInt64) (lane : UInt32) :
    (⟨l.next.insert height lane⟩ : Lanes).lanesAt rank = if rank = height then lane else l.lanesAt rank := by
  rw [lanesAt, SortedMap.get?_insert]
  split <;> rfl

namespace Laid

variable {l : Lanes} {blocks : List Block}

/-- The lanes count the blocks, as far as a lane can be numbered. -/
theorem lanesAt (laid : Laid l blocks) (rank : UInt64) :
    l.lanesAt rank = .ofNat (countAt rank blocks) := by
  induction laid with
  | nil => rfl
  | @snoc l blocks b _ _ ih =>
    rw [Lanes.lanesAt_insert, countAt_append, countAt_singleton]
    by_cases here : rank = b.height
    · subst here
      rw [if_pos rfl, if_pos rfl, ih, UInt32.ofNat_add]
      rfl
    · rw [if_neg here, if_neg (Ne.symm here), Nat.add_zero, ih]

/-- The lane of a block counts the blocks of its height that were placed before. -/
theorem position (laid : Laid l blocks) {front back : List Block} {b : Block}
    (shape : blocks = front ++ b :: back) :
    b.position = some ⟨b.height, .ofNat (countAt b.height front)⟩ := by
  induction laid generalizing back with
  | nil => simp at shape
  | @snoc l blocks c laid placed ih =>
    -- The block is the last one, or it was there before.
    rcases List.eq_nil_or_concat back with rfl | ⟨back, last, rfl⟩
    · obtain ⟨rfl, same⟩ := List.append_inj' shape rfl
      obtain rfl := List.singleton_inj.1 same
      rw [placed, laid.lanesAt]
    · rw [List.concat_eq_append, ← List.cons_append, ← List.append_assoc] at shape
      exact ih (List.append_inj' shape rfl).1

/-- Only heights and positions count. -/
theorem map (laid : Laid l blocks) {f : Block → Block} (height : ∀ b, (f b).height = b.height)
    (position : ∀ b, (f b).position = b.position) : Laid l (blocks.map f) := by
  induction laid with
  | nil => exact .nil
  | @snoc l blocks b _ placed ih =>
    rw [List.map_append, List.map_singleton]
    have next := ih.snoc (b := f b) (by rw [position, height, placed])
    rwa [height] at next

/-- Blocks of the same heights get the same positions and leave the same lanes. -/
theorem unique (laid : Laid l blocks) {m : Lanes} {others : List Block} (laidToo : Laid m others)
    (heights : blocks.map (·.height) = others.map (·.height)) :
    l = m ∧ blocks.map (·.position) = others.map (·.position) := by
  induction laid generalizing m others with
  | nil =>
    cases laidToo with
    | nil => exact ⟨rfl, rfl⟩
    | snoc => simp at heights
  | @snoc l blocks b _ placed ih =>
    cases laidToo with
    | nil => simp at heights
    | @snoc m others c laidToo placedToo =>
      rw [List.map_append, List.map_append] at heights
      obtain ⟨before, last⟩ := List.append_inj' heights rfl
      have height : b.height = c.height := List.singleton_inj.1 last
      obtain ⟨rfl, positions⟩ := ih laidToo before
      have position : b.position = c.position := by rw [placed, placedToo, height]
      refine ⟨by rw [height], ?_⟩
      rw [List.map_append, List.map_append, positions, List.map_singleton, position]
      rfl

/-- With less blocks at its height than lanes can be numbered, a block is placed where it is assigned. -/
theorem place_eq (laid : Laid l blocks) {b : Block} (unplaced : b.position = none)
    (few : countAt b.height blocks + 1 < UInt32.size) : l.place b = some (l.assign b) := by
  have lane : (l.assign b).2.lane = .ofNat (countAt b.height blocks) := by
    simp [Lanes.assign, unplaced, laid.lanesAt]
  have spare : (l.assign b).2.lane ≠ Lanes.lastLane := by
    intro last
    have counted := congrArg UInt32.toNat (lane.symm.trans last)
    rw [UInt32.toNat_ofNat_of_lt' (Nat.lt_of_succ_lt few)] at counted
    have size : Lanes.lastLane.toNat + 1 = UInt32.size := rfl
    omega
  exact Lanes.place_eq_some.2 ⟨spare, rfl⟩

end Laid

/-! ## Rebuilding a layout -/

namespace BlockStore

variable {s : BlockStore}

/-- Assigning lanes to the blocks that are left behind those that have their positions. -/
theorem Valid.foldl_assignIn_laid (valid : s.Valid) {l : Lanes} {done rest : List Block}
    (blocks : s.blocks = done ++ rest) (laid : Laid l done)
    (unplaced : ∀ b ∈ rest, b.position = none) :
    let after := (rest.map (·.hash)).foldl
      (fun state hash => ((state.1.assignIn state.2 hash).1, (state.1.assignIn state.2 hash).2.1)) (l, s)
    Laid after.1 after.2.blocks ∧ ((∀ height, countAt height s.blocks < UInt32.size) →
      (rest.map (·.hash)).foldlM (fun (l, s) hash => (Lanes.placeIn l s hash).map fun (l, s, _) => (l, s))
        (l, s) = some after) := by
  induction rest generalizing l s done with
  | nil => exact ⟨by simpa [blocks] using laid, fun _ => rfl⟩
  | cons b rest ih =>
    have stored : b ∈ s.blocks := by simp [blocks]
    have found : s.byHash? b.hash = some b := valid.byHash?_eq_some.2 ⟨stored, rfl⟩
    have nodup := valid.hashes_nodup
    simp only [hashes, blocks, List.map_append, List.map_cons, List.nodup_append, List.nodup_cons,
      List.mem_map, List.mem_cons] at nodup
    obtain ⟨_, ⟨absent, _⟩, apart⟩ := nodup
    let placed : Block := { b with position := some ⟨b.height, l.lanesAt b.height⟩ }
    have after : (s.setPosition b.hash ⟨b.height, l.lanesAt b.height⟩).blocks =
        (done ++ [placed]) ++ rest := by
      rw [setPosition, valid.modify_blocks, blocks, List.map_append, List.map_cons, List.append_assoc]
      -- No other block has the hash.
      congr 1
      · refine (List.map_congr_left fun c member => if_neg fun same => ?_).trans (List.map_id' _)
        exact apart c.hash ⟨c, member, rfl⟩ b.hash (.inl rfl) same
      · rw [if_pos rfl]
        refine congrArg (placed :: ·) ((List.map_congr_left fun c member => if_neg fun same => ?_).trans
          (List.map_id' _))
        exact absent ⟨c, member, same⟩
    have new : b.position = none := unplaced b (by simp)
    obtain ⟨laidAll, returned⟩ := ih (valid.of_plain (setPosition_plain ..)) after
      (laid.snoc (b := placed) rfl) fun c member => unplaced c (List.mem_cons_of_mem b member)
    rw [List.map_cons, List.foldl_cons, List.foldlM_cons, assignIn_new found new]
    refine ⟨laidAll, fun few => ?_⟩
    have here : countAt b.height done + 1 < UInt32.size := by
      have all := few b.height
      rw [blocks, List.append_cons, countAt_append, countAt_append, countAt_singleton, if_pos rfl] at all
      omega
    dsimp only
    rw [Lanes.placeIn_eq found (laid.place_eq new here), assignIn_new found new]
    refine returned fun height => ?_
    have same : countAt height [placed] = countAt height [b] := rfl
    have all := few height
    rw [blocks, List.append_cons, countAt_append, countAt_append, ← same] at all
    rwa [after, countAt_append, countAt_append]

theorem Valid.assignAll_placed (valid : s.Valid) :
    Laid (Lanes.assignAll s).1 (Lanes.assignAll s).2.blocks ∧
      ((∀ height, countAt height s.blocks < UInt32.size) →
        Lanes.rebuild s = some (Lanes.assignAll s)) := by
  have cleared : s.clearPositions.Valid := valid.of_plain (clearPositions_plain s)
  have hashes : s.hashes = s.clearPositions.blocks.map (·.hash) := by
    simp [BlockStore.hashes, clearPositions, Function.comp_def]
  have counts (height : UInt64) : countAt height s.clearPositions.blocks = countAt height s.blocks :=
    List.countP_map
  rw [Lanes.assignAll, Lanes.rebuild, hashes]
  have all := cleared.foldl_assignIn_laid (List.nil_append _).symm .nil fun b member => by
    obtain ⟨c, _, rfl⟩ := List.mem_map.1 member
    rfl
  refine ⟨all.1, fun few => all.2 fun height => ?_⟩
  rw [counts]
  exact few height

/-- A layout that is rebuilt gives every block the next free lane, in the order of their arrival. -/
theorem Valid.assignAll_laid (valid : s.Valid) : Laid (Lanes.assignAll s).1 (Lanes.assignAll s).2.blocks :=
  valid.assignAll_placed.1

/-- With less blocks at each height than lanes can be numbered, rebuilding a layout returns. -/
theorem Valid.rebuild_eq (valid : s.Valid) (few : ∀ height, countAt height s.blocks < UInt32.size) :
    Lanes.rebuild s = some (Lanes.assignAll s) := valid.assignAll_placed.2 few

end BlockStore

end BlockGraph
