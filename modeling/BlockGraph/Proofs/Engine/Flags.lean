import BlockGraph.Proofs.Engine.Cycle

/-!
# The flags of an engine

An engine sets all flags when it is built, and each cycle sets those at the height that it has
changed. So at any time every flag tells whether the height of its block is contested.

* `Built.flagged` — the flags of an engine as it is built.
* `applied_flagged`, `Built.appliedAll_flagged` — the flags after one cycle and after any number.
-/

namespace BlockGraph

open BlockStore

/-! ## Positions do not count -/

/-- The block without its position. -/
def Block.unplaced (b : Block) : Block := { b with position := none }

namespace BlockStore

variable {s t : BlockStore}

theorem assignAll_unplaced (s : BlockStore) :
    (Lanes.assignAll s).2.blocks.map Block.unplaced = s.blocks.map Block.unplaced := by
  apply assignAll_induction (motive := fun t => t.blocks.map Block.unplaced = s.blocks.map Block.unplaced)
  · simp [clearPositions, Function.comp_def, Block.unplaced]
  · intro t hash position same
    have kept : (t.setPosition hash position).blocks.map Block.unplaced =
        t.blocks.map Block.unplaced := modify_map t hash fun _ => rfl
    exact kept.trans same

theorem Flagged.of_unplaced (flagged : s.Flagged)
    (same : t.blocks.map Block.unplaced = s.blocks.map Block.unplaced) : t.Flagged := by
  have hashesAt : ∀ (s : BlockStore) height, s.hashesAt height =
      ((s.blocks.map Block.unplaced).filter fun b => b.height == height).map (·.hash) := by
    intro s height
    simp [BlockStore.hashesAt, List.filter_map, Function.comp_def, Block.unplaced]
  intro b stored
  have member : b.unplaced ∈ s.blocks.map Block.unplaced := same ▸ List.mem_map_of_mem stored
  obtain ⟨c, here, equal⟩ := List.mem_map.1 member
  have flag : c.isCompeting = b.isCompeting := by injection equal
  have height : c.height = b.height := by injection equal
  rw [← flag, ← height, flagged c here, isContested, isContested, hashesAt s, hashesAt t, same]

end BlockStore

namespace Engine

variable {e : Engine} {source : String} {header : Header}

/-! ## The flags of an engine as it is built -/

theorem ofStore_flagged {s : BlockStore} (valid : s.Valid) : (ofStore s).store.Flagged :=
  valid.flagged_recomputeAll.of_unplaced (assignAll_unplaced _)

theorem Built.flagged (built : e.Built) : e.store.Flagged := by
  cases built with
  | new table policy => exact ofStore_flagged (.new table policy)
  | ofStore reachable => exact ofStore_flagged reachable.valid

/-! ## The flags after a cycle -/

theorem flagged_merged (valid : e.store.Valid) (flagged : e.store.Flagged) (known : Block) :
    (e.store.mergeKnown known header source).1.Flagged := by
  have blocks : (e.store.mergeKnown known header source).1.blocks = e.store.blocks.map fun b =>
      if b.hash = known.hash then
        { b with reportingSources := SortedSet.add b.reportingSources source }
      else b := by
    rw [mergeKnown_store]
    exact valid.modify_blocks ..
  have level := hashesAt_map blocks (fun b => by split <;> rfl) (fun b => by split <;> rfl)
  intro b stored
  rw [blocks] at stored
  obtain ⟨c, member, rfl⟩ := List.mem_map.1 stored
  rw [isContested, level]
  split
  · exact flagged c member
  · exact flagged c member

theorem hashesAt_settled (height : UInt64) :
    (e.settledStore source header).hashesAt height = (e.inserted source header).hashesAt height := by
  have blocks : (e.inserted source header).blocks =
      e.store.blocks ++ [e.store.newBlock header source] := insertNew_blocks
  simp only [hashesAt, settledStore, blocks, List.filter_append, List.map_append, List.filter_map,
    List.map_map, Function.comp_def, flaggedAt_hash, flaggedAt_height]
  congr 1
  have height : (e.settledBlock source header).height =
      (e.store.newBlock header source).height := rfl
  simp only [List.filter_cons, List.filter_nil, height]
  split <;> rfl

/-- A new block changes no other height than its own. -/
theorem hashesAt_elsewhere {height : UInt64} (elsewhere : height ≠ header.number) :
    (e.inserted source header).hashesAt height = e.store.hashesAt height := by
  have blocks : (e.inserted source header).blocks =
      e.store.blocks ++ [e.store.newBlock header source] := insertNew_blocks
  have none : ([e.store.newBlock header source].filter fun b => b.height == height) = [] := by
    simp [newBlock, Block.ofHeader, Ne.symm elsewhere]
  rw [hashesAt, blocks, List.filter_append, none, List.append_nil, hashesAt]

theorem flagged_settled (flagged : e.store.Flagged) : (e.settledStore source header).Flagged := by
  have contested : ∀ height, (e.settledStore source header).isContested height =
      (e.inserted source header).isContested height := fun height => by
    rw [isContested, hashesAt_settled, isContested]
  intro b stored
  rw [contested]
  rcases List.mem_append.1 stored with old | new
  · obtain ⟨c, member, rfl⟩ := List.mem_map.1 old
    rw [flaggedAt_height]
    unfold flaggedAt
    split
    next here => rw [here]
    -- At other heights there is no new block, so the old flag is still right.
    next elsewhere =>
      rw [flagged c member, isContested, isContested, hashesAt_elsewhere elsewhere]
  · rw [List.mem_singleton.1 new]
    rfl

/-- A cycle keeps the flags right. -/
theorem applied_flagged (valid : e.store.Valid) (flagged : e.store.Flagged) :
    (e.applied source header).store.Flagged := by
  cases blank : header.isBlank with
  | true => rw [apply_error e source header blank]; exact flagged
  | false =>
    cases found : e.store.byHash? header.hash with
    | some known =>
      rw [applied_known blank found]
      exact flagged_merged valid flagged known
    | none =>
      rw [applied_new valid blank (valid.byHash?_eq_none.1 found)]
      exact flagged_settled flagged

theorem appliedAll_flagged (reachable : e.store.Reachable) (flagged : e.store.Flagged)
    (as : List Announcement) : (e.appliedAll as).store.Flagged := by
  induction as generalizing e with
  | nil => exact flagged
  | cons a as ih =>
    exact ih (applied_reachable reachable) (applied_flagged reachable.valid flagged)

theorem Built.appliedAll_flagged (built : e.Built) (as : List Announcement) :
    (e.appliedAll as).store.Flagged :=
  Engine.appliedAll_flagged built.reachable built.flagged as

end Engine

end BlockGraph
