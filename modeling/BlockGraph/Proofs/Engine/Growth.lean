import BlockGraph.Proofs.Engine.Cycle

/-!
# The growth of an engine

The blocks of an engine only become more. A block that is there gains sources and may get another
flag; its place among the blocks and everything else that it carries stays, its position included.

* `Block.lasting` — what stays of a block.
* `appliedAll_grows` — the blocks before any number of headers are the first ones after them.
-/

namespace BlockGraph

open BlockStore

/-- The block without what a later header may change of it. -/
def Block.lasting (b : Block) : Block := { b with reportingSources := .empty, isCompeting := false }

section
variable {b c : Block}

theorem Block.lasting_hash (same : b.lasting = c.lasting) : b.hash = c.hash := by injection same

theorem Block.lasting_height (same : b.lasting = c.lasting) : b.height = c.height := by injection same

theorem Block.lasting_position (same : b.lasting = c.lasting) : b.position = c.position := by
  injection same

end

theorem BlockStore.flaggedAt_lasting (s : BlockStore) (height : UInt64) (b : Block) :
    (s.flaggedAt height b).lasting = b.lasting := by
  unfold flaggedAt
  split <;> rfl

namespace Engine

variable {e : Engine} {source : String} {header : Header}

/-- A cycle adds a block behind all others, or none. -/
theorem applied_grows (valid : e.store.Valid) :
    e.store.blocks.map Block.lasting <+: (e.applied source header).store.blocks.map Block.lasting := by
  cases blank : header.isBlank with
  | true =>
    refine ⟨[], ?_⟩
    rw [List.append_nil, apply_error e source header blank]
  | false =>
    cases found : e.store.byHash? header.hash with
    | some known =>
      have kept : (e.store.mergeKnown known header source).1.blocks.map Block.lasting =
          e.store.blocks.map Block.lasting := by
        rw [mergeKnown_store]
        exact modify_map e.store known.hash fun _ => rfl
      refine ⟨[], ?_⟩
      rw [List.append_nil, applied_known blank found, kept]
    | none =>
      rw [applied_new valid blank (valid.byHash?_eq_none.1 found)]
      simp only [settledStore, List.map_append, List.map_map, Function.comp_def, flaggedAt_lasting]
      exact List.prefix_append ..

theorem appliedAll_grows (reachable : e.store.Reachable) (as : List Announcement) :
    e.store.blocks.map Block.lasting <+: (e.appliedAll as).store.blocks.map Block.lasting := by
  induction as generalizing e with
  | nil => exact List.prefix_rfl
  | cons a as ih => exact (applied_grows reachable.valid).trans (ih (applied_reachable reachable))

/-- A block is still there after any number of headers. -/
theorem appliedAll_lasts (reachable : e.store.Reachable) (as : List Announcement) {b : Block}
    (stored : b ∈ e.store.blocks) :
    ∃ c, (e.appliedAll as).store.byHash? b.hash = some c ∧ c.lasting = b.lasting := by
  have later : b.lasting ∈ (e.appliedAll as).store.blocks.map Block.lasting :=
    (appliedAll_grows reachable as).subset (List.mem_map_of_mem stored)
  obtain ⟨c, member, same⟩ := List.mem_map.1 later
  refine ⟨c, ?_, same⟩
  exact (appliedAll_reachable reachable as).valid.byHash?_eq_some.2 ⟨member, Block.lasting_hash same⟩

end Engine

end BlockGraph
