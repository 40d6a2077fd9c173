import BlockGraph.Proofs.Aggregator.Archive
import BlockGraph.Proofs.Engine.Contests
import Mathlib.Data.List.Sort

/-!
# Summaries of snapshots

The summary of a run is counted by the indices of the store, and a snapshot has none of them: it lists
nodes with their flags, edges and sources. Still it tells the same, apart from the number of warnings.
That needs the indices to be those of the blocks, and all flags to be right.

* `Snapshot.orphans`, `Snapshot.flaggedHeights`, `Snapshot.flaggedAt` — what the nodes tell.
* `Snapshot.summary` — the summary that is counted from a snapshot alone.
* `snapshot_orphans`, `snapshot_competingHeights` — the nodes tell what the indices tell.
* `afterAll_summary` — the summary of any run is that of its snapshot.
-/

namespace BlockGraph

/-! ## What a snapshot tells -/

namespace Snapshot

variable {s : Snapshot}

/-- The nodes above height zero whose parent is the hash of no node. -/
def orphans (s : Snapshot) : List Block :=
  s.nodes.filter fun b => b.height != 0 && s.nodes.all fun c => c.hash != b.parentHash

/-- The heights where some node is flagged, in ascending order. -/
def flaggedHeights (s : Snapshot) : List UInt64 :=
  SortedMap.keys (SortedSet.ofList ((s.nodes.filter (·.isCompeting)).map (·.height)))

/-- The hashes of the flagged nodes at a height, in the order of the nodes. -/
def flaggedAt (s : Snapshot) (height : UInt64) : List String :=
  (s.nodes.filter fun b => b.isCompeting && b.height == height).map (·.hash)

/-- The summary of a snapshot, with a number of warnings that comes from elsewhere. -/
def summary (s : Snapshot) (warnings : Nat) : RunSummary where
  nodes := s.nodes.length
  edges := s.edges.length
  tipHeight := (s.nodes.map (·.height)).max?
  orphans := s.orphans.length
  integrityWarnings := warnings
  competingHeights := s.flaggedHeights.map fun height => ⟨height, s.flaggedAt height⟩
  sourcesActive := (s.sources.filter (·.active)).length
  sourcesTotal := s.sources.length

theorem flaggedHeights_ascending (s : Snapshot) : s.flaggedHeights.Pairwise (· < ·) :=
  SortedMap.keys_ascending _

theorem mem_flaggedHeights {height : UInt64} :
    height ∈ s.flaggedHeights ↔ ∃ b ∈ s.nodes, b.height = height ∧ b.isCompeting = true := by
  rw [flaggedHeights, SortedMap.mem_keys, ← SortedMap.contains, SortedSet.contains_ofList,
    decide_eq_true_eq, List.mem_map]
  constructor
  · rintro ⟨b, member, rfl⟩
    obtain ⟨listed, flag⟩ := List.mem_filter.1 member
    exact ⟨b, listed, rfl, flag⟩
  · rintro ⟨b, listed, rfl, flag⟩
    exact ⟨b, List.mem_filter.2 ⟨listed, flag⟩, rfl⟩

end Snapshot

/-! ## What the store tells -/

namespace Aggregator

variable {a : Aggregator}

theorem snapshot_orphans (valid : a.engine.store.Valid) : a.snapshot.orphans = a.engine.store.orphans := by
  refine List.filter_congr fun b _ => ?_
  have stored : a.snapshot.nodes.all (fun c => c.hash != b.parentHash) =
      !a.engine.store.contains b.parentHash := by
    rw [Bool.eq_iff_iff, Bool.not_eq_true', valid.not_mem_hashes]
    simp [snapshot, BlockStore.hashes]
  rw [stored]
  rfl

/-- The heights that the index gives more than one hash are those of the flagged nodes. -/
theorem snapshot_flaggedHeights (valid : a.engine.store.Valid) (flagged : a.engine.store.Flagged) :
    a.snapshot.flaggedHeights = a.engine.store.competingHeights.map (·.height) := by
  have contests := flagged.contests valid
  refine a.snapshot.flaggedHeights_ascending.eq_of_mem_iff contests.ascending fun height => ?_
  rw [Snapshot.mem_flaggedHeights, List.mem_map]
  constructor
  · intro some
    exact ⟨⟨height, _⟩, (contests.listed height _).2 ⟨some, rfl⟩, rfl⟩
  · rintro ⟨set, member, rfl⟩
    exact ((contests.listed set.height set.hashes).1 member).1

/-- Where one node is flagged, all nodes of the height are. -/
theorem snapshot_flaggedAt (flagged : a.engine.store.Flagged) {height : UInt64}
    (contested : a.engine.store.isContested height = true) :
    a.snapshot.flaggedAt height = a.engine.store.hashesAt height := by
  rw [Snapshot.flaggedAt, BlockStore.hashesAt]
  congr 1
  refine List.filter_congr fun b stored => ?_
  by_cases here : b.height = height
  · have flag := flagged b stored
    rw [here, contested] at flag
    simp [flag]
  · simp [here]

theorem snapshot_competingHeights (valid : a.engine.store.Valid) (flagged : a.engine.store.Flagged) :
    (a.snapshot.flaggedHeights.map fun height => ⟨height, a.snapshot.flaggedAt height⟩) =
      a.engine.store.competingHeights := by
  rw [snapshot_flaggedHeights valid flagged, List.map_map]
  refine (List.map_congr_left fun set member => ?_).trans (List.map_id _)
  obtain ⟨contested, hashes⟩ := valid.mem_competingHeights.1 member
  rw [Function.comp_apply, snapshot_flaggedAt flagged contested, ← hashes]
  rfl

theorem summary_eq (valid : a.engine.store.Valid) (flagged : a.engine.store.Flagged) :
    a.summary = a.snapshot.summary a.engine.store.warnings.length := by
  rw [summary, Snapshot.summary, snapshot_competingHeights valid flagged, snapshot_orphans valid,
    valid.tipHeight?_eq]
  rfl

/-- Around any feed and any engine, whatever happens in whatever order: the summary is the one that is
counted from the snapshot of the same moment. The snapshot does not tell the number of warnings. -/
theorem afterAll_summary (settings : Settings) (feed : Feed) {e : Engine} (grown : e.Grown)
    (incidents : List Incident) :
    let a := (ofEngine settings feed e).afterAll incidents
    a.summary = a.snapshot.summary a.engine.store.warnings.length := by
  intro a
  have now : a.engine.Grown := afterAll_grown (a := ofEngine settings feed e) grown incidents
  exact summary_eq now.valid now.flagged

/-- An engine around two blocks of one height whose flags were never set; a source reports two blocks of
another height, one of them again at a third height, and a child of the other one. -/
theorem afterAll_summary_stale :
    let store := (BlockStore.new .standard .childOnly).insertAll
      [⟨"a", .new 5 "0xa" "0x4"⟩, ⟨"b", .new 5 "0xb" "0x0"⟩]
    let incidents : List Incident :=
      [.move (.add "b"), .move (.add "c"), .move (.onHeader "b" (.new 4 "0x4" "0x3")),
        .move (.onHeader "b" (.new 4 "0xd" "0x3")), .move (.onHeader "b" (.new 6 "0xd" "0x3")),
        .move (.onHeader "b" (.new 5 "0xc" "0x4")), .move (.stop "c")]
    let a := (ofEngine .standard (.channel (.new 4)) (.ofStore store)).afterAll incidents
    (Engine.ofStore store).Grown ∧
      a.snapshot.summary 1 = ⟨5, 1, some 5, 3, 1,
        [⟨4, ["0x4", "0xd"]⟩, ⟨5, ["0xa", "0xb", "0xc"]⟩], 1, 2⟩ ∧
      a.summary = a.snapshot.summary 1 := by
  intro store incidents a
  have built : (Engine.ofStore store).Built := .ofStore ((BlockStore.Reachable.new ..).insertAll _)
  have counted := afterAll_summary .standard (.channel (.new 4)) built.grown incidents
  exact ⟨built.grown, by decide +kernel,
    counted.trans (congrArg (Snapshot.summary _) (by decide +kernel))⟩

end Aggregator

end BlockGraph
