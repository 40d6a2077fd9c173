import BlockGraph.Proofs.Engine.Growth
import BlockGraph.Proofs.Store.Laid

/-!
# The positions of an engine

An engine places all blocks when it is built, and each cycle places the block that it adds. So at any
time the blocks of a height stand side by side in the order of their arrival, the lanes count them,
and no block ever moves.

* `applied_laid`, `Built.appliedAll_laid` — the blocks have taken the free lanes one after another.
* `ofStore_rebuilds`, `Built.appliedAll_places` — no lane runs over on the way.
* `Arranged`, `Built.appliedAll_arranged` — where the blocks stand after any number of headers.
-/

namespace BlockGraph

open BlockStore

/-! ## The lanes that are taken -/

/-- The lane of a block, if it stands at a rank. -/
def Block.laneAt? (rank : UInt64) (b : Block) : Option Nat :=
  match b.position with
  | some position => if position.rank = rank then some position.lane.toNat else none
  | none => none

/-- The lanes at a rank that have a block, in the order of the arrival of the blocks. -/
def lanesTaken (rank : UInt64) (blocks : List Block) : List Nat := blocks.filterMap (·.laneAt? rank)

theorem Laid.lanesTaken {l : Lanes} {blocks : List Block} (laid : Laid l blocks) (rank : UInt64)
    (few : countAt rank blocks < UInt32.size) :
    lanesTaken rank blocks = List.range (countAt rank blocks) := by
  induction laid with
  | nil => rfl
  | @snoc l blocks b laid placed ih =>
    rw [countAt_append, countAt_singleton] at few ⊢
    rw [BlockGraph.lanesTaken, List.filterMap_append]
    by_cases here : b.height = rank
    · subst here
      rw [if_pos rfl] at few ⊢
      have lane : [b].filterMap (·.laneAt? b.height) = [countAt b.height blocks] := by
        simp [Block.laneAt?, placed, laid.lanesAt, UInt32.toNat_ofNat_of_lt' (Nat.lt_of_succ_lt few)]
      rw [List.range_succ, ← ih (Nat.lt_of_succ_lt few), lane, BlockGraph.lanesTaken]
    · rw [if_neg here, Nat.add_zero] at few ⊢
      have lane : [b].filterMap (·.laneAt? rank) = [] := by simp [Block.laneAt?, placed, here]
      rw [← ih few, lane, List.append_nil, BlockGraph.lanesTaken]

/-- Among the hashes at its height, a block comes behind those of the earlier blocks. -/
theorem BlockStore.hashesAt_getElem? {s : BlockStore} {front back : List Block} {b : Block}
    (shape : s.blocks = front ++ b :: back) :
    (s.hashesAt b.height)[countAt b.height front]? = some b.hash := by
  have place : countAt b.height front =
      ((front.filter fun c => c.height == b.height).map (·.hash)).length := by
    rw [List.length_map, countAt, List.countP_eq_length_filter]
  rw [hashesAt, shape, List.filter_append, List.map_append, place,
    List.getElem?_append_right (Nat.le_refl _), Nat.sub_self]
  simp

namespace Engine

variable {e : Engine} {source : String} {header : Header}

/-! ## Placing one block after another -/

theorem ofStore_laid {s : BlockStore} (reachable : s.Reachable) :
    Laid (ofStore s).lanes (ofStore s).store.blocks :=
  (reachable.recomputedAll s.heights.keys).valid.assignAll_laid

theorem Built.laid (built : e.Built) : Laid e.lanes e.store.blocks := by
  cases built with
  | new table policy => exact ofStore_laid (.new table policy)
  | ofStore reachable => exact ofStore_laid reachable

theorem applied_laid (valid : e.store.Valid) (laid : Laid e.lanes e.store.blocks) :
    Laid (e.applied source header).lanes (e.applied source header).store.blocks := by
  cases blank : header.isBlank with
  | true => rw [apply_error e source header blank]; exact laid
  | false =>
    cases found : e.store.byHash? header.hash with
    | some known =>
      rw [applied_known blank found, mergeKnown_store]
      show Laid e.lanes (e.store.modify known.hash _).blocks
      rw [valid.modify_blocks]
      exact laid.map (fun b => by split <;> rfl) (fun b => by split <;> rfl)
    | none =>
      rw [applied_new valid blank (valid.byHash?_eq_none.1 found)]
      -- The flags may change, and the new block takes the next free lane.
      have flagged : Laid e.lanes
          (e.store.blocks.map ((e.inserted source header).flaggedAt header.number)) :=
        laid.map (flaggedAt_height _) fun b =>
          Block.lasting_position (flaggedAt_lasting _ header.number b)
      exact flagged.snoc (b := e.settledBlock source header) rfl

theorem Built.appliedAll_laid (built : e.Built) (as : List Announcement) :
    Laid (e.appliedAll as).lanes (e.appliedAll as).store.blocks := by
  have run : ∀ (as : List Announcement) (e : Engine), e.store.Reachable →
      Laid e.lanes e.store.blocks → Laid (e.appliedAll as).lanes (e.appliedAll as).store.blocks := by
    intro as
    induction as with
    | nil => exact fun _ _ laid => laid
    | cons a as ih =>
      exact fun _ reachable laid => ih _ (applied_reachable reachable) (applied_laid reachable.valid laid)
  exact run as e built.reachable built.laid

/-! ## No lane runs over -/

/-- An engine around a store with less blocks at each height than lanes can be numbered: to place them
all afresh returns, and gives what the engine takes. -/
theorem ofStore_rebuilds {s : BlockStore} (reachable : s.Reachable)
    (few : ∀ height, countAt height s.blocks < UInt32.size) :
    Lanes.rebuild (s.heights.keys.foldl (fun s height => (s.recomputeCompeting height).1) s) =
      some ((ofStore s).lanes, (ofStore s).store) := by
  refine (reachable.recomputedAll s.heights.keys).valid.rebuild_eq fun height => ?_
  have same := congrArg (fun t => countAt height t.blocks) (recomputeAll_plain s.heights.keys s)
  simp only [plain, countAt, List.countP_map] at same
  have counted : countAt height
      (s.heights.keys.foldl (fun s height => (s.recomputeCompeting height).1) s).blocks =
        countAt height s.blocks := same
  rw [counted]
  exact few height

/-- However an engine was built, and after any number of headers: the block of the next new header is
placed where the engine puts it, as long as the lanes of its height can be numbered. -/
theorem Built.appliedAll_places (built : e.Built) (as : List Announcement) (named : header.isBlank = false)
    (fresh : header.hash ∉ (e.appliedAll as).store.hashes)
    (few : countAt header.number ((e.appliedAll as).applied source header).store.blocks < UInt32.size) :
    let f := e.appliedAll as
    f.lanes.placeIn ((f.inserted source header).recomputeCompeting header.number).1 header.hash =
      some ((f.applied source header).lanes, (f.applied source header).store,
        some (f.nextPosition header.number)) := by
  intro f
  have valid := (appliedAll_reachable built.reachable as).valid
  let b : Block := { f.store.newBlock header source with
    isCompeting := (f.inserted source header).isContested header.number }
  have settled : f.applied source header = ⟨f.settledStore source header, f.settledLanes header, _⟩ :=
    applied_new valid named fresh
  have before : countAt header.number f.store.blocks + 1 < UInt32.size := by
    have own : (f.settledBlock source header).height = header.number := rfl
    have flags : countAt header.number
        (f.store.blocks.map ((f.inserted source header).flaggedAt header.number)) =
          countAt header.number f.store.blocks := by
      simp only [countAt, List.countP_map, Function.comp_def, flaggedAt_height]
    rw [settled, settledStore, countAt_append, countAt_singleton, if_pos own, flags] at few
    exact few
  have placed : f.lanes.place b = some (f.lanes.assign b) :=
    (built.appliedAll_laid as).place_eq (b := b) rfl before
  rw [Lanes.placeIn_eq (byHash?_recomputed valid fresh) placed, assignIn_recomputed valid fresh, settled]

/-! ## Where the blocks stand -/

/-- The blocks of each height stand side by side in the order of their arrival, and the lanes count
them. -/
structure Arranged (e : Engine) : Prop where
  position : ∀ b ∈ e.store.blocks, ∃ lane, b.position = some ⟨b.height, lane⟩ ∧
    (e.store.atHeight b.height)[lane.toNat]? = some b.hash
  taken : ∀ rank, lanesTaken rank e.store.blocks = List.range (countAt rank e.store.blocks)
  counted : ∀ rank, (e.lanes.lanesAt rank).toNat = countAt rank e.store.blocks

theorem arranged_of_laid (valid : e.store.Valid) (laid : Laid e.lanes e.store.blocks)
    (few : ∀ height, countAt height e.store.blocks < UInt32.size) : e.Arranged where
  position b stored := by
    obtain ⟨front, back, shape⟩ := List.append_of_mem stored
    have before : countAt b.height front < UInt32.size := by
      have all := few b.height
      rw [shape, countAt_append] at all
      omega
    refine ⟨_, laid.position shape, ?_⟩
    rw [UInt32.toNat_ofNat_of_lt' before, valid.atHeight_eq]
    exact hashesAt_getElem? shape
  taken rank := laid.lanesTaken rank (few rank)
  counted rank := by rw [laid.lanesAt, UInt32.toNat_ofNat_of_lt' (few rank)]

/-- However an engine was built, and whatever positions its store had: after any number of headers the
blocks of each height stand side by side in the order of their arrival, and no block ever moves, as
long as the lanes of a height can be numbered. -/
theorem Built.appliedAll_arranged (built : e.Built) (as : List Announcement)
    (few : ∀ height, countAt height (e.appliedAll as).store.blocks < UInt32.size) :
    (e.appliedAll as).Arranged ∧
      ∀ bs, ∀ b ∈ (e.appliedAll as).store.blocks,
        ∃ c, (e.appliedAll (as ++ bs)).store.byHash? b.hash = some c ∧ c.position = b.position := by
  have reachable := appliedAll_reachable built.reachable as
  refine ⟨arranged_of_laid reachable.valid (built.appliedAll_laid as) few, fun bs b stored => ?_⟩
  rw [appliedAll_append]
  obtain ⟨c, found, same⟩ := appliedAll_lasts reachable bs stored
  exact ⟨c, found, Block.lasting_position same⟩

/-- Two blocks of a store were placed by two other layouts, both at lane zero; the engine around it
moves the second one and then receives a third. -/
theorem appliedAll_arranged_foreign :
    let store := (BlockStore.new .standard .childOnly).insertAll
      [⟨"a", .new 3 "0xb" "0x2"⟩, ⟨"a", .new 3 "0xa" "0x2"⟩]
    let foreign := (Lanes.new.assignIn (Lanes.new.assignIn store "0xa").2.1 "0xb").2.1
    let told : List Announcement := [⟨"a", .new 3 "0xc" "0x2"⟩]
    (ofStore foreign).Built ∧
      foreign.blocks.map (·.position) = [some ⟨3, 0⟩, some ⟨3, 0⟩] ∧
      ((ofStore foreign).appliedAll told).store.blocks.map (·.position) =
        [some ⟨3, 0⟩, some ⟨3, 1⟩, some ⟨3, 2⟩] ∧
      (∀ height, countAt height ((ofStore foreign).appliedAll told).store.blocks < UInt32.size) ∧
      ((ofStore foreign).appliedAll told).Arranged ∧
      ∀ bs, ∀ b ∈ ((ofStore foreign).appliedAll told).store.blocks,
        ∃ c, ((ofStore foreign).appliedAll (told ++ bs)).store.byHash? b.hash = some c ∧
          c.position = b.position := by
  intro store foreign told
  have reachable : store.Reachable := .insertAll (.new .standard .childOnly) _
  have built : (ofStore foreign).Built := .ofStore ((reachable.placed _ _).placed _ _)
  have three : ((ofStore foreign).appliedAll told).store.blocks.length = 3 := by decide +kernel
  have few : ∀ height, countAt height ((ofStore foreign).appliedAll told).store.blocks < UInt32.size := by
    intro height
    have bound : countAt height ((ofStore foreign).appliedAll told).store.blocks ≤ 3 :=
      three ▸ List.countP_le_length
    exact Nat.lt_of_le_of_lt bound (by decide)
  exact ⟨built, by decide +kernel, by decide +kernel, few, built.appliedAll_arranged told few⟩

end Engine

end BlockGraph
