import BlockGraph.Engine
import BlockGraph.Proofs.Store.Flags

/-!
# The cycle of an engine

What an engine is after one header, part by part. A header with a blank hash changes nothing, one of
a known hash at most adds its source, and one of a new hash adds its block, with the flags at its
height set and its position taken.

* `apply_blank`, `apply_known`, `apply_new` — the three outcomes of a cycle.
* `appliedAll_plain` — apart from flags and positions, an engine has the store of the insertions.
* `Built`, `Built.reachable` — the engines that the interface builds, and their stores.
-/

namespace BlockGraph.Engine

open BlockStore

variable {e : Engine} {source : String} {header : Header}

/-- The engine after headers, one after another. -/
def appliedAll (e : Engine) (as : List Announcement) : Engine :=
  as.foldl (fun e a => e.applied a.source a.header) e

theorem appliedAll_append (e : Engine) (as bs : List Announcement) :
    e.appliedAll (as ++ bs) = (e.appliedAll as).appliedAll bs := List.foldl_append

/-! ## A blank or a known hash -/

theorem apply_blank (blank : header.isBlank = true) :
    e.apply source header = .error (.blankHash header.number (some source)) := by
  simp only [apply, insert_blank _ _ source blank, bind, Except.bind]

theorem apply_ok (named : header.isBlank = false) :
    ∃ result, e.apply source header = .ok result := by
  cases found : e.store.byHash? header.hash with
  | some known =>
    simp only [apply, insert_known named found, bind, Except.bind]
    split <;> exact ⟨_, rfl⟩
  | none =>
    simp only [apply, insert_new named found, bind, Except.bind]
    split <;> exact ⟨_, rfl⟩

/-- What is told of a header of a known hash. -/
def mergedEvents (known : Block) (source : String) : List DiffEvent :=
  if SortedMap.contains known.reportingSources source then []
  else [.nodeUpdated known.hash (.sources (SortedSet.add known.reportingSources source))]

theorem apply_known {known : Block} (named : header.isBlank = false)
    (stored : e.store.byHash? header.hash = some known) :
    e.apply source header =
      .ok ({ e with
          store := (e.store.mergeKnown known header source).1
          emitter := e.emitter.emit (mergedEvents known source) }, mergedEvents known source) := by
  have told : mergeEvents (e.store.mergeKnown known header source).2 = mergedEvents known source := by
    cases present : SortedMap.contains known.reportingSources source <;>
      simp [mergeEvents, mergedEvents, mergeKnown, present]
  have merged : (e.store.mergeKnown known header source).2.isNew = false := rfl
  simp only [apply, insert_known named stored, bind, Except.bind, merged, told]
  rfl

/-! ## A new hash -/

/-- The store right after the insertion of a header of a new hash. -/
def inserted (e : Engine) (source : String) (header : Header) : BlockStore :=
  (e.store.insertNew header source).1

/-- The position that the next block at a height takes. -/
def nextPosition (e : Engine) (height : UInt64) : Position := ⟨height, e.lanes.lanesAt height⟩

/-- A new block at the end of its cycle. -/
def settledBlock (e : Engine) (source : String) (header : Header) : Block :=
  { e.store.newBlock header source with
    isCompeting := (e.inserted source header).isContested header.number
    position := some (e.nextPosition header.number) }

/-- The store at the end of the cycle of a new block. -/
def settledStore (e : Engine) (source : String) (header : Header) : BlockStore :=
  { e.inserted source header with
    blocks := e.store.blocks.map ((e.inserted source header).flaggedAt header.number) ++
      [e.settledBlock source header] }

/-- The lanes at the end of the cycle of a new block. -/
def settledLanes (e : Engine) (header : Header) : Lanes :=
  ⟨e.lanes.next.insert header.number (e.lanes.lanesAt header.number + 1)⟩

/-- The edges that a new block brings. -/
def newEdges (e : Engine) (source : String) (header : Header) : List Edge :=
  (e.store.parentEdge (e.store.newBlock header source)).toList ++
    e.store.childEdges (e.store.newBlock header source)

/-- The blocks whose flag a new block changes. -/
def flipped (e : Engine) (source : String) (header : Header) : List Block :=
  e.store.blocks.filter fun b => b.height == header.number &&
    b.isCompeting != (e.inserted source header).isContested header.number

/-- What is told of a new block. -/
def settledEvents (e : Engine) (source : String) (header : Header) : List DiffEvent :=
  .nodeAdded (e.settledBlock source header) ::
    ((e.newEdges source header).map .edgeAdded ++
      (e.flipped source header).map fun b =>
        .nodeUpdated b.hash (.competing ((e.inserted source header).isContested header.number)))

section
variable (valid : e.store.Valid) (fresh : header.hash ∉ e.store.hashes)
include valid fresh

theorem inserted_valid : (e.inserted source header).Valid := valid.insertNew fresh

/-- The store with its flags recomputed, before the new block is placed. -/
theorem recomputed_blocks :
    ((e.inserted source header).recomputeCompeting header.number).1 =
      { e.inserted source header with
        blocks := e.store.blocks.map ((e.inserted source header).flaggedAt header.number) ++
          [{ e.store.newBlock header source with
            isCompeting := (e.inserted source header).isContested header.number }] } := by
  rw [(inserted_valid valid fresh).recomputeCompeting_store]
  congr 1
  rw [inserted, insertNew_blocks, List.map_append, List.map_singleton]
  congr 2
  exact if_pos rfl

theorem settledStore_eq :
    (((e.inserted source header).recomputeCompeting header.number).1.setPosition header.hash
      (e.nextPosition header.number)) = e.settledStore source header := by
  -- The position is set by hash, and the new block is the only one of its hash.
  have stranger : ∀ b ∈ e.store.blocks, b.hash ≠ header.hash := fun b stored same =>
    fresh (List.mem_map.2 ⟨b, stored, same⟩)
  have recomputed : ((e.inserted source header).recomputeCompeting header.number).1.Valid :=
    (inserted_valid valid fresh).of_plain (recomputeCompeting_plain ..)
  rw [setPosition, modify_eq, recomputed.modify_blocks, recomputed_blocks valid fresh, settledStore]
  congr 1
  rw [List.map_append, List.map_singleton, List.map_map]
  congr 1
  · apply List.map_congr_left
    intro b stored
    exact if_neg (by rw [flaggedAt_hash]; exact stranger b stored)
  · exact congrArg (fun b => [b]) (if_pos rfl)

theorem byHash?_settledStore :
    (e.settledStore source header).byHash? header.hash = some (e.settledBlock source header) := by
  rw [← settledStore_eq valid fresh]
  have settled : ((((e.inserted source header).recomputeCompeting header.number).1).setPosition
      header.hash (e.nextPosition header.number)).Valid :=
    (inserted_valid valid fresh).of_plain
      ((setPosition_plain ..).trans (recomputeCompeting_plain ..))
  rw [settled.byHash?_eq_some, settledStore_eq valid fresh]
  exact ⟨by simp [settledStore], rfl⟩

theorem wronglyFlagged_others :
    ((e.inserted source header).wronglyFlaggedAt header.number).filter (· ≠ header.hash) =
      (e.flipped source header).map (·.hash) := by
  have stranger : ∀ b ∈ e.store.blocks, b.hash ≠ header.hash := fun b stored same =>
    fresh (List.mem_map.2 ⟨b, stored, same⟩)
  rw [(inserted_valid valid fresh).wronglyFlaggedAt_eq, List.filter_map, List.filter_filter]
  have blocks : (e.inserted source header).blocks =
      e.store.blocks ++ [e.store.newBlock header source] := insertNew_blocks
  rw [blocks, List.filter_append, flipped]
  have self : ∀ p : Block → Bool, [e.store.newBlock header source].filter
      (fun b => ((fun hash => decide (hash ≠ header.hash)) ∘ fun b : Block => b.hash) b && p b) =
        [] := by
    intro p
    simp [newBlock, Block.ofHeader]
  rw [self, List.append_nil]
  congr 1
  apply List.filter_congr
  intro b stored
  simp [stranger b stored]

theorem changed_others :
    (((e.inserted source header).recomputeCompeting header.number).2.filter
        fun x : String × Bool => decide (x.1 ≠ header.hash)) =
      (e.flipped source header).map fun b =>
        (b.hash, (e.inserted source header).isContested header.number) := by
  have named := congrArg
    (List.map fun hash => (hash, (e.inserted source header).isContested header.number))
    (@wronglyFlagged_others e source header valid fresh)
  rw [List.map_map] at named
  rw [(inserted_valid valid fresh).recomputeCompeting_changed, List.filter_map]
  exact named

theorem newBlockEvents_eq :
    newBlockEvents (e.settledStore source header) (e.store.insertNew header source).2
        ((e.inserted source header).recomputeCompeting header.number).2 =
      e.settledEvents source header := by
  have hash : (e.store.insertNew header source).2.block.hash = header.hash := rfl
  have edges : (e.store.insertNew header source).2.newEdge.toList ++
      (e.store.insertNew header source).2.adoptedEdges = e.newEdges source header := by
    rw [insertNew_eq]
    rfl
  simp only [newBlockEvents, hash, edges, byHash?_settledStore valid fresh, Option.toList_some]
  have others := @changed_others e source header valid fresh
  simp only [ne_eq] at others ⊢
  rw [others, settledEvents, List.map_map, List.append_assoc]
  rfl

theorem byHash?_recomputed :
    ((e.inserted source header).recomputeCompeting header.number).1.byHash? header.hash =
      some { e.store.newBlock header source with
        isCompeting := (e.inserted source header).isContested header.number } := by
  rw [((inserted_valid valid fresh).of_plain (recomputeCompeting_plain ..)).byHash?_eq_some,
    recomputed_blocks valid fresh]
  exact ⟨by simp, rfl⟩

theorem assignIn_recomputed :
    e.lanes.assignIn ((e.inserted source header).recomputeCompeting header.number).1 header.hash =
      (e.settledLanes header, e.settledStore source header, some (e.nextPosition header.number)) := by
  rw [assignIn_new (byHash?_recomputed valid fresh) rfl, ← settledStore_eq valid fresh]
  rfl

theorem apply_new (named : header.isBlank = false) :
    e.apply source header =
      .ok (⟨e.settledStore source header, e.settledLanes header,
        e.emitter.emit (e.settledEvents source header)⟩, e.settledEvents source header) := by
  have absent : e.store.byHash? header.hash = none := valid.byHash?_eq_none.2 fresh
  have isNew : (e.store.insertNew header source).2.isNew = true := rfl
  have number : (e.store.insertNew header source).2.block.height = header.number := rfl
  have hash : (e.store.insertNew header source).2.block.hash = header.hash := rfl
  have placed := @assignIn_recomputed e source header valid fresh
  have told := @newBlockEvents_eq e source header valid fresh
  simp only [inserted] at placed told
  simp only [apply, insert_new named absent, bind, Except.bind, isNew, number, hash, if_true, placed,
    told]
  rfl

end

/-! ## The engine after one header -/

theorem applied_known {known : Block} (named : header.isBlank = false)
    (stored : e.store.byHash? header.hash = some known) :
    e.applied source header =
      { e with
        store := (e.store.mergeKnown known header source).1
        emitter := e.emitter.emit (mergedEvents known source) } := by
  rw [applied, apply_known named stored]

theorem applied_new (valid : e.store.Valid) (named : header.isBlank = false)
    (fresh : header.hash ∉ e.store.hashes) :
    e.applied source header =
      ⟨e.settledStore source header, e.settledLanes header,
        e.emitter.emit (e.settledEvents source header)⟩ := by
  rw [applied, apply_new valid fresh named]

/-- A cycle is an insertion, a recomputation of flags, and a placement. -/
theorem applied_reachable (reachable : e.store.Reachable) :
    (e.applied source header).store.Reachable := by
  cases blank : header.isBlank with
  | true => rw [apply_error e source header blank]; exact reachable
  | false =>
    have stored := Reachable.inserted ⟨source, header⟩ reachable
    cases found : e.store.byHash? header.hash with
    | some known =>
      rw [applied_known blank found]
      rwa [inserted_known (a := ⟨source, header⟩) blank found] at stored
    | none =>
      have fresh := reachable.valid.byHash?_eq_none.1 found
      rw [inserted_new (a := ⟨source, header⟩) blank found] at stored
      -- These are three steps of the interface: insertion, recomputation, placement.
      have placed := (stored.recomputed header.number).placed e.lanes header.hash
      have settled := @assignIn_recomputed e source header reachable.valid fresh
      simp only [Engine.inserted] at settled
      rw [applied_new reachable.valid blank fresh]
      rwa [settled] at placed

/-- A cycle changes the store, apart from flags and positions, as the insertion does. -/
theorem applied_plain (valid : e.store.Valid) :
    (e.applied source header).store.plain = e.store.plain.inserted ⟨source, header⟩ := by
  rw [← inserted_plain]
  cases blank : header.isBlank with
  | true => rw [apply_error e source header blank, inserted_blank (a := ⟨source, header⟩) blank]
  | false =>
    cases found : e.store.byHash? header.hash with
    | some known =>
      rw [applied_known blank found, inserted_known (a := ⟨source, header⟩) blank found]
    | none =>
      have fresh := valid.byHash?_eq_none.1 found
      rw [applied_new valid blank fresh, inserted_new (a := ⟨source, header⟩) blank found]
      show (e.settledStore source header).plain = (e.inserted source header).plain
      rw [← settledStore_eq valid fresh, setPosition_plain, recomputeCompeting_plain]

/-! ## The engine after many headers -/

theorem appliedAll_reachable (reachable : e.store.Reachable) (as : List Announcement) :
    (e.appliedAll as).store.Reachable := by
  induction as generalizing e with
  | nil => exact reachable
  | cons a as ih => exact ih (applied_reachable reachable)

/-- Cycles change the store, apart from flags and positions, as the insertions do. -/
theorem appliedAll_plain (reachable : e.store.Reachable) (as : List Announcement) :
    (e.appliedAll as).store.plain = e.store.plain.insertAll as := by
  induction as generalizing e with
  | nil => rfl
  | cons a as ih =>
    exact (ih (applied_reachable reachable)).trans
      (congrArg (fun s => s.insertAll as) (applied_plain reachable.valid))

/-! ## Engines of the interface -/

/-- The engines that the interface builds: without blocks, or around a store. -/
inductive Built : Engine → Prop where
  | new (table : SealTable) (policy : EdgePolicy) : Built (.new table policy)
  | ofStore {s : BlockStore} (reachable : s.Reachable) : Built (.ofStore s)

theorem ofStore_reachable {s : BlockStore} (reachable : s.Reachable) :
    (ofStore s).store.Reachable := (reachable.recomputedAll s.heights.keys).rebuilt

theorem Built.reachable (built : e.Built) : e.store.Reachable := by
  cases built with
  | new table policy => exact ofStore_reachable (.new table policy)
  | ofStore reachable => exact ofStore_reachable reachable

theorem Built.journal (built : e.Built) : e.emitter.journal = [] := by
  cases built <;> rfl

end BlockGraph.Engine
