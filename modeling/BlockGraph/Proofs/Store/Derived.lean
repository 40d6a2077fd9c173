import BlockGraph.Proofs.Store.Insertion

/-!
# What is derived of a block

Flags and positions are derived: setting them changes nothing else, and no insertion looks at them.
So a store that is only changed through its interface is valid at any time, whatever flags and
positions it carries.

* `inserted_plain` — an insertion commutes with forgetting what is derived.
* `Reachable`, `Reachable.valid` — the stores that the interface leads to, and that they are valid.
-/

namespace BlockGraph

/-- The block without its flag and its position. -/
def Block.plain (b : Block) : Block := { b with isCompeting := false, position := none }

namespace BlockStore

variable {s t : BlockStore}

/-- The store without flags and positions. -/
def plain (s : BlockStore) : BlockStore := { s with blocks := s.blocks.map Block.plain }

@[simp] theorem plain_bare (s : BlockStore) : s.plain.bare = s.bare := by
  simp [plain, bare, Function.comp_def, Block.plain, Block.bare]

theorem Valid.of_plain (valid : s.Valid) (same : t.plain = s.plain) : t.Valid := by
  refine valid.of_bare ?_
  rw [← plain_bare, same, plain_bare]

/-! ## Setting flags and positions -/

theorem modify_plain (s : BlockStore) (hash : String) {f : Block → Block}
    (keeps : ∀ b, (f b).plain = b.plain) : (s.modify hash f).plain = s.plain := by
  have same := modify_map s hash keeps
  rw [modify_eq, plain, plain]
  simp only [same]

theorem setCompeting_plain (s : BlockStore) (hash : String) (competing : Bool) :
    (s.setCompeting hash competing).plain = s.plain := modify_plain s hash fun _ => rfl

theorem setPosition_plain (s : BlockStore) (hash : String) (position : Position) :
    (s.setPosition hash position).plain = s.plain := modify_plain s hash fun _ => rfl

theorem clearPositions_plain (s : BlockStore) : s.clearPositions.plain = s.plain := by
  simp [clearPositions, plain, Function.comp_def, Block.plain]

theorem foldl_setCompeting_plain (hashes : List String) (competing : Bool) (s : BlockStore) :
    (hashes.foldl (fun s hash => s.setCompeting hash competing) s).plain = s.plain := by
  induction hashes generalizing s with
  | nil => rfl
  | cons hash hashes ih => rw [List.foldl_cons, ih, setCompeting_plain]

theorem recomputeCompeting_plain (s : BlockStore) (height : UInt64) :
    (s.recomputeCompeting height).1.plain = s.plain := foldl_setCompeting_plain ..

theorem recomputeAll_plain (heights : List UInt64) (s : BlockStore) :
    (heights.foldl (fun s height => (s.recomputeCompeting height).1) s).plain = s.plain := by
  induction heights generalizing s with
  | nil => rfl
  | cons height heights ih => rw [List.foldl_cons, ih, recomputeCompeting_plain]

theorem assignIn_plain (l : Lanes) (s : BlockStore) (hash : String) :
    (l.assignIn s hash).2.1.plain = s.plain := by
  unfold Lanes.assignIn
  split
  · exact setPosition_plain ..
  · rfl

theorem assignIn_new {l : Lanes} {hash : String} {b : Block} (stored : s.byHash? hash = some b)
    (unplaced : b.position = none) :
    l.assignIn s hash =
      (⟨l.next.insert b.height (l.lanesAt b.height + 1)⟩,
        s.setPosition hash ⟨b.height, l.lanesAt b.height⟩, some ⟨b.height, l.lanesAt b.height⟩) := by
  simp [Lanes.assignIn, Lanes.assign, stored, unplaced]

/-- What holds without positions, and is kept by setting one, holds of a store whose lanes are assigned afresh. -/
theorem assignAll_induction {motive : BlockStore → Prop} (s : BlockStore)
    (cleared : motive s.clearPositions)
    (placed : ∀ t hash position, motive t → motive (t.setPosition hash position)) :
    motive (Lanes.assignAll s).2 := by
  unfold Lanes.assignAll
  refine List.foldlRecOn (motive := fun state : Lanes × BlockStore => motive state.2) _ _ cleared ?_
  rintro ⟨l, t⟩ holds hash _
  show motive (l.assignIn t hash).2.1
  unfold Lanes.assignIn
  split
  · exact placed t hash _ holds
  · exact holds

theorem assignAll_plain (s : BlockStore) : (Lanes.assignAll s).2.plain = s.plain :=
  assignAll_induction (motive := fun t => t.plain = s.plain) s (clearPositions_plain s)
    fun t hash position same => (setPosition_plain t hash position).trans same

/-! ## Insertions do not look at flags and positions -/

theorem byHash?_plain (s : BlockStore) (hash : String) :
    s.plain.byHash? hash = (s.byHash? hash).map Block.plain := by
  unfold byHash?
  show (s.index.get? hash).bind (fun i => (s.blocks.map Block.plain)[i]?) = _
  cases s.index.get? hash with
  | none => rfl
  | some i => simp

theorem insertNew_plain (s : BlockStore) (header : Header) (source : String) :
    (s.insertNew header source).1.plain = (s.plain.insertNew header source).1 := by
  rw [insertNew_eq, insertNew_eq]
  have same : s.plain.newBlock header source = s.newBlock header source := rfl
  simp only [same]
  simp only [plain, List.map_append, List.map_cons, List.map_nil, List.length_map]
  rfl

theorem mergeKnown_plain (s : BlockStore) (known : Block) (header : Header) (source : String) :
    (s.mergeKnown known header source).1.plain =
      (s.plain.mergeKnown known.plain header source).1 := by
  rw [mergeKnown_store, mergeKnown_store]
  simp only [plain, modify]
  show _ = { s with blocks := _, warnings := s.warnings ++ (heightWarning? known header source).toList }
  cases place : s.index.get? known.hash with
  | none => simp [place, Block.plain]
  | some i =>
    have named : s.index.get? known.plain.hash = some i := place
    simp only [named, mk.injEq, and_true]
    -- Both sides change the block at one place only.
    apply List.ext_getElem?
    intro j
    rw [List.getElem?_map, List.getElem?_modify, List.getElem?_modify, List.getElem?_map]
    by_cases same : i = j
    · cases s.blocks[j]? <;> simp [same, Block.plain]
    · simp [same]

theorem inserted_plain (s : BlockStore) (a : Announcement) :
    (s.inserted a).plain = s.plain.inserted a := by
  cases blank : a.header.isBlank with
  | true => rw [inserted_blank blank, inserted_blank blank]
  | false =>
    cases found : s.byHash? a.header.hash with
    | none =>
      have fresh : s.plain.byHash? a.header.hash = none := by rw [byHash?_plain, found]; rfl
      rw [inserted_new blank found, inserted_new blank fresh, insertNew_plain]
    | some known =>
      have stored : s.plain.byHash? a.header.hash = some known.plain := by
        rw [byHash?_plain, found]; rfl
      rw [inserted_known blank found, inserted_known blank stored, mergeKnown_plain]

/-! ## Reachable stores -/

/-- The stores that the interface leads to: headers are inserted, flags are recomputed at any height,
and any layouts place blocks or are rebuilt, in any order. -/
inductive Reachable : BlockStore → Prop where
  | new (table : SealTable) (policy : EdgePolicy) : Reachable (.new table policy)
  | inserted {s : BlockStore} (a : Announcement) : Reachable s → Reachable (s.inserted a)
  | recomputed {s : BlockStore} (height : UInt64) :
      Reachable s → Reachable (s.recomputeCompeting height).1
  | placed {s : BlockStore} (l : Lanes) (hash : String) :
      Reachable s → Reachable (l.assignIn s hash).2.1
  | rebuilt {s : BlockStore} : Reachable s → Reachable (Lanes.assignAll s).2

theorem Reachable.valid (reachable : Reachable s) : s.Valid := by
  induction reachable with
  | new table policy => exact .new table policy
  | inserted a _ valid => exact valid.inserted a
  | recomputed height _ valid => exact valid.of_plain (recomputeCompeting_plain ..)
  | placed l hash _ valid => exact valid.of_plain (assignIn_plain ..)
  | rebuilt _ valid => exact valid.of_plain (assignAll_plain _)

theorem Reachable.recomputedAll (reachable : Reachable s) (heights : List UInt64) :
    Reachable (heights.foldl (fun s height => (s.recomputeCompeting height).1) s) := by
  induction heights generalizing s with
  | nil => exact reachable
  | cons height heights ih => exact ih (.recomputed height reachable)

theorem Reachable.insertAll (reachable : Reachable s) (as : List Announcement) :
    Reachable (s.insertAll as) := by
  induction as generalizing s with
  | nil => exact reachable
  | cons a as ih => exact ih (.inserted a reachable)

end BlockStore

end BlockGraph
