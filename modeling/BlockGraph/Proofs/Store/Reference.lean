import BlockGraph.Proofs.Store.Insertion

/-!
# A store without indices

What a store has to show follows from the list of the headers that it was given, without any index.
The first header of a hash makes the block, all of them give it their sources, and one that contradicts
the first in its height is a warning.

* `Reference.blocks`, `Reference.warnings` — the blocks and the warnings that a list of headers makes.
* `Refines`, `Refines.inserted`, `Refines.insertAll` — a store has these blocks and these warnings,
  after one header and after any number of them.
* `insertAll_shows` — what every query of the store answers.
-/

namespace BlockGraph

namespace Reference

/-- The first header of each hash, in the order of their arrival. -/
def firsts : List Announcement → List Header
  | [] => []
  | a :: as => a.header :: (firsts as).filter fun header => header.hash ≠ a.header.hash

/-- The first header of a hash. -/
def first? (as : List Announcement) (hash : String) : Option Header :=
  (as.find? fun a => a.header.hash == hash).map (·.header)

/-- All sources of a hash. -/
def sources (as : List Announcement) (hash : String) : SortedSet String :=
  .ofList ((as.filter fun a => a.header.hash == hash).map (·.source))

/-- The block of the header that was the first of its hash. -/
def block (table : SealTable) (as : List Announcement) (arrival : Nat) (header : Header) : Block where
  hash := header.hash
  parentHash := header.parentHash
  height := header.number
  stateRoot := header.stateRoot
  extrinsicsRoot := header.extrinsicsRoot
  sealBytes := header.digest.logs
  group := table.classify header
  reportingSources := sources as header.hash
  firstSeenAt := arrival
  isCompeting := false
  position := none

/-- One block for each hash, in the order of their first arrival. -/
def blocks (table : SealTable) (as : List Announcement) : List Block :=
  (firsts as).mapIdx (block table as)

/-- What a header warns of. -/
def warning? (as : List Announcement) (a : Announcement) : Option IntegrityWarning := do
  let first ← first? as a.header.hash
  if first.number = a.header.number then none
  else some ⟨a.header.hash, first.number, a.header.number, a.source⟩

/-- One warning for each header that contradicts the first one of its hash in the height. -/
def warnings (as : List Announcement) : List IntegrityWarning := as.filterMap (warning? as)

/-! ## One more header -/

variable {as : List Announcement} {a : Announcement}

theorem mem_firsts {header : Header} :
    header ∈ firsts as ↔ first? as header.hash = some header := by
  induction as with
  | nil => simp [firsts, first?]
  | cons a as ih =>
    by_cases same : a.header.hash = header.hash
    · simp [firsts, first?, same, eq_comm]
    · have differ : header ≠ a.header := fun equal => same (congrArg Header.hash equal.symm)
      have rest : first? (a :: as) header.hash = first? as header.hash := by
        simp [first?, same]
      rw [rest, ← ih]
      simp [firsts, differ, Ne.symm same]

theorem first?_isSome {hash : String} :
    (first? as hash).isSome = true ↔ ∃ a ∈ as, a.header.hash = hash := by
  simp [first?]

theorem first?_hash {hash : String} {header : Header} (found : first? as hash = some header) :
    header.hash = hash := by
  obtain ⟨a, here, rfl⟩ := Option.map_eq_some_iff.1 found
  simpa using List.find?_some here

theorem mem_hashes_firsts {hash : String} :
    hash ∈ (firsts as).map (·.hash) ↔ ∃ a ∈ as, a.header.hash = hash := by
  rw [← first?_isSome, Option.isSome_iff_exists, List.mem_map]
  constructor
  · rintro ⟨header, member, rfl⟩
    exact ⟨header, mem_firsts.1 member⟩
  · rintro ⟨header, found⟩
    have named := first?_hash found
    exact ⟨header, mem_firsts.2 (named.symm ▸ found), named⟩

theorem firsts_append (as : List Announcement) (a : Announcement) :
    firsts (as ++ [a]) =
      if ∃ b ∈ as, b.header.hash = a.header.hash then firsts as else firsts as ++ [a.header] := by
  induction as with
  | nil => simp [firsts]
  | cons b as ih =>
    have split : (∃ c ∈ b :: as, c.header.hash = a.header.hash) ↔
        b.header.hash = a.header.hash ∨ ∃ c ∈ as, c.header.hash = a.header.hash := by simp
    rw [List.cons_append, firsts, ih, firsts, ite_cond_congr (propext split)]
    -- The hash may be that of the head, or of a header behind it.
    by_cases later : ∃ c ∈ as, c.header.hash = a.header.hash
    · rw [if_pos later, if_pos (.inr later)]
    · rw [if_neg later, List.filter_append]
      by_cases same : b.header.hash = a.header.hash
      · simp [same]
      · simp [same, Ne.symm same, later]

theorem first?_append {hash : String} (known : ∃ b ∈ as, b.header.hash = hash) :
    first? (as ++ [a]) hash = first? as hash := by
  rw [← first?_isSome, first?, Option.isSome_map] at known
  rw [first?, List.find?_append, Option.or_of_isSome known, first?]

theorem sources_append (hash : String) :
    sources (as ++ [a]) hash =
      if a.header.hash = hash then SortedSet.add (sources as hash) a.source else sources as hash := by
  by_cases same : a.header.hash = hash <;>
    simp [sources, List.filter_append, same, SortedSet.ofList, List.foldl_append]

theorem warnings_append :
    warnings (as ++ [a]) = warnings as ++ (warning? (as ++ [a]) a).toList := by
  -- The headers before have the same first one of their hash as ever, so they warn of the same.
  have before : ∀ bs : List Announcement, (∀ b ∈ bs, b ∈ as) →
      bs.filterMap (warning? (as ++ [a])) = bs.filterMap (warning? as) := by
    intro bs within
    induction bs with
    | nil => rfl
    | cons b bs ih =>
      have same : warning? (as ++ [a]) b = warning? as b := by
        simp only [warning?, first?_append ⟨b, within b (by simp), rfl⟩]
      have rest := ih fun c member => within c (List.mem_cons_of_mem b member)
      rw [List.filterMap_cons, List.filterMap_cons, same, rest]
  rw [warnings, List.filterMap_append, before as fun _ member => member, warnings]
  cases told : warning? (as ++ [a]) a <;> simp [told]

theorem block_append {table : SealTable} (arrival : Nat) (header : Header) :
    block table (as ++ [a]) arrival header =
      if header.hash = a.header.hash then
        { block table as arrival header with
          reportingSources := SortedSet.add (sources as header.hash) a.source }
      else block table as arrival header := by
  unfold block
  rw [sources_append]
  by_cases same : header.hash = a.header.hash
  · simp [same]
  · simp [same, Ne.symm same]

theorem blocks_append_known {table : SealTable} (known : ∃ b ∈ as, b.header.hash = a.header.hash) :
    blocks table (as ++ [a]) = (blocks table as).map fun b =>
      if b.hash = a.header.hash then
        { b with reportingSources := SortedSet.add b.reportingSources a.source }
      else b := by
  rw [blocks, firsts_append, if_pos known]
  apply List.ext_getElem?
  intro i
  rw [List.getElem?_mapIdx, List.getElem?_map, blocks, List.getElem?_mapIdx]
  cases (firsts as)[i]? with
  | none => rfl
  | some header => exact congrArg some (block_append i header)

theorem blocks_append_new {table : SealTable}
    (fresh : ¬ ∃ b ∈ as, b.header.hash = a.header.hash) :
    blocks table (as ++ [a]) = blocks table as ++
      [.ofHeader a.header (table.classify a.header) a.source (blocks table as).length] := by
  have none : sources as a.header.hash = .empty := by
    have absent : (as.filter fun b => b.header.hash == a.header.hash) = [] := by
      simpa using fresh
    rw [sources, absent]
    rfl
  -- The other blocks get no new source.
  have others : (firsts as).mapIdx (block table (as ++ [a])) = (firsts as).mapIdx (block table as) := by
    rw [List.mapIdx_eq_mapIdx_iff]
    intro i bound
    refine (block_append i _).trans (if_neg fun same => fresh ?_)
    rw [← same]
    exact mem_hashes_firsts.1 (List.mem_map_of_mem (List.getElem_mem bound))
  rw [blocks, firsts_append, if_neg fresh, List.mapIdx_concat, others, blocks, List.length_mapIdx,
    block_append, if_pos rfl, none]
  rfl

theorem hashes_blocks (table : SealTable) (as : List Announcement) :
    (blocks table as).map (·.hash) = (firsts as).map (·.hash) := by
  apply List.ext_getElem?
  intro i
  rw [List.getElem?_map, List.getElem?_map, blocks, List.getElem?_mapIdx]
  cases (firsts as)[i]? <;> rfl

theorem warning?_new (fresh : ¬ ∃ b ∈ as, b.header.hash = a.header.hash) :
    warning? (as ++ [a]) a = none := by
  have first : first? (as ++ [a]) a.header.hash = some a.header := by
    have absent : as.find? (fun b => b.header.hash == a.header.hash) = none := by
      simpa using fresh
    simp [first?, List.find?_append, absent]
  simp [warning?, first]

end Reference

/-! ## The store shows the reference -/

namespace BlockStore

variable {s : BlockStore} {as : List Announcement} {a : Announcement}

/-- The store has the blocks and the warnings of some headers. -/
structure Refines (s : BlockStore) (as : List Announcement) : Prop where
  valid : s.Valid
  blocks : s.blocks = Reference.blocks s.table as
  warnings : s.warnings = Reference.warnings as

theorem Refines.mem_hashes (refines : s.Refines as) {hash : String} :
    hash ∈ s.hashes ↔ ∃ a ∈ as, a.header.hash = hash := by
  rw [hashes, refines.blocks, Reference.hashes_blocks, Reference.mem_hashes_firsts]

/-- The height of a known block is that of the first header of its hash. -/
theorem Refines.first_height (refines : s.Refines as) {known : Block} (stored : known ∈ s.blocks) :
    (Reference.first? as known.hash).map (·.number) = some known.height := by
  rw [refines.blocks] at stored
  obtain ⟨i, bound, rfl⟩ := List.mem_mapIdx.1 stored
  show (Reference.first? as (Reference.firsts as)[i].hash).map (·.number) = _
  rw [Reference.mem_firsts.1 (List.getElem_mem bound)]
  rfl

theorem Refines.inserted_known (refines : s.Refines as) (named : a.header.isBlank = false)
    {known : Block} (stored : s.byHash? a.header.hash = some known) :
    (s.inserted a).Refines (as ++ [a]) := by
  obtain ⟨member, hash⟩ := refines.valid.byHash?_eq_some.1 stored
  have seen : ∃ b ∈ as, b.header.hash = a.header.hash :=
    refines.mem_hashes.1 (hash ▸ List.mem_map_of_mem member)
  refine ⟨refines.valid.inserted a, ?_, ?_⟩
  · rw [BlockStore.inserted_known named stored, mergeKnown_store, Reference.blocks_append_known seen,
      refines.valid.modify_blocks, refines.blocks, hash]
  · rw [BlockStore.inserted_known named stored, mergeKnown_store, Reference.warnings_append,
      refines.warnings]
    -- The store compares with the stored block, the reference with the first header of the hash.
    have height := refines.first_height member
    rw [hash] at height
    obtain ⟨header, first, number⟩ := Option.map_eq_some_iff.1 height
    simp only [Reference.warning?, Reference.first?_append seen, first, heightWarning?, ← number, hash]
    rfl

theorem Refines.inserted_new (refines : s.Refines as) (named : a.header.isBlank = false)
    (fresh : s.byHash? a.header.hash = none) : (s.inserted a).Refines (as ++ [a]) := by
  have unseen : ¬ ∃ b ∈ as, b.header.hash = a.header.hash :=
    mt refines.mem_hashes.2 (refines.valid.byHash?_eq_none.1 fresh)
  refine ⟨refines.valid.inserted a, ?_, ?_⟩
  · rw [BlockStore.inserted_new named fresh, insertNew_blocks, insertNew_table,
      Reference.blocks_append_new unseen, ← refines.blocks, ← refines.valid.counted]
    rfl
  · rw [BlockStore.inserted_new named fresh, insertNew_warnings, refines.warnings,
      Reference.warnings_append, Reference.warning?_new unseen, Option.toList_none, List.append_nil]

theorem Refines.inserted (refines : s.Refines as) (named : a.header.isBlank = false) :
    (s.inserted a).Refines (as ++ [a]) := by
  cases found : s.byHash? a.header.hash with
  | some known => exact refines.inserted_known named found
  | none => exact refines.inserted_new named found

/-- The headers that are not refused. -/
def admitted (as : List Announcement) : List Announcement := as.filter fun a => !a.header.isBlank

/-- Headers are added to the reference, apart from blank ones. -/
theorem Refines.insertAll (refines : s.Refines as) (bs : List Announcement) :
    (s.insertAll bs).Refines (as ++ admitted bs) := by
  induction bs generalizing s as with
  | nil => simpa [admitted, BlockStore.insertAll] using refines
  | cons b bs ih =>
    cases blank : b.header.isBlank with
    | true =>
      have rest := ih refines
      simp only [admitted, BlockStore.insertAll, List.foldl_cons, inserted_blank blank] at rest ⊢
      simpa [blank] using rest
    | false =>
      have rest := ih (refines.inserted blank)
      simpa [admitted, BlockStore.insertAll, blank] using rest

theorem refines_new (table : SealTable) (policy : EdgePolicy) :
    (BlockStore.new table policy).Refines [] := ⟨.new table policy, rfl, rfl⟩

/-! ## Queries -/

/-- What the queries of a store answer when it was given some headers, none of them blank. -/
structure Shows (s : BlockStore) (table : SealTable) (as : List Announcement) : Prop where
  blocks : s.blocks = Reference.blocks table as
  byHash? : ∀ hash, s.byHash? hash = (Reference.blocks table as).find? (·.hash == hash)
  contains : ∀ hash, s.contains hash = as.any (·.header.hash == hash)
  atHeight : ∀ height, s.atHeight height =
    ((Reference.blocks table as).filter (·.height == height)).map (·.hash)
  heights_ascending : (s.heights.toList.map (·.1)).Pairwise (· < ·)
  heights : ∀ height hashes, (height, hashes) ∈ s.heights.toList ↔
    hashes ≠ [] ∧ hashes = s.atHeight height
  tipHeight? : s.tipHeight? = ((Reference.blocks table as).map (·.height)).max?
  warnings : s.warnings = Reference.warnings as
  orphans : s.orphans = (Reference.blocks table as).filter fun b =>
    b.height != 0 && !as.any (·.header.hash == b.parentHash)

theorem Refines.contains (refines : s.Refines as) (hash : String) :
    s.contains hash = as.any (·.header.hash == hash) := by
  rw [Bool.eq_iff_iff, refines.valid.mem_hashes, refines.mem_hashes]
  simp

theorem Refines.shows (refines : s.Refines as) : s.Shows s.table as where
  blocks := refines.blocks
  byHash? hash := by rw [refines.valid.byHash?_eq_find?, refines.blocks]
  contains := refines.contains
  atHeight height := by rw [refines.valid.atHeight_eq, hashesAt, refines.blocks]
  heights_ascending := s.heights.keys_ascending
  heights height hashes := by
    rw [SortedMap.mem_toList, refines.valid.levelled, listed_eq_some, refines.valid.atHeight_eq]
    constructor
    · rintro ⟨some, rfl⟩
      exact ⟨some, rfl⟩
    · rintro ⟨some, rfl⟩
      exact ⟨some, rfl⟩
  tipHeight? := by rw [refines.valid.tipHeight?_eq, refines.blocks]
  warnings := refines.warnings
  orphans := by
    rw [BlockStore.orphans, refines.blocks]
    simp only [refines.contains]
    rfl

/-- A store answers every query as the list of its headers does: the blank ones are refused and change
nothing, and all others count. -/
theorem insertAll_shows (table : SealTable) (policy : EdgePolicy) (as : List Announcement) :
    ((BlockStore.new table policy).insertAll as).Shows table (admitted as) ∧
      ∀ a : Announcement, a.header.isBlank = true →
        ((BlockStore.new table policy).insertAll as).insert a.header a.source =
            .error (.blankHash a.header.number (some a.source)) ∧
          ((BlockStore.new table policy).insertAll as).inserted a =
            (BlockStore.new table policy).insertAll as := by
  constructor
  · have shows := ((refines_new table policy).insertAll as).shows
    rwa [(insertAll_kept _ as).1] at shows
  · exact fun a blank => ⟨insert_blank _ _ _ blank, inserted_blank blank⟩

end BlockStore

end BlockGraph
