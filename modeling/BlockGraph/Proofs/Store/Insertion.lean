import BlockGraph.Proofs.Store.Valid

/-!
# Insertions into a valid store

What an insertion does to each part of a store, and that it leaves a valid store valid.

* `insertNew_eq` — every part of the store after a header of a new hash.
* `mergeKnown_store` — the store after a header of a known one.
* `Valid.inserted`, `Valid.insertAll` — insertions keep a store valid.
-/

namespace BlockGraph

/-- A header with the source that has reported it. -/
structure Announcement where
  source : String
  header : Header
  deriving DecidableEq, Repr

namespace BlockStore

variable {s : BlockStore}

/-- The store after a header, which is the same store when the header is refused. -/
def inserted (s : BlockStore) (a : Announcement) : BlockStore :=
  match s.insert a.header a.source with
  | .ok (t, _) => t
  | .error _ => s

/-- The store after headers, one after another. -/
def insertAll (s : BlockStore) (as : List Announcement) : BlockStore := as.foldl inserted s

/-! ## The three outcomes of an insertion -/

theorem insert_new {header : Header} {source : String} (named : header.isBlank = false)
    (fresh : s.byHash? header.hash = none) :
    s.insert header source = .ok (s.insertNew header source) := by
  simp [insert, named, fresh]

theorem insert_known {header : Header} {source : String} {known : Block}
    (named : header.isBlank = false) (stored : s.byHash? header.hash = some known) :
    s.insert header source = .ok (s.mergeKnown known header source) := by
  simp [insert, named, stored]

theorem inserted_blank {a : Announcement} (blank : a.header.isBlank = true) :
    s.inserted a = s := by
  simp [inserted, insert_blank s a.header a.source blank]

theorem inserted_new {a : Announcement} (named : a.header.isBlank = false)
    (fresh : s.byHash? a.header.hash = none) :
    s.inserted a = (s.insertNew a.header a.source).1 := by
  simp [inserted, insert_new named fresh]

theorem inserted_known {a : Announcement} {known : Block} (named : a.header.isBlank = false)
    (stored : s.byHash? a.header.hash = some known) :
    s.inserted a = (s.mergeKnown known a.header a.source).1 := by
  simp [inserted, insert_known named stored]

/-! ## A new hash -/

/-- The block that a header of a new hash becomes. -/
def newBlock (s : BlockStore) (header : Header) (source : String) : Block :=
  .ofHeader header (s.table.classify header) source s.nextSequence

/-- Whether a new block has to wait for its parent. -/
def mustWait (s : BlockStore) (b : Block) : Bool :=
  !s.contains b.parentHash && (s.policy = .backfill && !b.isGenesis && b.parentHash ≠ b.hash)

/-- The edge from the parent of a new block, if that is stored. -/
def parentEdge (s : BlockStore) (b : Block) : Option Edge :=
  if s.contains b.parentHash then some ⟨b.parentHash, b.hash⟩ else none

/-- The table of waiting children with a new block in it, if it has to wait. -/
def waitingWith (s : BlockStore) (b : Block) : SortedMap String (List String) :=
  if s.mustWait b then s.waiting.append b.parentHash b.hash else s.waiting

/-- The edges to the children that have waited for a new block. -/
def childEdges (s : BlockStore) (b : Block) : List Edge :=
  (((s.waitingWith b).get? b.hash).getD []).map fun child => ⟨b.hash, child⟩

theorem linkParent_eq (s : BlockStore) (b : Block) :
    s.linkParent b =
      ({ s with edges := s.edges ++ (s.parentEdge b).toList, waiting := s.waitingWith b },
        s.parentEdge b) := by
  unfold linkParent parentEdge waitingWith
  split
  next stored => simp [mustWait, stored]
  next missing =>
    rw [Bool.not_eq_true] at missing
    split
    next waits =>
      have must : s.mustWait b = true := by rw [mustWait, missing, waits]; rfl
      simp [must]
    next free =>
      have idle : s.mustWait b = false := by
        rw [mustWait, missing, (Bool.not_eq_true _).mp free]; rfl
      simp [idle]

/-- The parts of a store after a header of a new hash. -/
theorem insertNew_eq (s : BlockStore) (header : Header) (source : String) :
    let b := s.newBlock header source
    s.insertNew header source =
      ({ s with
          blocks := s.blocks ++ [b]
          index := s.index.insert b.hash s.blocks.length
          heights := s.heights.append b.height b.hash
          edges := s.edges ++ ((s.parentEdge b).toList ++ s.childEdges b)
          waiting := (s.waitingWith b).erase b.hash
          nextSequence := s.nextSequence + 1 },
        ⟨true, b, s.parentEdge b, s.childEdges b, true, none⟩) := by
  intro b
  have linked := linkParent_eq { s with nextSequence := s.nextSequence + 1 } b
  simp only [insertNew]
  rw [show Block.ofHeader header (s.table.classify header) source s.nextSequence = b from rfl,
    linked]
  simp only [adoptChildren, append, List.append_assoc]
  rfl

section
variable {header : Header} {source : String}

theorem insertNew_blocks :
    (s.insertNew header source).1.blocks = s.blocks ++ [s.newBlock header source] := by
  rw [insertNew_eq]

theorem insertNew_edges :
    (s.insertNew header source).1.edges =
      s.edges ++ ((s.parentEdge (s.newBlock header source)).toList ++
        s.childEdges (s.newBlock header source)) := by
  rw [insertNew_eq]

theorem insertNew_hashes :
    (s.insertNew header source).1.hashes = s.hashes ++ [header.hash] := by
  simp [hashes, insertNew_blocks, newBlock, Block.ofHeader]

@[simp] theorem insertNew_policy : (s.insertNew header source).1.policy = s.policy := by
  rw [insertNew_eq]

@[simp] theorem insertNew_table : (s.insertNew header source).1.table = s.table := by
  rw [insertNew_eq]

@[simp] theorem insertNew_warnings : (s.insertNew header source).1.warnings = s.warnings := by
  rw [insertNew_eq]

end

/-! ## A valid store stays valid -/

theorem getElem?_append_singleton {α : Type} {l : List α} {a x : α} {i : Nat} :
    (l ++ [a])[i]? = some x ↔ l[i]? = some x ∨ i = l.length ∧ x = a := by
  rw [List.getElem?_append]
  split
  next before =>
    have other : i ≠ l.length := Nat.ne_of_lt before
    simp [other]
  next behind =>
    have none : l[i]? = none := List.getElem?_eq_none (Nat.le_of_not_lt behind)
    rw [List.getElem?_singleton, none]
    by_cases last : i = l.length
    · simp [last, eq_comm]
    · have gap : i - l.length ≠ 0 := by omega
      simp [last, gap]

theorem mustWait_iff {b : Block} :
    s.mustWait b = true ↔ s.contains b.parentHash = false ∧ s.policy = .backfill ∧
      b.isGenesis = false ∧ b.parentHash ≠ b.hash := by
  simp [mustWait, and_assoc]

theorem get?_waitingWith (s : BlockStore) (b : Block) (parent : String) :
    (s.waitingWith b).get? parent =
      if s.mustWait b = true ∧ parent = b.parentHash then
        some ((s.waiting.get? parent).getD [] ++ [b.hash])
      else s.waiting.get? parent := by
  unfold waitingWith
  by_cases must : s.mustWait b = true
  · by_cases same : parent = b.parentHash <;> simp [must, same, SortedMap.get?_append]
  · simp [must]

theorem mem_waitingFor {parent hash : String} :
    hash ∈ s.waitingFor parent ↔ s.policy = .backfill ∧ parent ∉ s.hashes ∧
      ∃ b ∈ s.blocks, b.isGenesis = false ∧ b.parentHash = parent ∧ b.hash = hash := by
  unfold waitingFor childrenOf
  split
  next open_ => simp [open_, and_assoc]
  next closed =>
    simp only [List.not_mem_nil, false_iff]
    exact fun ⟨policy, missing, _⟩ => closed ⟨policy, missing⟩

theorem stored_of_waits {parent hash : String} (waits : hash ∈ s.waitingFor parent) :
    hash ∈ s.hashes := by
  obtain ⟨_, _, b, stored, _, _, rfl⟩ := mem_waitingFor.1 waits
  exact List.mem_map_of_mem stored

namespace Valid

theorem firstSeenAt_lt (valid : s.Valid) {b : Block} (stored : b ∈ s.blocks) :
    b.firstSeenAt < s.nextSequence := by
  have member : b.firstSeenAt ∈ List.range s.blocks.length := by
    rw [← valid.numbered]
    exact List.mem_map_of_mem stored
  rw [valid.counted]
  exact List.mem_range.1 member

theorem waitingFor_nodup (valid : s.Valid) (parent : String) : (s.waitingFor parent).Nodup := by
  unfold waitingFor
  split
  · exact valid.hashes_nodup.sublist (List.filter_sublist.map _)
  · exact List.nodup_nil

theorem childEdges_eq (valid : s.Valid) (b : Block) :
    s.childEdges b = (s.waitingFor b.hash).map fun child => ⟨b.hash, child⟩ := by
  have other : ¬ (s.mustWait b = true ∧ b.hash = b.parentHash) :=
    fun ⟨must, own⟩ => (mustWait_iff.1 must).2.2.2 own.symm
  rw [childEdges, get?_waitingWith, if_neg other, valid.awaited, listed_getD]

theorem parentEdge_eq (valid : s.Valid) (b : Block) :
    s.parentEdge b = if b.parentHash ∈ s.hashes then some ⟨b.parentHash, b.hash⟩ else none := by
  unfold parentEdge
  by_cases stored : b.parentHash ∈ s.hashes
  · simp [stored, valid.mem_hashes.2 stored]
  · simp [stored, valid.not_mem_hashes.2 stored]

/-! The parts of the store after a header of a new hash, one by one. -/

variable {header : Header} {source : String}

theorem indexed_insertNew (valid : s.Valid) (fresh : header.hash ∉ s.hashes) (hash : String)
    (i : Nat) :
    (s.insertNew header source).1.index.get? hash = some i ↔
      (s.insertNew header source).1.hashes[i]? = some hash := by
  rw [insertNew_hashes, getElem?_append_singleton, insertNew_eq]
  -- The new place is the one behind all others.
  have long : s.hashes.length = s.blocks.length := List.length_map ..
  show (s.index.insert header.hash s.blocks.length).get? hash = some i ↔ _
  rw [SortedMap.get?_insert]
  by_cases same : hash = header.hash
  · have absent : s.hashes[i]? ≠ some header.hash := fun here =>
      fresh (List.mem_of_getElem? here)
    simp [same, absent, long, eq_comm]
  · simp [same, valid.indexed]

theorem levelled_insertNew (valid : s.Valid) (height : UInt64) :
    (s.insertNew header source).1.heights.get? height =
      listed ((s.insertNew header source).1.hashesAt height) := by
  rw [hashesAt, insertNew_blocks, insertNew_eq, List.filter_append, List.map_append]
  show (s.heights.append header.number header.hash).get? height = _
  rw [SortedMap.get?_append]
  -- Only the level of the new block grows.
  by_cases same : height = header.number
  · subst same
    have last : ([s.newBlock header source].filter fun b => b.height == header.number) =
        [s.newBlock header source] := by simp [newBlock, Block.ofHeader]
    rw [last, if_pos rfl, valid.levelled, listed_getD]
    exact (listed_append_singleton _ _).symm
  · have none : ([s.newBlock header source].filter fun b => b.height == height) = [] := by
      simp [newBlock, Block.ofHeader, Ne.symm same]
    rw [none, if_neg same, valid.levelled, hashesAt]
    simp

theorem awaited_insertNew (valid : s.Valid) (parent : String) :
    (s.insertNew header source).1.waiting.get? parent =
      listed ((s.insertNew header source).1.waitingFor parent) := by
  rw [waitingFor, insertNew_hashes, insertNew_policy, childrenOf, insertNew_blocks, insertNew_eq]
  show ((s.waitingWith (s.newBlock header source)).erase header.hash).get? parent = _
  rw [SortedMap.get?_erase]
  -- Who waited for the new block is linked to it, and waits no more.
  by_cases own : parent = header.hash
  · simp [own]
  rw [if_neg own, get?_waitingWith]
  have stays : parent ∉ s.hashes ++ [header.hash] ↔ parent ∉ s.hashes := by simp [own]
  -- The new block itself waits for one parent at most.
  by_cases must : s.mustWait (s.newBlock header source) = true ∧
      parent = (s.newBlock header source).parentHash
  · obtain ⟨must, rfl⟩ := must
    obtain ⟨missing, policy, above, differ⟩ := mustWait_iff.1 must
    have missing := valid.not_mem_hashes.1 missing
    rw [if_pos ⟨must, rfl⟩, if_pos ⟨policy, stays.2 missing⟩, valid.awaited, listed_getD,
      waitingFor, if_pos ⟨policy, missing⟩, childrenOf, List.filter_append, List.map_append]
    simp [above]
  · rw [if_neg must, valid.awaited, waitingFor]
    congr 1
    by_cases open_ : s.policy = .backfill ∧ parent ∉ s.hashes
    · rw [if_pos open_, if_pos ⟨open_.1, stays.2 open_.2⟩, childrenOf, List.filter_append,
        List.map_append]
      have idle : ([s.newBlock header source].filter fun b =>
          !b.isGenesis && b.parentHash == parent) = [] := by
        rw [List.filter_eq_nil_iff]
        intro b last waits
        obtain rfl := List.mem_singleton.1 last
        simp only [Bool.and_eq_true, Bool.not_eq_true', beq_iff_eq] at waits
        refine must ⟨mustWait_iff.2 ⟨?_, open_.1, waits.1, ?_⟩, waits.2.symm⟩
        · rw [waits.2]; exact valid.not_mem_hashes.2 open_.2
        · rw [waits.2]; exact own
      rw [idle]
      simp
    · rw [if_neg open_, if_neg fun both => open_ ⟨both.1, stays.1 both.2⟩]

theorem linked_insertNew (valid : s.Valid) (fresh : header.hash ∉ s.hashes) (e : Edge) :
    e ∈ (s.insertNew header source).1.edges ↔ (s.insertNew header source).1.Linked e := by
  have stranger : ∀ b ∈ s.blocks, b.hash ≠ header.hash := fun b stored same =>
    fresh (List.mem_map.2 ⟨b, stored, same⟩)
  rw [insertNew_edges, valid.parentEdge_eq, valid.childEdges_eq]
  simp only [Linked, insertNew_blocks, insertNew_policy, List.mem_append, List.mem_singleton]
  constructor
  -- Every edge is an old one, leads up from the new block, or down to a child that has waited.
  · rintro (old | up | down)
    · obtain ⟨parent, parentStored, child, childStored, shape⟩ := (valid.linked e).1 old
      exact ⟨parent, .inl parentStored, child, .inl childStored, shape⟩
    · split at up
      next stored =>
        obtain ⟨parent, parentStored, named⟩ := List.mem_map.1 stored
        refine ⟨parent, .inl parentStored, _, .inr rfl, ?_, named.symm,
          stranger parent parentStored, .inl (valid.firstSeenAt_lt parentStored)⟩
        rw [named]
        exact List.mem_singleton.1 up
      next => cases up
    · obtain ⟨_, waits, rfl⟩ := List.mem_map.1 down
      obtain ⟨policy, _, child, childStored, above, named, rfl⟩ := mem_waitingFor.1 waits
      exact ⟨_, .inr rfl, child, .inl childStored, rfl, named,
        (stranger child childStored).symm, .inr ⟨policy, above⟩⟩
  · rintro ⟨parent, parentStored, child, childStored, rfl, named, differ, order⟩
    rcases parentStored with parentStored | rfl <;> rcases childStored with childStored | rfl
    · exact .inl ((valid.linked _).2
        ⟨parent, parentStored, child, childStored, rfl, named, differ, order⟩)
    · refine .inr (.inl ?_)
      have stored : parent.hash ∈ s.hashes := List.mem_map_of_mem parentStored
      rw [named, if_pos stored]
      exact List.mem_singleton.2 rfl
    · refine .inr (.inr (List.mem_map.2 ⟨child.hash, mem_waitingFor.2 ?_, rfl⟩))
      -- The new block comes last, so only a child that could wait is linked to it.
      have late : ¬ s.nextSequence < child.firstSeenAt :=
        Nat.not_lt.2 (Nat.le_of_lt (valid.firstSeenAt_lt childStored))
      obtain ⟨policy, above⟩ := order.resolve_left late
      exact ⟨policy, fresh, child, childStored, above, named, rfl⟩
    · exact absurd rfl differ

theorem edge_ends (valid : s.Valid) {e : Edge} (member : e ∈ s.edges) :
    e.parentHash ∈ s.hashes ∧ e.childHash ∈ s.hashes := by
  obtain ⟨parent, parentStored, child, childStored, rfl, _⟩ := (valid.linked e).1 member
  exact ⟨List.mem_map_of_mem parentStored, List.mem_map_of_mem childStored⟩

theorem edges_nodup_insertNew (valid : s.Valid) (fresh : header.hash ∉ s.hashes) :
    (s.insertNew header source).1.edges.Nodup := by
  rw [insertNew_edges, valid.parentEdge_eq, valid.childEdges_eq]
  show (s.edges ++ ((if header.parentHash ∈ s.hashes then
      some (⟨header.parentHash, header.hash⟩ : Edge) else none).toList ++
    (s.waitingFor header.hash).map fun child => (⟨header.hash, child⟩ : Edge))).Nodup
  have childrenNodup : ((s.waitingFor header.hash).map fun child =>
      (⟨header.hash, child⟩ : Edge)).Nodup :=
    List.pairwise_map.2 ((valid.waitingFor_nodup _).imp fun differ same =>
      differ (congrArg Edge.childHash same))
  refine List.nodup_append.2 ⟨valid.edges_nodup, List.nodup_append.2 ⟨?_, childrenNodup, ?_⟩, ?_⟩
  · split <;> simp
  · rintro e up _ down rfl
    obtain ⟨child, waits, rfl⟩ := List.mem_map.1 down
    split at up
    · have same : child = header.hash := congrArg Edge.childHash (List.mem_singleton.1 up)
      exact fresh (same ▸ stored_of_waits waits)
    · cases up
  · -- An edge that is there already has both ends in the store, every other one touches the block.
    rintro e old _ new rfl
    rcases List.mem_append.1 new with up | down
    · split at up
      · rw [List.mem_singleton.1 up] at old
        exact fresh (valid.edge_ends old).2
      · cases up
    · obtain ⟨child, _, rfl⟩ := List.mem_map.1 down
      exact fresh (valid.edge_ends old).1

theorem insertNew (valid : s.Valid) (fresh : header.hash ∉ s.hashes) :
    (s.insertNew header source).1.Valid where
  indexed := valid.indexed_insertNew fresh
  levelled := valid.levelled_insertNew
  counted := by rw [insertNew_eq]; simp [valid.counted]
  numbered := by
    rw [insertNew_blocks, List.map_append, valid.numbered, List.length_append, List.length_singleton,
      List.range_succ, ← valid.counted]
    rfl
  linked := valid.linked_insertNew fresh
  edges_nodup := valid.edges_nodup_insertNew fresh
  awaited := valid.awaited_insertNew

end Valid

/-! ## A known hash -/

theorem mergeKnown_store (s : BlockStore) (known : Block) (header : Header) (source : String) :
    (s.mergeKnown known header source).1 =
      { s with
        blocks := (s.modify known.hash fun b =>
          { b with reportingSources := SortedSet.add b.reportingSources source }).blocks
        warnings := s.warnings ++ (heightWarning? known header source).toList } := by
  rw [mergeKnown, modify_eq]

theorem mergeKnown_bare (s : BlockStore) (known : Block) (header : Header) (source : String) :
    (s.mergeKnown known header source).1.bare = s.bare := by
  have same := modify_map s known.hash
    (f := fun b => { b with reportingSources := SortedSet.add b.reportingSources source })
    (g := Block.bare) fun _ => rfl
  rw [mergeKnown_store, bare, bare]
  simp only [same]

theorem Valid.mergeKnown (valid : s.Valid) (known : Block) (header : Header) (source : String) :
    (s.mergeKnown known header source).1.Valid := valid.of_bare (mergeKnown_bare ..)

/-- A block does not change when a source of it is added again. -/
theorem Valid.credit_again (valid : s.Valid) {hash source : String} {known : Block}
    (stored : s.byHash? hash = some known)
    (reported : SortedMap.contains known.reportingSources source = true) :
    (s.modify known.hash fun b =>
      { b with reportingSources := SortedSet.add b.reportingSources source }).blocks = s.blocks := by
  obtain ⟨member, _⟩ := valid.byHash?_eq_some.1 stored
  rw [valid.modify_blocks]
  have unchanged : ∀ b ∈ s.blocks, (if b.hash = known.hash then
      { b with reportingSources := SortedSet.add b.reportingSources source } else b) = b := by
    intro b here
    split
    next same => rw [valid.eq_of_hash_eq here member same, SortedSet.add_of_contains reported]
    next => rfl
  rw [List.map_congr_left unchanged, List.map_id']

/-! ## Runs of insertions -/

theorem Valid.new (table : SealTable) (policy : EdgePolicy) : (BlockStore.new table policy).Valid where
  indexed := by simp [BlockStore.new, hashes]
  levelled := by simp [BlockStore.new, hashesAt]
  counted := rfl
  numbered := rfl
  linked := by simp [BlockStore.new, Linked]
  edges_nodup := List.nodup_nil
  awaited := by simp [BlockStore.new, waitingFor, childrenOf]

theorem Valid.inserted (valid : s.Valid) (a : Announcement) : (s.inserted a).Valid := by
  cases blank : a.header.isBlank with
  | true => rw [inserted_blank blank]; exact valid
  | false =>
    cases found : s.byHash? a.header.hash with
    | none =>
      rw [inserted_new blank found]
      exact valid.insertNew (valid.byHash?_eq_none.1 found)
    | some known =>
      rw [inserted_known blank found]
      exact valid.mergeKnown known a.header a.source

/-- Insertions keep the table and the policy. -/
theorem inserted_kept (s : BlockStore) (a : Announcement) :
    (s.inserted a).table = s.table ∧ (s.inserted a).policy = s.policy := by
  cases blank : a.header.isBlank with
  | true => rw [inserted_blank blank]; exact ⟨rfl, rfl⟩
  | false =>
    cases found : s.byHash? a.header.hash with
    | some known => rw [inserted_known blank found, mergeKnown_store]; exact ⟨rfl, rfl⟩
    | none => rw [inserted_new blank found]; exact ⟨insertNew_table, insertNew_policy⟩

theorem insertAll_kept (s : BlockStore) (as : List Announcement) :
    (s.insertAll as).table = s.table ∧ (s.insertAll as).policy = s.policy := by
  induction as generalizing s with
  | nil => exact ⟨rfl, rfl⟩
  | cons a as ih =>
    obtain ⟨table, policy⟩ := ih (s.inserted a)
    obtain ⟨sameTable, samePolicy⟩ := inserted_kept s a
    exact ⟨table.trans sameTable, policy.trans samePolicy⟩

theorem Valid.insertAll (valid : s.Valid) (as : List Announcement) : (s.insertAll as).Valid := by
  induction as generalizing s with
  | nil => exact valid
  | cons a as ih => exact ih (valid.inserted a)

end BlockStore

end BlockGraph
