import BlockGraph.Proofs.Store.Derived
import Mathlib.Data.List.Induction

/-!
# Edges and waiting children

The edges of a store form a forest of blocks that name their parents, and the table of waiting
children holds the orphans. The two policies differ in the edges to children that came before their
parent, and in nothing else that is shown.

* `Knit` — what holds of the edges and of the table under a policy, `Valid.knit` — a valid store.
* `narrowed` — a store as it would be if it did not link late parents. Insertions commute with that
  (`Valid.narrowed_inserted`).
* `insertAll_knit` — both, for any run of insertions.
* `insertAll_links` — which late parents are linked, and where a link is missing.
-/

namespace BlockGraph.BlockStore

variable {s : BlockStore}

/-! ## Grouping -/

/-- The hashes of some blocks, grouped by the parent that each one names. -/
def byParent (blocks : List Block) : SortedMap String (List String) :=
  blocks.foldl (fun table b => table.append b.parentHash b.hash) .empty

theorem get?_byParent (blocks : List Block) (parent : String) :
    (byParent blocks).get? parent =
      listed ((blocks.filter fun b => b.parentHash == parent).map (·.hash)) := by
  induction blocks using List.reverseRecOn with
  | nil => rfl
  | append_singleton blocks b ih =>
    have last : byParent (blocks ++ [b]) = (byParent blocks).append b.parentHash b.hash := by
      simp [byParent, List.foldl_append]
    rw [last, SortedMap.get?_append, List.filter_append, List.map_append]
    by_cases same : parent = b.parentHash
    · subst same
      simp [ih]
    · simp [ih, same, Ne.symm same]

/-! ## The edges of a valid store -/

/-- What holds of the edges and of the waiting children under a policy. -/
structure Knit (policy : EdgePolicy) (s : BlockStore) : Prop where
  unique : s.edges.Nodup
  oneParent : (s.edges.map (·.childHash)).Nodup
  ends : ∀ e ∈ s.edges, ∃ parent child, s.byHash? e.parentHash = some parent ∧
    s.byHash? e.childHash = some child ∧ e.parentHash ≠ e.childHash ∧
      child.parentHash = e.parentHash
  early : ∀ parent ∈ s.blocks, ∀ child ∈ s.blocks, child.parentHash = parent.hash →
    parent.firstSeenAt < child.firstSeenAt → ⟨parent.hash, child.hash⟩ ∈ s.edges
  waiting : s.waiting = match policy with
    | .childOnly => .empty
    | .backfill => byParent s.orphans
  missing : ∀ parent ∈ s.waiting.keys, s.contains parent = false

namespace Valid

theorem edge_shape (valid : s.Valid) {e : Edge} (member : e ∈ s.edges) :
    ∃ parent child, s.byHash? e.parentHash = some parent ∧ s.byHash? e.childHash = some child ∧
      e.parentHash ≠ e.childHash ∧ child.parentHash = e.parentHash := by
  obtain ⟨parent, parentStored, child, childStored, rfl, named, differ, _⟩ := (valid.linked e).1 member
  exact ⟨parent, child, valid.byHash?_eq_some.2 ⟨parentStored, rfl⟩,
    valid.byHash?_eq_some.2 ⟨childStored, rfl⟩, differ, named⟩

/-- Two edges to one child come from the parent that the child names. -/
theorem edge_unique (valid : s.Valid) {e f : Edge} (left : e ∈ s.edges) (right : f ∈ s.edges)
    (same : e.childHash = f.childHash) : e = f := by
  obtain ⟨_, child, _, found, _, named⟩ := valid.edge_shape left
  obtain ⟨_, childToo, _, foundToo, _, namedToo⟩ := valid.edge_shape right
  obtain rfl := Option.some.inj (found.symm.trans (same ▸ foundToo))
  obtain ⟨parentHash, childHash⟩ := e
  obtain ⟨parentHash', childHash'⟩ := f
  rw [Edge.mk.injEq]
  exact ⟨named.symm.trans namedToo, same⟩

theorem edges_oneParent (valid : s.Valid) : (s.edges.map (·.childHash)).Nodup := by
  refine List.pairwise_map.2 (valid.edges_nodup.imp_of_mem fun left right differ same => ?_)
  exact differ (valid.edge_unique left right same)

theorem edge_early (valid : s.Valid) {parent child : Block} (parentStored : parent ∈ s.blocks)
    (childStored : child ∈ s.blocks) (named : child.parentHash = parent.hash)
    (before : parent.firstSeenAt < child.firstSeenAt) : ⟨parent.hash, child.hash⟩ ∈ s.edges := by
  refine (valid.linked _).2 ⟨parent, parentStored, child, childStored, rfl, named, ?_, .inl before⟩
  -- A block does not come before itself.
  intro own
  rw [valid.eq_of_hash_eq parentStored childStored own] at before
  exact Nat.lt_irrefl _ before

/-! ## The waiting children of a valid store -/

theorem orphans_named (valid : s.Valid) (parent : String) :
    (s.orphans.filter fun b => b.parentHash == parent).map (·.hash) =
      if parent ∈ s.hashes then [] else s.childrenOf parent := by
  rw [orphans, List.filter_filter, childrenOf]
  by_cases stored : parent ∈ s.hashes
  · rw [if_pos stored]
    have none : s.blocks.filter (fun b =>
        (b.parentHash == parent) && (!b.isGenesis && !s.contains b.parentHash)) = [] := by
      rw [List.filter_eq_nil_iff]
      intro b _ orphan
      simp only [Bool.and_eq_true, beq_iff_eq, Bool.not_eq_true'] at orphan
      obtain ⟨rfl, _, missing⟩ := orphan
      exact valid.not_mem_hashes.1 missing stored
    rw [none, List.map_nil]
  · rw [if_neg stored]
    congr 1
    apply List.filter_congr
    intro b _
    by_cases named : b.parentHash = parent
    · simp [named, valid.not_mem_hashes.2 stored]
    · have other : (b.parentHash == parent) = false := beq_false_of_ne named
      simp [other]

theorem waiting_childOnly (valid : s.Valid) (policy : s.policy = .childOnly) : s.waiting = .empty := by
  apply SortedMap.ext_get?
  intro parent
  rw [valid.awaited, waitingFor, policy]
  simp

theorem waiting_backfill (valid : s.Valid) (policy : s.policy = .backfill) :
    s.waiting = byParent s.orphans := by
  apply SortedMap.ext_get?
  intro parent
  rw [valid.awaited, get?_byParent, valid.orphans_named, waitingFor]
  by_cases stored : parent ∈ s.hashes <;> simp [policy, stored]

theorem waiting_missing (valid : s.Valid) {parent : String} (awaited : parent ∈ s.waiting.keys) :
    s.contains parent = false := by
  rw [SortedMap.mem_keys, valid.awaited, Option.isSome_iff_exists] at awaited
  obtain ⟨children, entry⟩ := awaited
  obtain ⟨some, _⟩ := listed_eq_some.1 entry
  rw [valid.not_mem_hashes]
  obtain ⟨hash, waits⟩ := List.exists_mem_of_ne_nil _ some
  exact (mem_waitingFor.1 waits).2.1

theorem knit (valid : s.Valid) : s.Knit s.policy where
  unique := valid.edges_nodup
  oneParent := valid.edges_oneParent
  ends _ member := valid.edge_shape member
  early _ parentStored _ childStored := valid.edge_early parentStored childStored
  waiting := by
    cases policy : s.policy with
    | childOnly => exact valid.waiting_childOnly policy
    | backfill => exact valid.waiting_backfill policy
  missing _ awaited := valid.waiting_missing awaited

end Valid

/-! ## The same store without late parents -/

/-- Whether the parent of an edge came before the child. -/
def leadsForward (s : BlockStore) (e : Edge) : Bool :=
  (s.byHash? e.parentHash).any fun parent =>
    (s.byHash? e.childHash).any fun child => parent.firstSeenAt < child.firstSeenAt

/-- The store as it would be if it did not link late parents. -/
def narrowed (s : BlockStore) : BlockStore :=
  { s with policy := .childOnly, edges := s.edges.filter s.leadsForward, waiting := .empty }

theorem Valid.leadsForward_iff (valid : s.Valid) {e : Edge} :
    s.leadsForward e = true ↔ ∃ parent ∈ s.blocks, ∃ child ∈ s.blocks,
      e = ⟨parent.hash, child.hash⟩ ∧ parent.firstSeenAt < child.firstSeenAt := by
  simp only [leadsForward, Option.any_eq_true, valid.byHash?_eq_some, decide_eq_true_eq]
  constructor
  · rintro ⟨parent, ⟨parentStored, parentHash⟩, child, ⟨childStored, childHash⟩, before⟩
    exact ⟨parent, parentStored, child, childStored, by rw [parentHash, childHash], before⟩
  · rintro ⟨parent, parentStored, child, childStored, rfl, before⟩
    exact ⟨parent, ⟨parentStored, rfl⟩, child, ⟨childStored, rfl⟩, before⟩

/-- Only the hashes and the arrival of the blocks count. -/
theorem leadsForward_congr {t : BlockStore} (index : t.index = s.index)
    (arrivals : t.blocks.map (·.firstSeenAt) = s.blocks.map (·.firstSeenAt)) :
    t.leadsForward = s.leadsForward := by
  have arrival : ∀ hash, (t.byHash? hash).map (·.firstSeenAt) = (s.byHash? hash).map (·.firstSeenAt) := by
    intro hash
    rw [byHash?, byHash?, index, Option.map_bind, Option.map_bind]
    congr 1
    funext i
    rw [Function.comp_apply, Function.comp_apply, ← List.getElem?_map, ← List.getElem?_map, arrivals]
  have shape : ∀ s : BlockStore, s.leadsForward = fun e =>
      ((s.byHash? e.parentHash).map (·.firstSeenAt)).any fun first =>
        ((s.byHash? e.childHash).map (·.firstSeenAt)).any fun second => first < second := by
    intro s
    funext e
    simp [leadsForward, Option.any_map]
  rw [shape, shape]
  simp only [arrival]

section
variable {header : Header} {source : String}

theorem narrowed_mergeKnown (s : BlockStore) (known : Block) (header : Header) (source : String) :
    (s.mergeKnown known header source).1.narrowed = (s.narrowed.mergeKnown known header source).1 := by
  have arrivals : (s.mergeKnown known header source).1.blocks.map (·.firstSeenAt) =
      s.blocks.map (·.firstSeenAt) := by
    rw [mergeKnown_store]
    exact modify_map s known.hash fun _ => rfl
  have forward : (s.mergeKnown known header source).1.leadsForward = s.leadsForward :=
    leadsForward_congr (by rw [mergeKnown_store]) arrivals
  have blocks : ∀ f, (s.narrowed.modify known.hash f).blocks = (s.modify known.hash f).blocks := by
    intro f
    have index : s.narrowed.index.get? known.hash = s.index.get? known.hash := rfl
    rw [modify, modify, index]
    cases s.index.get? known.hash <;> rfl
  rw [narrowed, forward, mergeKnown_store, mergeKnown_store, blocks]
  rfl

/-- A new block is linked forward to its parent, and backward to the children that have waited. -/
theorem Valid.leadsForward_insertNew (valid : s.Valid) (fresh : header.hash ∉ s.hashes) :
    (s.insertNew header source).1.edges.filter (s.insertNew header source).1.leadsForward =
      s.edges.filter s.leadsForward ++ (s.parentEdge (s.newBlock header source)).toList := by
  have next : (s.insertNew header source).1.Valid := valid.insertNew fresh
  have stranger : ∀ b ∈ s.blocks, b.hash ≠ header.hash := fun b stored same =>
    fresh (List.mem_map.2 ⟨b, stored, same⟩)
  have stored : ∀ {b}, b ∈ (s.insertNew header source).1.blocks ↔
      b ∈ s.blocks ∨ b = s.newBlock header source := by
    simp [insertNew_blocks]
  have old : s.edges.filter (s.insertNew header source).1.leadsForward =
      s.edges.filter s.leadsForward := by
    apply List.filter_congr
    intro e member
    rw [Bool.eq_iff_iff, next.leadsForward_iff, valid.leadsForward_iff]
    constructor
    · rintro ⟨parent, parentStored, child, childStored, rfl, before⟩
      -- Both ends of an old edge are old blocks.
      have ends := valid.edge_ends member
      refine ⟨parent, ?_, child, ?_, rfl, before⟩
      · exact (stored.1 parentStored).resolve_right (by rintro rfl; exact fresh ends.1)
      · exact (stored.1 childStored).resolve_right (by rintro rfl; exact fresh ends.2)
    · rintro ⟨parent, parentStored, child, childStored, shape⟩
      exact ⟨parent, stored.2 (.inl parentStored), child, stored.2 (.inl childStored), shape⟩
  have up : (s.parentEdge (s.newBlock header source)).toList.filter
      (s.insertNew header source).1.leadsForward =
        (s.parentEdge (s.newBlock header source)).toList := by
    rw [List.filter_eq_self]
    intro e member
    rw [valid.parentEdge_eq] at member
    split at member
    next known =>
      obtain ⟨parent, parentStored, named⟩ := List.mem_map.1 known
      rw [List.mem_singleton.1 member, next.leadsForward_iff]
      refine ⟨parent, stored.2 (.inl parentStored), _, stored.2 (.inr rfl), ?_,
        valid.firstSeenAt_lt parentStored⟩
      rw [named]
    next => cases member
  have down : (s.childEdges (s.newBlock header source)).filter
      (s.insertNew header source).1.leadsForward = [] := by
    rw [List.filter_eq_nil_iff]
    intro e member forward
    rw [valid.childEdges_eq] at member
    obtain ⟨hash, _, rfl⟩ := List.mem_map.1 member
    obtain ⟨parent, parentStored, child, childStored, shape, before⟩ := next.leadsForward_iff.1 forward
    have named : header.hash = parent.hash := congrArg Edge.parentHash shape
    -- The parent is the new block, and that is the last one.
    obtain rfl := (stored.1 parentStored).resolve_left fun there => stranger parent there named.symm
    rcases stored.1 childStored with there | rfl
    · exact Nat.lt_asymm before (valid.firstSeenAt_lt there)
    · exact Nat.lt_irrefl _ before
  rw [insertNew_edges, List.filter_append, List.filter_append, old, up, down, List.append_nil]

theorem Valid.narrowed_insertNew (valid : s.Valid) (fresh : header.hash ∉ s.hashes) :
    (s.insertNew header source).1.narrowed = (s.narrowed.insertNew header source).1 := by
  have block : s.narrowed.newBlock header source = s.newBlock header source := rfl
  have parent : s.narrowed.parentEdge (s.newBlock header source) =
      s.parentEdge (s.newBlock header source) := rfl
  have idle : s.narrowed.mustWait (s.newBlock header source) = false := by
    simp [mustWait, narrowed]
  have table : s.narrowed.waitingWith (s.newBlock header source) = .empty := by
    rw [waitingWith, idle]
    rfl
  have children : s.narrowed.childEdges (s.newBlock header source) = [] := by
    rw [childEdges, table]
    rfl
  have forward := @Valid.leadsForward_insertNew s header source valid fresh
  rw [narrowed, forward, insertNew_eq, insertNew_eq, block]
  simp only [parent, table, children, List.append_nil]
  rfl

end

/-- An insertion into a store that does not link late parents is the insertion without the late
links. -/
theorem Valid.narrowed_inserted (valid : s.Valid) (a : Announcement) :
    (s.inserted a).narrowed = s.narrowed.inserted a := by
  cases blank : a.header.isBlank with
  | true => rw [inserted_blank blank, inserted_blank blank]
  | false =>
    cases found : s.byHash? a.header.hash with
    | none =>
      have fresh : s.narrowed.byHash? a.header.hash = none := found
      rw [inserted_new blank found, inserted_new blank fresh]
      exact valid.narrowed_insertNew (valid.byHash?_eq_none.1 found)
    | some known =>
      have stored : s.narrowed.byHash? a.header.hash = some known := found
      rw [inserted_known blank found, inserted_known blank stored]
      exact narrowed_mergeKnown ..

theorem Valid.narrowed_insertAll (valid : s.Valid) (as : List Announcement) :
    (s.insertAll as).narrowed = s.narrowed.insertAll as := by
  induction as generalizing s with
  | nil => rfl
  | cons a as ih =>
    have rest := ih (valid.inserted a)
    rw [valid.narrowed_inserted] at rest
    exact rest

/-- After any insertions the edges and the waiting children are what the blocks ask for. The policies
lead to the same blocks, and without late parents there are the edges, in their order, whose parent
came before the child. -/
theorem insertAll_knit (table : SealTable) (as : List Announcement) :
    (∀ policy, ((new table policy).insertAll as).Knit policy) ∧
      let narrow := (new table .childOnly).insertAll as
      let wide := (new table .backfill).insertAll as
      narrow.blocks = wide.blocks ∧ narrow.edges = wide.edges.filter wide.leadsForward := by
  constructor
  · intro policy
    have knit := ((Valid.new table policy).insertAll as).knit
    rwa [(insertAll_kept _ as).2] at knit
  · intro narrow wide
    have same : wide.narrowed = narrow := (Valid.new table .backfill).narrowed_insertAll as
    have blocks := congrArg BlockStore.blocks same.symm
    have edges := congrArg BlockStore.edges same.symm
    exact ⟨blocks, edges⟩

/-! ## Late parents -/

theorem Valid.edge_iff (valid : s.Valid) (policy : s.policy = .backfill) {parent child : Block}
    (parentStored : parent ∈ s.blocks) (childStored : child ∈ s.blocks)
    (differ : parent.hash ≠ child.hash) (named : child.parentHash = parent.hash) :
    ⟨parent.hash, child.hash⟩ ∈ s.edges ↔
      parent.firstSeenAt < child.firstSeenAt ∨ child.isGenesis = false := by
  rw [valid.linked]
  constructor
  · rintro ⟨first, firstStored, second, secondStored, ends, _, _, order⟩
    -- The ends of the edge are the two blocks, since no other ones have their hashes.
    obtain ⟨sameParent, sameChild⟩ := Edge.mk.inj ends
    obtain rfl := valid.eq_of_hash_eq parentStored firstStored sameParent
    obtain rfl := valid.eq_of_hash_eq childStored secondStored sameChild
    exact order.imp_right (·.2)
  · intro order
    exact ⟨parent, parentStored, child, childStored, rfl, named, differ,
      order.imp_right fun above => ⟨policy, above⟩⟩

/-- Where late parents are linked, there is an edge from each stored block to each stored child of it,
whichever of them came first. Only a child of height zero must come after its parent. -/
theorem insertAll_links (table : SealTable) (as : List Announcement) :
    let s := (new table .backfill).insertAll as
    ∀ parent ∈ s.blocks, ∀ child ∈ s.blocks, parent.hash ≠ child.hash →
      child.parentHash = parent.hash →
        (⟨parent.hash, child.hash⟩ ∈ s.edges ↔
          parent.firstSeenAt < child.firstSeenAt ∨ child.height ≠ 0) := by
  intro s parent parentStored child childStored differ named
  have valid : s.Valid := (Valid.new table .backfill).insertAll as
  have policy : s.policy = .backfill := (insertAll_kept _ as).2
  rw [valid.edge_iff policy parentStored childStored differ named, Block.isGenesis, beq_eq_false_iff_ne]

/-- A child that comes before its parent. -/
theorem insertAll_links_late :
    let s := (new .standard .backfill).insertAll
      [⟨"a", .new 2 "0x2" "0x1"⟩, ⟨"a", .new 1 "0x1" "0x0"⟩]
    ∃ parent ∈ s.blocks, ∃ child ∈ s.blocks, parent.hash ≠ child.hash ∧
      child.parentHash = parent.hash ∧ child.firstSeenAt < parent.firstSeenAt ∧
        ⟨parent.hash, child.hash⟩ ∈ s.edges := by
  intro s
  have stored : ∃ parent ∈ s.blocks, ∃ child ∈ s.blocks, parent.hash ≠ child.hash ∧
      child.parentHash = parent.hash ∧ child.firstSeenAt < parent.firstSeenAt ∧ child.height ≠ 0 := by
    decide +kernel
  obtain ⟨parent, parentStored, child, childStored, differ, named, late, above⟩ := stored
  exact ⟨parent, parentStored, child, childStored, differ, named, late,
    (insertAll_links .standard _ parent parentStored child childStored differ named).2 (.inr above)⟩

/-- A child of height zero that comes before its parent gets no edge; when it comes after its parent
there is one. -/
theorem insertAll_unlinked :
    let parent : Announcement := ⟨"a", .new 1 "0x1" "0x0"⟩
    let child : Announcement := ⟨"a", .new 0 "0xc" "0x1"⟩
    ((new .standard .backfill).insertAll [parent, child]).edges = [⟨"0x1", "0xc"⟩] ∧
      let s := (new .standard .backfill).insertAll [child, parent]
      ∃ parent ∈ s.blocks, ∃ child ∈ s.blocks, parent.hash ≠ child.hash ∧
        child.parentHash = parent.hash ∧ ⟨parent.hash, child.hash⟩ ∉ s.edges := by
  decide +kernel

end BlockGraph.BlockStore
