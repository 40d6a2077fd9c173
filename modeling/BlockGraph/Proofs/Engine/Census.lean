import BlockGraph.Proofs.Engine.Contests
import BlockGraph.Proofs.Engine.Journal
import BlockGraph.Proofs.Store.Reports
import Mathlib.Data.List.Nodup

/-!
# What a journal holds

A journal holds no event that could be left out. It tells each block and each edge once, each further
source of a block once, and for each contested height the flag of the one block that stood alone there,
when the second block comes; all later blocks carry their flag from the start.

* `DiffEvent.addedHash?`, `edge?`, `creditedHash?`, `flag?` — the four things that an event can tell.
* `BlockStore.alone?`, `leaders` — the block that stands alone at a height, and the first block of each
  contested one.
* `announced_flags` — a header tells the flag of another block only with the second block of a height.
* `Itemized` — a journal, item by item; `itemized_applied` — what a cycle adds to it.
* `appliedAll_itemized` — the journal of any run, and its length.
-/

namespace BlockGraph

/-! ## The items of a journal -/

namespace DiffEvent

/-- The block that is told as new. -/
def addedHash? : DiffEvent → Option String
  | .nodeAdded b => some b.hash
  | _ => none

def edge? : DiffEvent → Option Edge
  | .edgeAdded e => some e
  | _ => none

/-- The block whose sources are told, and nothing else of it. -/
def creditedHash? : DiffEvent → Option String
  | .nodeUpdated hash ⟨some _, none⟩ => some hash
  | _ => none

/-- The block whose flag is told, and nothing else of it. -/
def flag? : DiffEvent → Option (String × Bool)
  | .nodeUpdated hash ⟨none, some flag⟩ => some (hash, flag)
  | _ => none

/-- An update tells of the sources or of the flag, and not of both. -/
def IsItem : DiffEvent → Prop
  | .nodeUpdated _ fields =>
    (∃ sources, fields = .sources sources) ∨ ∃ flag, fields = .competing flag
  | _ => True

theorem length_items {events : List DiffEvent} (items : ∀ event ∈ events, event.IsItem) :
    events.length = (events.filterMap addedHash?).length + (events.filterMap edge?).length +
      (events.filterMap creditedHash?).length + (events.filterMap flag?).length := by
  induction events with
  | nil => rfl
  | cons event events ih =>
    have rest := ih fun later member => items later (List.mem_cons_of_mem event member)
    rw [List.length_cons, rest]
    cases event with
    | nodeAdded | edgeAdded =>
      simp only [List.filterMap_cons, addedHash?, edge?, creditedHash?, flag?, List.length_cons]
      omega
    | nodeUpdated hash fields =>
      rcases items _ List.mem_cons_self with ⟨sources, rfl⟩ | ⟨flag, rfl⟩ <;>
        simp only [List.filterMap_cons, addedHash?, edge?, creditedHash?, flag?, NodeFields.sources,
          NodeFields.competing, List.length_cons] <;>
        omega

end DiffEvent

/-! ## The first block of a height -/

namespace BlockStore

variable {s t : BlockStore} {header : Header} {source : String}

/-- The block that stands alone at a height. -/
def alone? (s : BlockStore) (height : UInt64) : Option String :=
  match s.atHeight height with
  | [hash] => some hash
  | _ => none

/-- The first block of each contested height. -/
def leaders (s : BlockStore) : List String := s.competingHeights.flatMap fun set => set.hashes.take 1

theorem Valid.alone?_eq_some (valid : s.Valid) {height : UInt64} {hash : String} :
    s.alone? height = some hash ↔ s.hashesAt height = [hash] := by
  rw [alone?, valid.atHeight_eq]
  split
  next found => simp [found]
  next other =>
    simp only [reduceCtorEq, false_iff]
    exact other hash

/-- A hash stands at one height only. -/
theorem Valid.height_unique (valid : s.Valid) {hash : String} {low high : UInt64}
    (inLow : hash ∈ s.hashesAt low) (inHigh : hash ∈ s.hashesAt high) : low = high := by
  obtain ⟨b, stored, height, named⟩ := mem_hashesAt.1 inLow
  obtain ⟨c, storedToo, heightToo, namedToo⟩ := mem_hashesAt.1 inHigh
  rw [← height, ← heightToo, valid.eq_of_hash_eq stored storedToo (named.trans namedToo.symm)]

theorem Valid.mem_leaders (valid : s.Valid) {hash : String} :
    hash ∈ s.leaders ↔ ∃ height, s.isContested height = true ∧ (s.hashesAt height).head? = some hash := by
  simp only [leaders, List.mem_flatMap, valid.mem_competingHeights, List.take_one, Option.mem_toList]
  constructor
  · rintro ⟨set, ⟨contested, hashes⟩, first⟩
    exact ⟨set.height, contested, hashes ▸ first⟩
  · rintro ⟨height, contested, first⟩
    exact ⟨⟨height, s.hashesAt height⟩, ⟨contested, rfl⟩, first⟩

theorem Valid.leaders_nodup (valid : s.Valid) : s.leaders.Nodup := by
  have level {set : CompetingSet} (member : set ∈ s.competingHeights) :
      set.hashes = s.hashesAt set.height := (valid.mem_competingHeights.1 member).2
  rw [leaders, List.nodup_flatMap]
  refine ⟨fun set member => ?_, ?_⟩
  · rw [level member]
    exact (valid.hashesAt_nodup set.height).sublist (List.take_sublist 1 _)
  · refine (List.pairwise_map.1 valid.competingHeights_ascending).imp_of_mem ?_
    intro low high lowListed highListed below hash inLow inHigh
    have inLow := level lowListed ▸ List.mem_of_mem_take inLow
    have inHigh := level highListed ▸ List.mem_of_mem_take inHigh
    rw [valid.height_unique inLow inHigh] at below
    exact Std.lt_irrefl below

theorem Valid.leaders_length (valid : s.Valid) : s.leaders.length = s.competingHeights.length := by
  have first (set : CompetingSet) (member : set ∈ s.competingHeights) :
      (set.hashes.take 1).length = 1 := by
    obtain ⟨contested, hashes⟩ := valid.mem_competingHeights.1 member
    have two : 2 ≤ set.hashes.length := by simpa [isContested, hashes] using contested
    rw [List.length_take]
    omega
  rw [leaders, List.length_flatMap, List.map_congr_left first]
  simp

theorem hashesAt_insertNew (s : BlockStore) (header : Header) (source : String) (height : UInt64) :
    (s.insertNew header source).1.hashesAt height =
      s.hashesAt height ++ if height = header.number then [header.hash] else [] := by
  rw [hashesAt, insertNew_blocks, List.filter_append, List.map_append]
  congr 1
  by_cases here : height = header.number
  · simp [newBlock, Block.ofHeader, here]
  · simp [newBlock, Block.ofHeader, here, Ne.symm here]

theorem Valid.leaders_nodup_alone (valid : s.Valid) (height : UInt64) :
    (s.leaders ++ (s.alone? height).toList).Nodup := by
  refine List.nodup_append.2 ⟨valid.leaders_nodup, by cases s.alone? height <;> simp, ?_⟩
  rintro hash led _ alone rfl
  obtain ⟨level, contested, first⟩ := valid.mem_leaders.1 led
  have alone := valid.alone?_eq_some.1 (Option.mem_toList.1 alone)
  have inLevel : hash ∈ s.hashesAt level := List.mem_of_head? first
  have here : level = height := valid.height_unique inLevel (alone ▸ List.mem_singleton_self hash)
  simp [isContested, here, alone] at contested

/-- A new block makes the one that stood alone at its height a leader. -/
theorem Valid.leaders_insertNew (valid : s.Valid) (fresh : header.hash ∉ s.hashes) :
    (s.insertNew header source).1.leaders.Perm (s.leaders ++ (s.alone? header.number).toList) := by
  have next : (s.insertNew header source).1.Valid := valid.insertNew fresh
  refine (List.perm_ext_iff_of_nodup next.leaders_nodup
    (valid.leaders_nodup_alone header.number)).2 fun hash => ?_
  rw [List.mem_append, Option.mem_toList, next.mem_leaders, valid.mem_leaders, valid.alone?_eq_some]
  simp only [isContested, hashesAt_insertNew, decide_eq_true_eq]
  constructor
  · rintro ⟨height, contested, first⟩
    by_cases here : height = header.number
    · subst here
      rw [if_pos rfl] at contested first
      cases level : s.hashesAt header.number with
      | nil => simp [level] at contested
      | cons leader others =>
        obtain rfl : leader = hash := by simpa [level] using first
        cases others with
        | nil => exact .inr rfl
        | cons other others => exact .inl ⟨header.number, by simp [level], by simp [level]⟩
    · rw [if_neg here, List.append_nil] at contested first
      exact .inl ⟨height, contested, first⟩
  · rintro (⟨height, contested, first⟩ | alone)
    · refine ⟨height, ?_, by rw [List.head?_append, first, Option.some_or]⟩
      rw [List.length_append]
      omega
    · exact ⟨header.number, by simp [alone], by simp [alone]⟩

end BlockStore

/-! ## What one cycle tells -/

namespace Engine

open BlockStore

variable {e : Engine} {source : String} {header : Header}

theorem flipped_hashes (valid : e.store.Valid) (flagged : e.store.Flagged) :
    (e.flipped source header).map (·.hash) = (e.store.alone? header.number).toList := by
  -- All blocks of the height have the same flag, so it changes for all of them or for none.
  have level : e.flipped source header =
      (e.store.blocks.filter fun b => b.height == header.number).filter fun _ =>
        e.store.isContested header.number != (e.inserted source header).isContested header.number := by
    rw [flipped, List.filter_filter]
    apply List.filter_congr
    intro b stored
    by_cases here : b.height = header.number
    · simp [here, flagged b stored]
    · rw [beq_false_of_ne here, Bool.false_and, Bool.and_false]
  have either (changes : Bool) : ((e.store.blocks.filter fun b => b.height == header.number).filter
      fun _ => changes).map (·.hash) = if changes then e.store.hashesAt header.number else [] := by
    cases changes with
    | false => rw [List.filter_false]; rfl
    | true => rw [List.filter_true]; rfl
  rw [level, either, isContested, isContested, inserted, hashesAt_insertNew, if_pos rfl, alone?,
    valid.atHeight_eq]
  rcases e.store.hashesAt header.number with _ | ⟨first, _ | ⟨second, others⟩⟩ <;> simp

theorem flipped_flags (valid : e.store.Valid) (flagged : e.store.Flagged) :
    (e.flipped source header).map (fun b =>
        (b.hash, (e.inserted source header).isContested header.number)) =
      ((e.store.alone? header.number).map (·, true)).toList := by
  have hashes := @flipped_hashes e source header valid flagged
  cases alone : e.store.alone? header.number with
  | none =>
    rw [alone] at hashes
    simpa using hashes
  | some hash =>
    have two : (e.inserted source header).isContested header.number = true := by
      rw [isContested, inserted, hashesAt_insertNew, valid.alone?_eq_some.1 alone]
      simp
    rw [alone] at hashes
    have pairs := congrArg (List.map (·, true)) hashes
    rw [two]
    simpa [Function.comp_def] using pairs

theorem settled_items (valid : e.store.Valid) (flagged : e.store.Flagged) :
    (∀ event ∈ e.settledEvents source header, event.IsItem) ∧
      (e.settledEvents source header).filterMap DiffEvent.addedHash? = [header.hash] ∧
      (e.settledEvents source header).filterMap DiffEvent.edge? = e.newEdges source header ∧
      (e.settledEvents source header).filterMap DiffEvent.creditedHash? = [] ∧
      (e.settledEvents source header).filterMap DiffEvent.flag? =
        ((e.store.alone? header.number).map (·, true)).toList := by
  rw [← @flipped_flags e source header valid flagged]
  refine ⟨?_, ?_, ?_, ?_, ?_⟩
  · intro event member
    simp only [settledEvents, List.mem_cons, List.mem_append, List.mem_map] at member
    rcases member with rfl | ⟨_, _, rfl⟩ | ⟨b, _, rfl⟩
    · trivial
    · trivial
    · exact .inr ⟨_, rfl⟩
  all_goals
    simp [settledEvents, List.filterMap_cons, List.filterMap_append, List.filterMap_map,
      Function.comp_def, DiffEvent.addedHash?, DiffEvent.edge?, DiffEvent.creditedHash?,
      DiffEvent.flag?, NodeFields.competing, settledBlock, newBlock, Block.ofHeader]

/-- A header tells of another block's flag only if it brings the second block of a height. -/
theorem announced_flags (valid : e.store.Valid) (flagged : e.store.Flagged) (source : String)
    (header : Header) :
    (e.announced source header).filterMap DiffEvent.flag? =
      if header.isBlank = true ∨ header.hash ∈ e.store.hashes then []
      else ((e.store.alone? header.number).map (·, true)).toList := by
  cases blank : header.isBlank with
  | true =>
    rw [announced, apply_blank blank]
    simp
  | false =>
    cases found : e.store.byHash? header.hash with
    | some known =>
      obtain ⟨stored, hash⟩ := valid.byHash?_eq_some.1 found
      have known : header.hash ∈ e.store.hashes := hash ▸ List.mem_map_of_mem stored
      rw [announced, apply_known blank found, if_pos (.inr known)]
      simp only [mergedEvents]
      split <;> rfl
    | none =>
      have fresh := valid.byHash?_eq_none.1 found
      rw [announced, apply_new valid fresh blank, if_neg (by simp [fresh])]
      exact (settled_items valid flagged).2.2.2.2

end Engine

/-! ## The journal, item by item -/

namespace BlockStore

variable {s t : BlockStore} {journal : List DiffEvent}

/-- A journal that tells a store from the start, without an event too many. -/
structure Itemized (s : BlockStore) (journal : List DiffEvent) : Prop where
  items : ∀ event ∈ journal, event.IsItem
  added : journal.filterMap DiffEvent.addedHash? = s.hashes
  edges : journal.filterMap DiffEvent.edge? = s.edges
  /-- The first source of a block comes with the block. -/
  credited : ∀ b ∈ s.blocks,
    (journal.filterMap DiffEvent.creditedHash?).count b.hash + 1 = b.reportingSources.size
  stored : ∀ hash ∈ journal.filterMap DiffEvent.creditedHash?, hash ∈ s.hashes
  flags : (journal.filterMap DiffEvent.flag?).Perm (s.leaders.map (·, true))

theorem leaders_of_heights (heights : t.heights = s.heights) : t.leaders = s.leaders := by
  rw [leaders, leaders, competingHeights, competingHeights, heights]

/-- A further source of a block is one further item. -/
theorem Itemized.credit (itemized : s.Itemized journal) (valid : s.Valid) {known : Block}
    (member : known ∈ s.blocks) {source : String}
    (absent : SortedMap.contains known.reportingSources source = false)
    (blocks : t.blocks = s.blocks.map fun b => if b.hash = known.hash then
      { b with reportingSources := SortedSet.add b.reportingSources source } else b)
    (edges : t.edges = s.edges) (heights : t.heights = s.heights) (told : SortedSet String) :
    t.Itemized (journal ++ [.nodeUpdated known.hash (.sources told)]) := by
  have hashes : t.hashes = s.hashes := by
    rw [BlockStore.hashes, blocks, List.map_map, BlockStore.hashes]
    apply List.map_congr_left
    intro b _
    simp only [Function.comp_apply]
    split <;> rfl
  refine
    { items := fun event here => ?_
      added := ?_
      edges := ?_
      credited := fun b stored => ?_
      stored := fun hash here => ?_
      flags := ?_ }
  · rcases List.mem_append.1 here with old | new
    · exact itemized.items event old
    · rw [List.mem_singleton.1 new]
      exact .inl ⟨told, rfl⟩
  · rw [List.filterMap_append, itemized.added, hashes]
    exact List.append_nil _
  · rw [List.filterMap_append, itemized.edges, edges]
    exact List.append_nil _
  · rw [blocks] at stored
    obtain ⟨c, storedBefore, rfl⟩ := List.mem_map.1 stored
    have credited := itemized.credited c storedBefore
    rw [List.filterMap_append, List.count_append]
    split
    next same =>
      obtain rfl := valid.eq_of_hash_eq storedBefore member same
      have once : ([DiffEvent.nodeUpdated c.hash (.sources told)].filterMap
          DiffEvent.creditedHash?).count c.hash = 1 := List.count_singleton_self
      rw [SortedSet.size_add absent, ← credited, once]
    next other =>
      have never : ([DiffEvent.nodeUpdated known.hash (.sources told)].filterMap
          DiffEvent.creditedHash?).count c.hash = 0 := List.count_eq_zero_of_not_mem fun here =>
            other (List.mem_singleton.1 here)
      rw [← credited, never]
  · rw [hashes]
    rw [List.filterMap_append] at here
    rcases List.mem_append.1 here with old | new
    · exact itemized.stored hash old
    · rw [List.mem_singleton.1 new]
      exact List.mem_map_of_mem member
  · rw [List.filterMap_append, leaders_of_heights heights]
    exact (List.append_nil _).symm ▸ itemized.flags

theorem Itemized.length (itemized : s.Itemized journal) (valid : s.Valid) :
    journal.length =
      total (fun b => b.reportingSources.size) s.blocks + s.edges.length + s.competingHeights.length := by
  have sources : total (fun b => b.reportingSources.size) s.blocks = total (fun b =>
      ((journal.filterMap DiffEvent.creditedHash?).filter (· == b.hash)).length) s.blocks +
        s.blocks.length := by
    refine total_succ fun b stored => ?_
    rw [← List.countP_eq_length_filter]
    exact itemized.credited b stored
  -- Each update of sources is counted for the one block of its hash.
  have counted : total (fun b =>
      ((journal.filterMap DiffEvent.creditedHash?).filter (· == b.hash)).length) s.blocks =
        (journal.filterMap DiffEvent.creditedHash?).length := by
    have atMost := count_distinct_le id s.hashes valid.hashes_nodup
      (journal.filterMap DiffEvent.creditedHash?)
    have atLeast := le_count_covering id s.hashes (journal.filterMap DiffEvent.creditedHash?)
      itemized.stored
    rw [hashes, total_map] at atMost atLeast
    exact Nat.le_antisymm atMost atLeast
  have blocks : s.hashes.length = s.blocks.length := List.length_map ..
  rw [DiffEvent.length_items itemized.items, itemized.added, itemized.edges, itemized.flags.length_eq,
    List.length_map, valid.leaders_length, sources, counted, blocks]
  omega

end BlockStore

namespace Engine

open BlockStore

variable {e : Engine} {source : String} {header : Header} {journal : List DiffEvent}

theorem itemized_merged (valid : e.store.Valid) (itemized : e.store.Itemized journal) {known : Block}
    (found : e.store.byHash? header.hash = some known) :
    (e.store.mergeKnown known header source).1.Itemized (journal ++ mergedEvents known source) := by
  rw [mergeKnown_store]
  simp only [mergedEvents]
  split
  next present =>
    rw [valid.credit_again found present, List.append_nil]
    exact { itemized with }
  next absent =>
    rw [Bool.not_eq_true] at absent
    obtain ⟨member, _⟩ := valid.byHash?_eq_some.1 found
    refine itemized.credit valid member absent ?_ ?_ ?_ _
    · exact valid.modify_blocks ..
    · rfl
    · rfl

theorem itemized_settled (valid : e.store.Valid) (flagged : e.store.Flagged)
    (fresh : header.hash ∉ e.store.hashes) (itemized : e.store.Itemized journal) :
    (e.settledStore source header).Itemized (journal ++ e.settledEvents source header) := by
  obtain ⟨items, added, edges, credited, flags⟩ := @settled_items e source header valid flagged
  have hashes : (e.settledStore source header).hashes = e.store.hashes ++ [header.hash] := by
    rw [hashes, settledStore, List.map_append, List.map_map, hashes]
    congr 1
    exact List.map_congr_left fun b _ => flaggedAt_hash _ b
  refine
    { items := fun event here => ?_
      added := ?_
      edges := ?_
      credited := fun b stored => ?_
      stored := fun hash here => ?_
      flags := ?_ }
  · rcases List.mem_append.1 here with old | new
    · exact itemized.items event old
    · exact items event new
  · rw [List.filterMap_append, itemized.added, added, hashes]
  · rw [List.filterMap_append, itemized.edges, edges]
    exact insertNew_edges.symm
  · rw [List.filterMap_append, credited, List.append_nil]
    rcases List.mem_append.1 stored with old | new
    · obtain ⟨c, member, rfl⟩ := List.mem_map.1 old
      have sources : ((e.inserted source header).flaggedAt header.number c).reportingSources =
          c.reportingSources := by
        unfold flaggedAt
        split <;> rfl
      rw [flaggedAt_hash, sources]
      exact itemized.credited c member
    · -- The block is new, so no update of its sources has been told.
      have untold : header.hash ∉ journal.filterMap DiffEvent.creditedHash? :=
        fun told => fresh (itemized.stored _ told)
      rw [List.mem_singleton.1 new]
      exact congrArg (· + 1) (List.count_eq_zero_of_not_mem untold)
  · rw [List.filterMap_append, credited, List.append_nil] at here
    rw [hashes]
    exact List.mem_append_left _ (itemized.stored hash here)
  · have heights : (e.settledStore source header).leaders = (e.inserted source header).leaders :=
      leaders_of_heights rfl
    have leaders := (@Valid.leaders_insertNew e.store header source valid fresh).map (·, true)
    rw [List.map_append] at leaders
    rw [List.filterMap_append, flags, heights]
    refine (itemized.flags.append_right _).trans (.trans ?_ leaders.symm)
    cases e.store.alone? header.number <;> rfl

/-- A cycle tells what it changes, and nothing else. -/
theorem itemized_applied (valid : e.store.Valid) (flagged : e.store.Flagged)
    (itemized : e.store.Itemized journal) (source : String) (header : Header) :
    (e.applied source header).store.Itemized (journal ++ e.announced source header) := by
  cases blank : header.isBlank with
  | true =>
    rw [announced, apply_blank blank, apply_error e source header blank, List.append_nil]
    exact itemized
  | false =>
    cases found : e.store.byHash? header.hash with
    | some known =>
      rw [announced, apply_known blank found, applied_known blank found]
      exact itemized_merged valid itemized found
    | none =>
      have fresh := valid.byHash?_eq_none.1 found
      rw [announced, apply_new valid fresh blank, applied_new valid blank fresh]
      exact itemized_settled valid flagged fresh itemized

theorem itemized_appliedAll (reachable : e.store.Reachable) (flagged : e.store.Flagged)
    (itemized : e.store.Itemized e.journal) (told : List Announcement) :
    (e.appliedAll told).store.Itemized (e.appliedAll told).journal := by
  induction told generalizing e with
  | nil => exact itemized
  | cons a told ih =>
    refine ih (applied_reachable reachable) (applied_flagged reachable.valid flagged) ?_
    rw [journal_applied reachable.valid]
    exact itemized_applied reachable.valid flagged itemized a.source a.header

/-- An engine that starts without blocks has told each block and each edge once, each further source of
a block once, and the flag of the first block of each contested height once. Whatever comes next, it
tells the flag of another block only with the second block of a height. -/
theorem appliedAll_itemized (table : SealTable) (policy : EdgePolicy) (told : List Announcement)
    (source : String) (header : Header) :
    let e := (Engine.new table policy).appliedAll told
    e.store.Itemized e.journal ∧
      e.journal.length = total (fun b => b.reportingSources.size) e.store.blocks +
        e.store.edges.length + e.store.competingHeights.length ∧
      (e.applied source header).journal = e.journal ++ e.announced source header ∧
      (e.announced source header).filterMap DiffEvent.flag? =
        if header.isBlank = true ∨ header.hash ∈ e.store.hashes then []
        else ((e.store.alone? header.number).map (·, true)).toList := by
  intro e
  have built : (Engine.new table policy).Built := .new table policy
  have reachable := appliedAll_reachable built.reachable told
  have itemized : e.store.Itemized e.journal :=
    itemized_appliedAll built.reachable built.flagged
      { items := fun _ member => nomatch member
        added := rfl
        edges := rfl
        credited := fun _ member => nomatch member
        stored := fun _ member => nomatch member
        flags := .nil } told
  exact ⟨itemized, itemized.length reachable.valid, journal_applied reachable.valid source header,
    announced_flags reachable.valid (built.appliedAll_flagged told) source header⟩

end Engine

end BlockGraph
