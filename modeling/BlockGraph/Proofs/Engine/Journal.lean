import BlockGraph.Proofs.Emitter
import BlockGraph.Proofs.Engine.Cycle

/-!
# Replaying the journal

The journal tells everything that a consumer needs: who starts from the graph as it was when the
engine was built, and follows the journal strictly, has the graph as it is now. Following is strict in
that a block must be new, an edge must be new and have both ends, and an update must be of a known
block; so the order of the events counts.

* `Graph.replay?` — following events strictly.
* `replay?_announced` — what one cycle tells leads from the graph before it to the graph after it.
* `replay?_journal` — so does the journal, over any number of cycles.
-/

namespace BlockGraph

/-- The fields of a block that are told, over those that it has. -/
def NodeFields.overwrite (fields : NodeFields) (b : Block) : Block :=
  { b with
    reportingSources := fields.reportingSources.getD b.reportingSources
    isCompeting := fields.isCompeting.getD b.isCompeting }

/-- What a consumer knows. -/
structure Graph where
  nodes : List Block
  edges : List Edge
  deriving DecidableEq, Repr

namespace Graph

/-- The hashes that the consumer knows. -/
def hashes (g : Graph) : List String := g.nodes.map (·.hash)

/-- Follows one event, if it fits what is known. -/
def step? (g : Graph) : DiffEvent → Option Graph
  | .nodeAdded b =>
    if b.hash ∈ g.hashes then none else some { g with nodes := g.nodes ++ [b] }
  | .edgeAdded e =>
    if e.parentHash ∈ g.hashes ∧ e.childHash ∈ g.hashes ∧ e ∉ g.edges then
      some { g with edges := g.edges ++ [e] }
    else none
  | .nodeUpdated hash fields =>
    if hash ∈ g.hashes then
      some { g with nodes := g.nodes.map fun b =>
        if b.hash = hash then fields.overwrite b else b }
    else none

/-- Follows events, one after another. -/
def replay? (g : Graph) (events : List DiffEvent) : Option Graph := events.foldlM step? g

theorem replay?_cons (g : Graph) (event : DiffEvent) (events : List DiffEvent) :
    g.replay? (event :: events) = (g.step? event).bind fun g => g.replay? events := rfl

theorem replay?_append (g : Graph) (events later : List DiffEvent) :
    g.replay? (events ++ later) = (g.replay? events).bind fun g => g.replay? later :=
  List.foldlM_append

/-! ## Runs of events of one kind -/

theorem replay?_edges (g : Graph) (es : List Edge)
    (ends : ∀ e ∈ es, e.parentHash ∈ g.hashes ∧ e.childHash ∈ g.hashes)
    (unique : (g.edges ++ es).Nodup) :
    g.replay? (es.map .edgeAdded) = some { g with edges := g.edges ++ es } := by
  induction es generalizing g with
  | nil => simp [replay?]
  | cons e es ih =>
    have here := ends e (by simp)
    have fresh : e ∉ g.edges := fun member =>
      (List.nodup_append.1 unique).2.2 e member e (by simp) rfl
    rw [List.map_cons, replay?_cons, step?, if_pos ⟨here.1, here.2, fresh⟩]
    have rest := ih { g with edges := g.edges ++ [e] }
      (fun later member => ends later (List.mem_cons_of_mem _ member)) (by simpa using unique)
    simpa using rest

theorem replay?_flags (g : Graph) (flag : Bool) (others : List String)
    (known : ∀ hash ∈ others, hash ∈ g.hashes) :
    g.replay? (others.map fun hash => .nodeUpdated hash (.competing flag)) =
      some { g with nodes := g.nodes.map fun b =>
        if b.hash ∈ others then { b with isCompeting := flag } else b } := by
  induction others generalizing g with
  | nil => simp [replay?]
  | cons hash others ih =>
    rw [List.map_cons, replay?_cons, step?, if_pos (known hash (by simp)), Option.bind_some, ih]
    · congr 2
      rw [List.map_map]
      apply List.map_congr_left
      intro b _
      simp only [NodeFields.overwrite, NodeFields.competing, Function.comp_apply]
      by_cases first : b.hash = hash <;> by_cases later : b.hash ∈ others <;> simp_all
    · intro other member
      -- An update leaves the hashes alone, so the later ones are still known.
      have same : ({ g with nodes := g.nodes.map fun b =>
          if b.hash = hash then (NodeFields.competing flag).overwrite b else b } : Graph).hashes =
            g.hashes := by
        rw [hashes, hashes, List.map_map]
        apply List.map_congr_left
        intro b _
        simp only [Function.comp_apply]
        split <;> rfl
      rw [same]
      exact known other (List.mem_cons_of_mem _ member)

end Graph

namespace Engine

open BlockStore

variable {e : Engine} {source : String} {header : Header}

/-- The graph that an engine holds. -/
def graph (e : Engine) : Graph := ⟨e.store.blocks, e.store.edges⟩

/-- Everything that an engine has ever told. -/
def journal (e : Engine) : List DiffEvent := e.emitter.journal

/-- What an engine tells of a header. -/
def announced (e : Engine) (source : String) (header : Header) : List DiffEvent :=
  match e.apply source header with
  | .ok (_, events) => events
  | .error _ => []

/-! ## One cycle -/

theorem replay?_merged (valid : e.store.Valid) {known : Block}
    (stored : e.store.byHash? header.hash = some known) :
    e.graph.replay? (mergedEvents known source) =
      some ⟨(e.store.mergeKnown known header source).1.blocks, e.store.edges⟩ := by
  obtain ⟨member, named⟩ := valid.byHash?_eq_some.1 stored
  rw [mergeKnown_store]
  simp only [mergedEvents]
  split
  next present =>
    -- A source that is there already is not told, and adding it again changes nothing.
    rw [valid.credit_again stored present]
    rfl
  next absent =>
    have present : known.hash ∈ e.graph.hashes := List.mem_map_of_mem member
    rw [Graph.replay?_cons, Graph.step?, if_pos present, Option.bind_some, valid.modify_blocks]
    show some (Graph.mk _ _) = _
    congr 2
    apply List.map_congr_left
    intro b here
    split
    next same => rw [valid.eq_of_hash_eq here member same]; rfl
    next => rfl

theorem mem_flipped (valid : e.store.Valid) {b : Block} (stored : b ∈ e.store.blocks) :
    b.hash ∈ (e.flipped source header).map (·.hash) ↔
      b.height = header.number ∧
        b.isCompeting ≠ (e.inserted source header).isContested header.number := by
  simp only [flipped, List.mem_map, List.mem_filter, Bool.and_eq_true, beq_iff_eq, bne_iff_ne]
  constructor
  · rintro ⟨c, ⟨member, found⟩, same⟩
    exact valid.eq_of_hash_eq member stored same ▸ found
  · exact fun found => ⟨b, ⟨stored, found⟩, rfl⟩

theorem stored_of_flipped {hash : String}
    (flips : hash ∈ (e.flipped source header).map (·.hash)) : hash ∈ e.store.hashes := by
  obtain ⟨b, member, rfl⟩ := List.mem_map.1 flips
  exact List.mem_map_of_mem (List.mem_filter.1 member).1

theorem replay?_settled (valid : e.store.Valid) (fresh : header.hash ∉ e.store.hashes) :
    e.graph.replay? (e.settledEvents source header) =
      some ⟨(e.settledStore source header).blocks, (e.settledStore source header).edges⟩ := by
  have next : (e.inserted source header).Valid := valid.insertNew fresh
  have edges : (e.inserted source header).edges = e.store.edges ++ e.newEdges source header :=
    insertNew_edges
  have hashes : (e.store.blocks ++ [e.settledBlock source header]).map (·.hash) =
      (e.inserted source header).hashes := by
    rw [inserted, insertNew_hashes, List.map_append]
    rfl
  -- The block comes first, so that the edges find it.
  have added : e.graph.step? (.nodeAdded (e.settledBlock source header)) =
      some ⟨e.store.blocks ++ [e.settledBlock source header], e.store.edges⟩ := if_neg fresh
  have linked : Graph.replay? ⟨e.store.blocks ++ [e.settledBlock source header], e.store.edges⟩
      ((e.newEdges source header).map .edgeAdded) =
        some ⟨e.store.blocks ++ [e.settledBlock source header], (e.inserted source header).edges⟩ := by
    rw [Graph.replay?_edges, edges]
    · intro edge member
      rw [Graph.hashes, hashes]
      exact next.edge_ends (edges ▸ List.mem_append_right _ member)
    · exact edges ▸ next.edges_nodup
  -- The new block carries its flag from the start, so only the others are updated.
  have flagged := Graph.replay?_flags
    ⟨e.store.blocks ++ [e.settledBlock source header], (e.inserted source header).edges⟩
    ((e.inserted source header).isContested header.number)
    ((e.flipped source header).map (·.hash)) (by
      intro hash flips
      rw [Graph.hashes, List.map_append]
      exact List.mem_append_left _ (stored_of_flipped flips))
  rw [List.map_map] at flagged
  rw [settledEvents, Graph.replay?_cons, added, Option.bind_some, Graph.replay?_append, linked,
    Option.bind_some]
  refine flagged.trans ?_
  show some (Graph.mk _ _) = some (Graph.mk _ _)
  congr 2
  rw [settledStore, List.map_append, List.map_singleton]
  congr 1
  · apply List.map_congr_left
    intro b stored
    simp only [mem_flipped valid stored, flaggedAt_eq]
  · have absent : (e.settledBlock source header).hash ∉
        (e.flipped source header).map (·.hash) := fun flips => fresh (stored_of_flipped flips)
    rw [if_neg absent]

/-- What one cycle tells leads from the graph before it to the graph after it. -/
theorem replay?_announced (valid : e.store.Valid) (source : String) (header : Header) :
    e.graph.replay? (e.announced source header) = some (e.applied source header).graph := by
  cases blank : header.isBlank with
  | true =>
    rw [announced, apply_blank blank, apply_error e source header blank]
    rfl
  | false =>
    cases found : e.store.byHash? header.hash with
    | some known =>
      rw [announced, apply_known blank found, applied_known blank found]
      exact (replay?_merged valid found).trans (by rw [graph, mergeKnown_store])
    | none =>
      have fresh := valid.byHash?_eq_none.1 found
      rw [announced, apply_new valid fresh blank, applied_new valid blank fresh]
      exact replay?_settled valid fresh

/-- A cycle adds to the journal what it tells. -/
theorem journal_applied (valid : e.store.Valid) (source : String) (header : Header) :
    (e.applied source header).journal = e.journal ++ e.announced source header := by
  cases blank : header.isBlank with
  | true =>
    rw [announced, apply_blank blank, apply_error e source header blank]
    exact (List.append_nil _).symm
  | false =>
    cases found : e.store.byHash? header.hash with
    | some known =>
      rw [announced, apply_known blank found, applied_known blank found]
      exact Emitter.journal_emit ..
    | none =>
      have fresh := valid.byHash?_eq_none.1 found
      rw [announced, apply_new valid fresh blank, applied_new valid blank fresh]
      exact Emitter.journal_emit ..

/-! ## The whole journal -/

theorem replay?_appliedAll (reachable : e.store.Reachable) (as : List Announcement) :
    ∃ told, (e.appliedAll as).journal = e.journal ++ told ∧
      e.graph.replay? told = some (e.appliedAll as).graph := by
  induction as generalizing e with
  | nil => exact ⟨[], by simp [appliedAll], rfl⟩
  | cons a as ih =>
    obtain ⟨told, journal, replay⟩ := ih (@applied_reachable e a.source a.header reachable)
    refine ⟨e.announced a.source a.header ++ told, ?_, ?_⟩
    · rw [← List.append_assoc, ← journal_applied reachable.valid]
      exact journal
    · rw [Graph.replay?_append, replay?_announced reachable.valid, Option.bind_some]
      exact replay

/-- The journal leads from the graph with which an engine was built to the graph that it holds. -/
theorem replay?_journal (built : e.Built) (as : List Announcement) :
    e.graph.replay? (e.appliedAll as).journal = some (e.appliedAll as).graph := by
  obtain ⟨told, journal, replay⟩ := replay?_appliedAll built.reachable as
  have none : e.journal = [] := built.journal
  rw [journal, none]
  exact replay

/-- An engine around an orphan, which then receives the missing parent and a competing block. -/
theorem replay?_journal_adopted :
    let store := (BlockStore.new .standard .backfill).inserted ⟨"a", .new 2 "0x2" "0x1"⟩
    let told : List Announcement :=
      [⟨"a", .new 1 "0x1" "0x0"⟩, ⟨"b", .new 2 "0x2" "0x1"⟩, ⟨"b", .new 2 "0x3" "0x1"⟩]
    (ofStore store).Built ∧
      (ofStore store).graph.replay? ((ofStore store).appliedAll told).journal =
        some ((ofStore store).appliedAll told).graph := by
  intro store told
  have built : (ofStore store).Built := .ofStore (.inserted _ (.new .standard .backfill))
  exact ⟨built, replay?_journal built told⟩

end Engine

end BlockGraph
