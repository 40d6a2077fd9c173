import BlockGraph.Proofs.Store.Edges
import Mathlib.Logic.Relation

/-!
# Cycles

Edges lead from parents to children, so a walk along them should never return to where it began. Without
late parents it never does, since it follows the order of arrival. A store that links late parents takes
the parents at their word: two headers that name each other are linked both ways.

* `Acyclic` — no walk returns; `Valid.acyclic_of_rank` — something grows along all edges.
* `Valid.leads_iff` — where late parents are linked, a step along an edge is a step from a parent.
* `insertAll_acyclic` — when there is no cycle; `insertAll_cyclic` — two blocks that are their own
  grandparents.
-/

namespace BlockGraph.BlockStore

variable {s : BlockStore}

/-- An edge leads from one hash to another. -/
def Leads (s : BlockStore) (parent child : String) : Prop := ⟨parent, child⟩ ∈ s.edges

/-- Following edges from a block never returns to it. -/
def Acyclic (s : BlockStore) : Prop := ∀ hash, ¬ Relation.TransGen s.Leads hash hash

/-- A stored block has another stored block for its parent. A block of height zero counts only where its
parent came first. -/
def Descends (s : BlockStore) (parent child : String) : Prop :=
  ∃ p ∈ s.blocks, ∃ c ∈ s.blocks, p.hash = parent ∧ c.hash = child ∧ c.parentHash = parent ∧
    parent ≠ child ∧ (c.height = 0 → p.firstSeenAt < c.firstSeenAt)

namespace Valid

theorem leads_blocks (valid : s.Valid) {parent child : String} (edge : s.Leads parent child) :
    ∃ p ∈ s.blocks, ∃ c ∈ s.blocks, p.hash = parent ∧ c.hash = child ∧ c.parentHash = parent ∧
      parent ≠ child := by
  obtain ⟨p, c, foundParent, foundChild, differ, named⟩ := valid.edge_shape edge
  obtain ⟨parentStored, sameParent⟩ := valid.byHash?_eq_some.1 foundParent
  obtain ⟨childStored, sameChild⟩ := valid.byHash?_eq_some.1 foundChild
  exact ⟨p, parentStored, c, childStored, sameParent, sameChild, named, differ⟩

/-- Where something grows along all edges, it grows along a walk. -/
theorem rank_lt_of_walk (valid : s.Valid) {rank : Block → Nat}
    (grows : ∀ parent ∈ s.blocks, ∀ child ∈ s.blocks, s.Leads parent.hash child.hash →
      rank parent < rank child) {first last : String} (walked : Relation.TransGen s.Leads first last) :
    ∃ p ∈ s.blocks, ∃ c ∈ s.blocks, p.hash = first ∧ c.hash = last ∧ rank p < rank c := by
  induction walked with
  | single edge =>
    obtain ⟨p, parentStored, c, childStored, rfl, rfl, _, _⟩ := valid.leads_blocks edge
    exact ⟨p, parentStored, c, childStored, rfl, rfl, grows p parentStored c childStored edge⟩
  | tail _ edge before =>
    obtain ⟨p, parentStored, middle, middleStored, rfl, rfl, lower⟩ := before
    obtain ⟨m, mStored, c, childStored, same, rfl, _, _⟩ := valid.leads_blocks edge
    obtain rfl := valid.eq_of_hash_eq mStored middleStored same
    exact ⟨p, parentStored, c, childStored, rfl, rfl,
      Nat.lt_trans lower (grows m mStored c childStored edge)⟩

theorem acyclic_of_rank (valid : s.Valid) (rank : Block → Nat)
    (grows : ∀ parent ∈ s.blocks, ∀ child ∈ s.blocks, s.Leads parent.hash child.hash →
      rank parent < rank child) : s.Acyclic := by
  intro hash returns
  obtain ⟨p, parentStored, c, childStored, rfl, same, lower⟩ := valid.rank_lt_of_walk grows returns
  obtain rfl := valid.eq_of_hash_eq childStored parentStored same
  exact Nat.lt_irrefl _ lower

/-- Without late parents a walk along edges follows the order of arrival. -/
theorem acyclic_childOnly (valid : s.Valid) (policy : s.policy = .childOnly) : s.Acyclic := by
  refine valid.acyclic_of_rank (·.firstSeenAt) fun parent parentStored child childStored edge => ?_
  obtain ⟨p, pStored, c, cStored, ends, _, _, order⟩ := (valid.linked _).1 edge
  obtain ⟨sameParent, sameChild⟩ := Edge.mk.inj ends
  obtain rfl := valid.eq_of_hash_eq parentStored pStored sameParent
  obtain rfl := valid.eq_of_hash_eq childStored cStored sameChild
  refine order.resolve_right fun late => ?_
  rw [policy] at late
  cases late.1

/-- Where every child stands above its parent, a walk along edges goes up. -/
theorem acyclic_of_heights (valid : s.Valid)
    (above : ∀ parent ∈ s.blocks, ∀ child ∈ s.blocks, child.parentHash = parent.hash →
      parent.hash ≠ child.hash → parent.height < child.height) : s.Acyclic := by
  refine valid.acyclic_of_rank (·.height.toNat) fun parent parentStored child childStored edge => ?_
  obtain ⟨_, _, c, cStored, _, same, named, differ⟩ := valid.leads_blocks edge
  obtain rfl := valid.eq_of_hash_eq cStored childStored same
  exact UInt64.lt_iff_toNat_lt.1 (above parent parentStored c childStored named differ)

theorem leads_iff (valid : s.Valid) (policy : s.policy = .backfill) (parent child : String) :
    s.Leads parent child ↔ s.Descends parent child := by
  constructor
  · intro edge
    obtain ⟨p, parentStored, c, childStored, rfl, rfl, named, differ⟩ := valid.leads_blocks edge
    have order := (valid.edge_iff policy parentStored childStored differ named).1 edge
    refine ⟨p, parentStored, c, childStored, rfl, rfl, named, differ, fun bottom => ?_⟩
    exact order.resolve_right (by simp [Block.isGenesis, bottom])
  · rintro ⟨p, parentStored, c, childStored, rfl, rfl, named, differ, early⟩
    refine (valid.edge_iff policy parentStored childStored differ named).2 ?_
    by_cases bottom : c.height = 0
    · exact .inl (early bottom)
    · exact .inr (by simpa [Block.isGenesis] using bottom)

end Valid

/-- Without late parents there is no cycle, and where every stored child stands above its parent there is
none under either policy. Where late parents are linked, the cycles are those of the parents that the
stored blocks name. -/
theorem insertAll_acyclic (table : SealTable) (as : List Announcement) :
    ((new table .childOnly).insertAll as).Acyclic ∧
      (∀ policy, let s := (new table policy).insertAll as
        (∀ parent ∈ s.blocks, ∀ child ∈ s.blocks, child.parentHash = parent.hash →
          parent.hash ≠ child.hash → parent.height < child.height) → s.Acyclic) ∧
      let s := (new table .backfill).insertAll as
      (s.Acyclic ↔ ∀ hash, ¬ Relation.TransGen s.Descends hash hash) := by
  have valid (policy : EdgePolicy) : ((new table policy).insertAll as).Valid :=
    (Valid.new table policy).insertAll as
  have policy (policy : EdgePolicy) : ((new table policy).insertAll as).policy = policy :=
    (insertAll_kept _ as).2
  refine ⟨(valid .childOnly).acyclic_childOnly (policy .childOnly),
    fun policy above => (valid policy).acyclic_of_heights above, ?_⟩
  intro s
  have same : s.Leads = s.Descends := by
    funext parent child
    exact propext ((valid .backfill).leads_iff (policy .backfill) parent child)
  rw [Acyclic, same]

/-- A fork whose parent comes last, and whose branches stand above it. -/
theorem insertAll_acyclic_late :
    let s := (new .standard .backfill).insertAll
      [⟨"a", .new 3 "0x3" "0x2"⟩, ⟨"a", .new 2 "0x2" "0x1"⟩, ⟨"b", .new 2 "0x2b" "0x1"⟩,
        ⟨"b", .new 1 "0x1" "0x0"⟩]
    s.edges = [⟨"0x2", "0x3"⟩, ⟨"0x1", "0x2"⟩, ⟨"0x1", "0x2b"⟩] ∧ s.Acyclic := by
  intro s
  have above : ∀ parent ∈ s.blocks, ∀ child ∈ s.blocks, child.parentHash = parent.hash →
      parent.hash ≠ child.hash → parent.height < child.height := by decide +kernel
  exact ⟨by decide +kernel, (insertAll_acyclic .standard _).2.1 .backfill above⟩

/-- Two blocks that name each other are each the parent of the other. -/
theorem insertAll_cyclic :
    let s := (new .standard .backfill).insertAll
      [⟨"a", .new 2 "0xa" "0xb"⟩, ⟨"a", .new 1 "0xb" "0xa"⟩]
    s.edges = [⟨"0xa", "0xb"⟩, ⟨"0xb", "0xa"⟩] ∧ ¬ s.Acyclic := by
  intro s
  have edges : s.edges = [⟨"0xa", "0xb"⟩, ⟨"0xb", "0xa"⟩] := by decide +kernel
  have there : s.Leads "0xa" "0xb" := by rw [Leads, edges]; exact List.mem_cons_self
  have back : s.Leads "0xb" "0xa" := by
    rw [Leads, edges]
    exact List.mem_cons_of_mem _ List.mem_cons_self
  exact ⟨edges, fun acyclic => acyclic "0xa" (.tail (.single there) back)⟩

end BlockGraph.BlockStore
