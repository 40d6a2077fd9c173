import BlockGraph.Proofs.Store.Reference
import BlockGraph.Proofs.Totals

/-!
# Reports

Each header reports the block of its hash, for its source. A store shows these reports and no others;
as each source stands there once, there are no more of them than headers.

* `Refines.reported`, `Refines.reporters` — who reports which block, in terms of the headers.
* `Refines.total_reports` — the number of all reports.
-/

namespace BlockGraph

/-! ## The reports of a store -/

theorem SortedMap.size_insert_le {κ ν : Type} [LT κ] [LE κ] [Std.IsLinearOrder κ] [Std.LawfulOrderLT κ]
    [DecidableLT κ] [DecidableEq κ] (m : SortedMap κ ν) (k : κ) (v : ν) :
    (m.insert k v).size ≤ m.size + 1 := by
  have place : ∀ es : List (κ × ν), (SortedMap.place k v es).length ≤ es.length + 1 := by
    intro es
    induction es with
    | nil => exact Nat.le_refl 1
    | cons e es ih =>
      rw [SortedMap.place]
      split
      · exact Nat.le_refl _
      · split
        · exact Nat.le_succ _
        · exact Nat.succ_le_succ ih
  exact place m.entries

theorem SortedSet.size_add {s : SortedSet String} {k : String} (fresh : SortedMap.contains s k = false) :
    SortedMap.size (SortedSet.add s k) = SortedMap.size s + 1 := by
  have place : ∀ es : List (String × Unit), SortedMap.find? k es = none →
      (SortedMap.place k () es).length = es.length + 1 := by
    intro es absent
    induction es with
    | nil => rfl
    | cons e es ih =>
      have apart := SortedMap.find?_eq_none_iff.1 absent
      rw [SortedMap.place]
      split
      · rfl
      · rw [if_neg (apart e List.mem_cons_self).symm, List.length_cons, List.length_cons, ih]
        exact SortedMap.find?_eq_none_iff.2 fun d member => apart d (List.mem_cons_of_mem e member)
  exact place s.entries (SortedMap.contains_eq_false.1 fresh)

theorem SortedSet.size_ofList_le (ks : List String) : (SortedSet.ofList ks).size ≤ ks.length := by
  have grown : ∀ (ks : List String) (s : SortedSet String),
      (ks.foldl SortedSet.add s).size ≤ SortedMap.size s + ks.length := by
    intro ks
    induction ks with
    | nil => exact fun s => Nat.le_refl _
    | cons k ks ih =>
      intro s
      have first : SortedMap.size (SortedSet.add s k) ≤ SortedMap.size s + 1 := s.size_insert_le k ()
      have rest := ih (SortedSet.add s k)
      rw [List.foldl_cons, List.length_cons]
      omega
  have none : SortedMap.size (SortedMap.empty : SortedSet String) = 0 := rfl
  have all := grown ks SortedMap.empty
  rwa [none, Nat.zero_add] at all

namespace BlockStore

variable {s : BlockStore} {told : List Announcement}

/-- The blocks are those of the first headers, each with the sources of all headers of its hash. -/
theorem Refines.reports (refines : s.Refines told) :
    s.blocks.map (fun b => (b.hash, b.reportingSources)) =
      (Reference.firsts told).map fun header => (header.hash, Reference.sources told header.hash) := by
  rw [refines.blocks]
  apply List.ext_getElem?
  intro i
  rw [List.getElem?_map, List.getElem?_map, Reference.blocks, List.getElem?_mapIdx]
  cases (Reference.firsts told)[i]? <;> rfl

theorem contains_sources {hash id : String} :
    SortedMap.contains (Reference.sources told hash) id = true ↔
      ∃ t ∈ told, t.header.hash = hash ∧ t.source = id := by
  have sources := SortedSet.contains_ofList
    ((told.filter fun a => a.header.hash == hash).map (·.source)) id
  rw [Reference.sources, sources]
  simp [and_assoc]

/-- Each header is a report of the block of its hash. -/
theorem Refines.reported (refines : s.Refines told) {t : Announcement} (member : t ∈ told) :
    ∃ b ∈ s.blocks, b.hash = t.header.hash ∧ SortedMap.contains b.reportingSources t.source = true := by
  obtain ⟨header, first, same⟩ := List.mem_map.1 (Reference.mem_hashes_firsts.2 ⟨t, member, rfl⟩)
  have listed := List.mem_map_of_mem (f := fun h : Header => (h.hash, Reference.sources told h.hash)) first
  rw [← refines.reports] at listed
  obtain ⟨b, stored, pair⟩ := List.mem_map.1 listed
  obtain ⟨hash, sources⟩ := Prod.mk.inj pair
  refine ⟨b, stored, hash.trans same, ?_⟩
  rw [sources, contains_sources]
  exact ⟨t, member, same.symm, rfl⟩

/-- There are no other reports. -/
theorem Refines.reporters (refines : s.Refines told) {b : Block} (stored : b ∈ s.blocks) :
    b.reportingSources = Reference.sources told b.hash := by
  have listed := List.mem_map_of_mem (f := fun b : Block => (b.hash, b.reportingSources)) stored
  rw [refines.reports] at listed
  obtain ⟨header, _, pair⟩ := List.mem_map.1 listed
  obtain ⟨hash, sources⟩ := Prod.mk.inj pair
  rw [← sources, ← hash]

/-- All reports together are no more than the headers. -/
theorem Refines.total_reports (refines : s.Refines told) :
    total (fun b => b.reportingSources.size) s.blocks ≤ told.length := by
  have sizes : total (fun b => b.reportingSources.size) s.blocks ≤
      total (fun hash => (told.filter (·.header.hash == hash)).length) s.hashes := by
    -- A source that sends a header twice stands with its block once.
    rw [hashes, total_map]
    refine total_mono fun b stored => ?_
    rw [refines.reporters stored, Reference.sources]
    refine Nat.le_trans (SortedSet.size_ofList_le _) (Nat.le_of_eq ?_)
    exact List.length_map ..
  exact Nat.le_trans sizes (count_distinct_le (·.header.hash) s.hashes refines.valid.hashes_nodup told)

end BlockStore

end BlockGraph
