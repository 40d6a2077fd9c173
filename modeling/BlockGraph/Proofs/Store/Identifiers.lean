import BlockGraph.Proofs.Store.Edges
import BlockGraph.Proofs.Store.Reference
import Mathlib.Data.List.Nodup

/-!
# Identifiers of edges

An edge is named by the hashes at its ends with a hyphen between them. That names the edge as long as no
hash holds a hyphen. Otherwise a part of one hash may stand at the end of the parent or at the start of
the child, and both readings may be edges of one store.

* `Edge.Overlaps`, `Edge.id_eq_iff` — when two edges have one identifier.
* `Valid.ids_nodup_iff` — when the identifiers of a valid store are distinct.
* `insertAll_ids` — the same for any run of insertions; `insertAll_ids_clash` — a run that leads to two
  edges with one identifier.
-/

namespace BlockGraph

/-- Two lists around a separator are equal when they are split at the same place, or when one of the
splits is at a separator within a part of the other. -/
theorem append_cons_eq_append_cons_iff {α : Type} {sep : α} {a b c d : List α} :
    a ++ sep :: b = c ++ sep :: d ↔ (a = c ∧ b = d) ∨
      (∃ middle, c = a ++ sep :: middle ∧ b = middle ++ sep :: d) ∨
        ∃ middle, a = c ++ sep :: middle ∧ d = middle ++ sep :: b := by
  constructor
  · intro same
    rcases List.append_eq_append_iff.1 same with ⟨rest, rfl, tail⟩ | ⟨rest, rfl, tail⟩
    · cases rest with
      | nil => exact .inl ⟨(List.append_nil a).symm, (List.cons.inj tail).2⟩
      | cons head middle =>
        obtain ⟨rfl, rfl⟩ := List.cons.inj tail
        exact .inr (.inl ⟨middle, rfl, rfl⟩)
    · cases rest with
      | nil => exact .inl ⟨List.append_nil c, (List.cons.inj tail).2.symm⟩
      | cons head middle =>
        obtain ⟨rfl, rfl⟩ := List.cons.inj tail
        exact .inr (.inr ⟨middle, rfl, rfl⟩)
  · rintro (⟨rfl, rfl⟩ | ⟨middle, rfl, rfl⟩ | ⟨middle, rfl, rfl⟩) <;> simp

namespace Edge

variable {e f : Edge}

/-- The middle of the identifier stands at the start of the child of the first edge, and at the end of
the parent of the second. -/
def Overlaps (e f : Edge) : Prop :=
  ∃ middle, f.parentHash = e.parentHash ++ "-" ++ middle ∧ e.childHash = middle ++ "-" ++ f.childHash

theorem Overlaps.ne (overlap : e.Overlaps f) : e ≠ f := by
  rintro rfl
  obtain ⟨middle, longer, _⟩ := overlap
  have length := congrArg String.length longer
  simp only [String.length_append] at length
  have hyphen : "-".length = 1 := rfl
  omega

/-- Only hashes with hyphens overlap. -/
theorem Overlaps.hyphens (overlap : e.Overlaps f) :
    '-' ∈ f.parentHash.toList ∧ '-' ∈ e.childHash.toList := by
  obtain ⟨middle, parent, child⟩ := overlap
  simp [parent, child]

theorem overlaps_iff : e.Overlaps f ↔ ∃ middle,
    f.parentHash.toList = e.parentHash.toList ++ '-' :: middle ∧
      e.childHash.toList = middle ++ '-' :: f.childHash.toList := by
  constructor
  · rintro ⟨middle, parent, child⟩
    exact ⟨middle.toList, by simp [parent], by simp [child]⟩
  · rintro ⟨middle, parent, child⟩
    exact ⟨String.ofList middle, by simp [← String.toList_inj, parent], by simp [← String.toList_inj, child]⟩

theorem id_toList (e : Edge) : e.id.toList = e.parentHash.toList ++ '-' :: e.childHash.toList := by
  simp [id]

/-- Two edges have one identifier when they are the same, or when one overlaps the other. -/
theorem id_eq_iff : e.id = f.id ↔ e = f ∨ e.Overlaps f ∨ f.Overlaps e := by
  rw [← String.toList_inj, id_toList, id_toList, append_cons_eq_append_cons_iff, overlaps_iff,
    overlaps_iff, String.toList_inj, String.toList_inj, ← Edge.mk.injEq]

end Edge

namespace BlockStore

variable {s : BlockStore}

theorem Valid.ids_nodup_iff (valid : s.Valid) :
    (s.edges.map (·.id)).Nodup ↔ ∀ e ∈ s.edges, ∀ f ∈ s.edges, ¬ e.Overlaps f := by
  rw [List.nodup_map_iff_inj_on valid.edges_nodup]
  constructor
  · intro distinct e left f right overlap
    exact overlap.ne (distinct e left f right (Edge.id_eq_iff.2 (.inr (.inl overlap))))
  · intro apart e left f right same
    refine (Edge.id_eq_iff.1 same).resolve_right fun overlap => ?_
    exact overlap.elim (apart e left f right) (apart f right e left)

/-- After any insertions the identifiers of the edges are distinct, unless two of the edges overlap. They
never do when the headers bring no hyphens in their hashes. -/
theorem insertAll_ids (table : SealTable) (policy : EdgePolicy) (as : List Announcement) :
    let s := (new table policy).insertAll as
    ((s.edges.map (·.id)).Nodup ↔ ∀ e ∈ s.edges, ∀ f ∈ s.edges, ¬ e.Overlaps f) ∧
      ((∀ a ∈ as, '-' ∉ a.header.hash.toList) → (s.edges.map (·.id)).Nodup) := by
  intro s
  have refines : s.Refines (admitted as) := (refines_new table policy).insertAll as
  refine ⟨refines.valid.ids_nodup_iff, fun plain => ?_⟩
  rw [refines.valid.ids_nodup_iff]
  intro e member _ _ overlap
  -- The child of an edge is a stored block, and some header has brought it.
  obtain ⟨a, announced, same⟩ := refines.mem_hashes.1 (refines.valid.edge_ends member).2
  exact plain a (List.mem_filter.1 announced).1 (same ▸ overlap.hyphens.2)

/-- Two children of one block: hashes without hyphens, and hashes with hyphens that do not overlap. -/
theorem insertAll_ids_siblings :
    let siblings (first second : String) : List Announcement :=
      [⟨"a", .new 1 "0x1" "0x0"⟩, ⟨"a", .new 2 first "0x1"⟩, ⟨"a", .new 2 second "0x1"⟩]
    let plain := (new .standard .childOnly).insertAll (siblings "0x2" "0x3")
    let hyphened := (new .standard .childOnly).insertAll (siblings "2-a" "3-a")
    (∀ a ∈ siblings "0x2" "0x3", '-' ∉ a.header.hash.toList) ∧ plain.edges.length = 2 ∧
      (plain.edges.map (·.id)).Nodup ∧
      hyphened.edges.map (·.id) = ["0x1-2-a", "0x1-3-a"] ∧
      ∀ e ∈ hyphened.edges, ∀ f ∈ hyphened.edges, ¬ e.Overlaps f := by
  intro siblings plain hyphened
  have free : ∀ a ∈ siblings "0x2" "0x3", '-' ∉ a.header.hash.toList := by decide +kernel
  have ids : hyphened.edges.map (·.id) = ["0x1-2-a", "0x1-3-a"] := by decide +kernel
  have distinct : (hyphened.edges.map (·.id)).Nodup := by
    rw [ids]
    decide +kernel
  exact ⟨free, by decide +kernel, (insertAll_ids .standard .childOnly _).2 free, ids,
    (insertAll_ids .standard .childOnly _).1.1 distinct⟩

/-- Four blocks whose hashes are not blank make two edges, and both have one identifier. -/
theorem insertAll_ids_clash :
    let s := (new .standard .childOnly).insertAll
      [⟨"a", .new 1 "a" "0x0"⟩, ⟨"a", .new 1 "a-b" "0x0"⟩, ⟨"a", .new 2 "b-c" "a"⟩,
        ⟨"a", .new 2 "c" "a-b"⟩]
    s.edges = [⟨"a", "b-c"⟩, ⟨"a-b", "c"⟩] ∧ s.edges.map (·.id) = ["a-b-c", "a-b-c"] := by
  decide +kernel

end BlockStore

end BlockGraph
