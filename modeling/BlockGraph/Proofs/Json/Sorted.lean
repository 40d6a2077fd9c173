import BlockGraph.Proofs.Json.Keep

/-!
# Kept values of any order

A value that is kept from a text has its objects sorted. So a value whose objects have no key twice is kept
as it is but for the order of members, which the value does not mean.

* `Json.sorted`, `Json.Distinct` — the value with sorted objects, and values without a double key.
* `Json.keep_toDoc` — what is kept of a value that the room of its text suffices for.
-/

namespace BlockGraph.Json

mutual
/-- The value with the members of each object in the order of their keys. -/
def sorted : Json → Json
  | .null => .null
  | .bool b => .bool b
  | .num n => .num n
  | .str s => .str s
  | .arr items => .arr (sortedItems items)
  | .obj members => .obj ((sortedMembers members).mergeSort fun m n => decide (m.1 ≤ n.1))

def sortedItems : List Json → List Json
  | [] => []
  | v :: vs => v.sorted :: sortedItems vs

/-- The members with sorted values. -/
def sortedMembers : List (String × Json) → List (String × Json)
  | [] => []
  | (k, v) :: ms => (k, v.sorted) :: sortedMembers ms
end

mutual
/-- No object of the value has two members with one key. -/
def Distinct : Json → Prop
  | .null | .bool _ | .num _ | .str _ => True
  | .arr items => ItemsDistinct items
  | .obj members => (members.map (·.1)).Nodup ∧ MembersDistinct members

def ItemsDistinct : List Json → Prop
  | [] => True
  | v :: vs => v.Distinct ∧ ItemsDistinct vs

def MembersDistinct : List (String × Json) → Prop
  | [] => True
  | (_, v) :: ms => v.Distinct ∧ MembersDistinct ms
end

theorem MembersDistinct.each {ms : List (String × Json)} {room : Nat} (distinct : MembersDistinct ms)
    (fits : depthOfMembers ms ≤ room) : ∀ m ∈ ms, m.2.Distinct ∧ m.2.depth ≤ room := by
  induction ms with
  | nil => exact List.forall_mem_nil _
  | cons m ms ih =>
    have first := Nat.le_trans (Nat.le_max_left ..) fits
    have rest := Nat.le_trans (Nat.le_max_right ..) fits
    exact List.forall_mem_cons.2 ⟨⟨distinct.1, first⟩, ih distinct.2 rest⟩

theorem sortedItems_eq (vs : List Json) : sortedItems vs = vs.map sorted := by
  induction vs with
  | nil => rfl
  | cons v vs ih => rw [sortedItems, ih, List.map_cons]

theorem sortedMembers_keys (ms : List (String × Json)) :
    (sortedMembers ms).map (·.1) = ms.map (·.1) := by
  induction ms with
  | nil => rfl
  | cons m ms ih => rw [sortedMembers, List.map_cons, List.map_cons, ih]

theorem object_eq {ms : List (String × Json)} (distinct : (ms.map (·.1)).Nodup) :
    object (sortedMembers ms) = sorted (.obj ms) := by
  rw [object, sorted, SortedMap.ofList_eq_mergeSort ((sortedMembers_keys ms).symm ▸ distinct)]

mutual
/-- A value is kept from a text that leaves room for it, with its members sorted. -/
theorem keep_toDoc : (v : Json) → {room : Nat} → v.Distinct → v.depth ≤ room →
    v.toDoc.keep (.stream room) = .ok v.sorted
  | .null, _, _, _ | .bool _, _, _, _ | .num _, _, _, _ | .str _, _, _, _ => rfl
  | .arr vs, room + 1, distinct, fits => by
    have items := keepItems_toDocs_sorted vs distinct (Nat.le_of_succ_le_succ fits)
    simp only [toDoc, Doc.keep, Reading.enter, items, sorted, bind, Except.bind, if_true, pure,
      Except.pure]
  | .obj ms, room + 1, distinct, fits => by
    have members := keepMembers_sorted ms distinct.2 (Nat.le_of_succ_le_succ fits)
    simp only [toDoc, Doc.keep, Reading.enter, members, object_eq distinct.1, bind, Except.bind, if_true,
      pure, Except.pure]

theorem keepItems_toDocs_sorted : (vs : List Json) → {room : Nat} → ItemsDistinct vs →
    depthOfItems vs ≤ room → Doc.keepItems (.stream room) (toDocs vs) = .ok (sortedItems vs)
  | [], _, _, _ => rfl
  | v :: vs, room, distinct, fits => by
    have first := keep_toDoc v distinct.1 (Nat.le_trans (Nat.le_max_left ..) fits)
    have rest := keepItems_toDocs_sorted vs distinct.2 (Nat.le_trans (Nat.le_max_right ..) fits)
    simp only [toDocs, Doc.keepItems, first, rest, sortedItems, bind, Except.bind, pure, Except.pure]

theorem keepMembers_sorted : (ms : List (String × Json)) → {room : Nat} → MembersDistinct ms →
    depthOfMembers ms ≤ room → Doc.keepMembers (.stream room) (toDocMembers ms) = .ok (sortedMembers ms)
  | [], _, _, _ => rfl
  | (k, v) :: ms, room, distinct, fits => by
    have first := keep_toDoc v distinct.1 (Nat.le_trans (Nat.le_max_left ..) fits)
    have rest := keepMembers_sorted ms distinct.2 (Nat.le_trans (Nat.le_max_right ..) fits)
    simp only [toDocMembers, Doc.keepMembers, Doc.key, Option.elim_some, first, rest, sortedMembers, bind,
      Except.bind, pure, Except.pure]
end

end BlockGraph.Json
