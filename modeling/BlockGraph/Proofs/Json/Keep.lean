import BlockGraph.Json.Codec
import BlockGraph.Proofs.Map

/-!
# Values that were kept

A value that was kept from a document is kept again as it is: its objects are sorted by then, and it is
no deeper than the document was. How deep that may be is a matter of the reading; one with more room
keeps the same.

* `Reading.Within` — readings with at least as much room.
* `Json.Kept`, `Json.Fits` — a value that is kept as it is, and one that can be kept at all.
* `kept_of_keep` — what was kept is kept again as it is.
* `fits_arr`, `fits_obj` — containers fit one level further up.
* `Json.depth`, `depth_le_of_kept`, `kept_of_depth_le` — how deep a value may be that is kept.
-/

namespace BlockGraph

/-! ## Room -/

namespace Reading

/-- Whether a reading has at least as much room as another one. -/
def Within : Reading → Reading → Prop
  | .stream room, .stream more => room ≤ more
  | .held, .stream _ => False
  | _, .held => True

variable {r s t : Reading}

theorem Within.refl (r : Reading) : r.Within r := by
  cases r with
  | stream room => exact Nat.le_refl room
  | held => trivial

theorem Within.held (r : Reading) : r.Within .held := by cases r <;> trivial

/-- Where one reading can go down, one with more room can. -/
theorem Within.enter (within : r.Within t) (entered : r.enter = .ok s) :
    ∃ u, t.enter = .ok u ∧ s.Within u := by
  cases t with
  | held => exact ⟨.held, rfl, .held s⟩
  | stream more =>
    cases r with
    | held => cases within
    | stream room =>
      cases room with
      | zero => cases entered
      | succ room =>
        obtain rfl := Except.ok.inj entered
        cases more with
        | zero => exact absurd within (Nat.not_succ_le_zero room)
        | succ more => exact ⟨.stream more, rfl, Nat.le_of_succ_le_succ within⟩

end Reading

/-! ## Values as documents -/

namespace Json

variable {r s : Reading} {v : Json} {vs : List Json} {ms : List (String × Json)}

theorem toDocs_eq (vs : List Json) : toDocs vs = vs.map toDoc := by
  induction vs with
  | nil => rfl
  | cons v vs ih => rw [toDocs, ih, List.map_cons]

theorem toDocMembers_eq (ms : List (String × Json)) :
    toDocMembers ms = ms.map fun m => (some m.1, m.2.toDoc) := by
  induction ms with
  | nil => rfl
  | cons m ms ih => rw [toDocMembers, ih, List.map_cons]

/-- A value that is kept as it is. -/
def Kept (r : Reading) (v : Json) : Prop := v.toDoc.keep r = .ok v

/-- A value that can be kept. -/
def Fits (r : Reading) (v : Json) : Prop := ∃ w, v.toDoc.keep r = .ok w

theorem keepItems_toDocs (kept : ∀ v ∈ vs, v.Kept r) : Doc.keepItems r (toDocs vs) = .ok vs := by
  induction vs with
  | nil => rfl
  | cons v vs ih =>
    have first : v.toDoc.keep r = .ok v := kept v List.mem_cons_self
    have rest := ih fun w member => kept w (List.mem_cons_of_mem v member)
    simp only [toDocs, Doc.keepItems, first, rest, bind, Except.bind, pure, Except.pure]

theorem keepMembers_toDocMembers (kept : ∀ m ∈ ms, m.2.Kept r) :
    Doc.keepMembers r (toDocMembers ms) = .ok ms := by
  induction ms with
  | nil => rfl
  | cons m ms ih =>
    have first : m.2.toDoc.keep r = .ok m.2 := kept m List.mem_cons_self
    have rest := ih fun n member => kept n (List.mem_cons_of_mem m member)
    simp only [toDocMembers, Doc.keepMembers, Doc.key, Option.elim_some, first, rest, bind, Except.bind,
      pure, Except.pure]

theorem kept_arr (entered : r.enter = .ok s) (kept : ∀ v ∈ vs, v.Kept s) : Kept r (.arr vs) := by
  simp only [Kept, toDoc, Doc.keep, entered, keepItems_toDocs kept, bind, Except.bind, if_true, pure,
    Except.pure]

/-- An object is kept as it is once its members are sorted. -/
theorem kept_object (entered : r.enter = .ok s) (kept : ∀ m ∈ ms, m.2.Kept s) : Kept r (.object ms) := by
  -- Of several members with one key one is left, and sorting what is sorted changes nothing.
  have members : Doc.keepMembers s (toDocMembers (SortedMap.ofList ms).toList) =
      .ok (SortedMap.ofList ms).toList :=
    keepMembers_toDocMembers fun m member => kept m (SortedMap.mem_of_mem_ofList member)
  simp only [Kept, object, toDoc, Doc.keep, entered, members, bind, Except.bind, if_true, pure,
    Except.pure, SortedMap.ofList_toList]

end Json

/-! ## What was kept -/

namespace Doc

variable {r s t : Reading} {v : Json}

theorem keep_arr {items : List Doc} {closed : Bool} (kept : (Doc.arr items closed).keep r = .ok v) :
    ∃ s vs, r.enter = .ok s ∧ keepItems s items = .ok vs ∧ v = .arr vs := by
  rw [keep] at kept
  cases entered : r.enter with
  | error => rw [entered] at kept; cases kept
  | ok s =>
    cases all : keepItems s items with
    | error => simp [entered, all, bind, Except.bind] at kept
    | ok vs =>
      cases closed with
      | false => simp [entered, all, bind, Except.bind, throw, throwThe, MonadExceptOf.throw] at kept
      | true =>
        refine ⟨s, vs, rfl, all, ?_⟩
        simpa [entered, all, bind, Except.bind, pure, Except.pure, eq_comm] using kept

theorem keep_obj {members : List (Option String × Doc)} {closed : Bool}
    (kept : (Doc.obj members closed).keep r = .ok v) :
    ∃ s ms, r.enter = .ok s ∧ keepMembers s members = .ok ms ∧ v = .object ms := by
  rw [keep] at kept
  cases entered : r.enter with
  | error => rw [entered] at kept; cases kept
  | ok s =>
    cases all : keepMembers s members with
    | error => simp [entered, all, bind, Except.bind] at kept
    | ok ms =>
      cases closed with
      | false => simp [entered, all, bind, Except.bind, throw, throwThe, MonadExceptOf.throw] at kept
      | true =>
        refine ⟨s, ms, rfl, all, ?_⟩
        simpa [entered, all, bind, Except.bind, pure, Except.pure, eq_comm] using kept

-- By the document and not by the value: the value of an object has fewer members than its document, and
-- in another order.
mutual
/-- What was kept is kept again as it is, where there is at least as much room. -/
theorem kept_of_keep : (d : Doc) → {r t : Reading} → {v : Json} → d.keep r = .ok v → r.Within t → v.Kept t
  | .null, _, _, _, kept, _ => by obtain rfl := Except.ok.inj kept; rfl
  | .bool _, _, _, _, kept, _ => by obtain rfl := Except.ok.inj kept; rfl
  | .num (some _), _, _, _, kept, _ => by obtain rfl := Except.ok.inj kept; rfl
  | .str (some _), _, _, _, kept, _ => by obtain rfl := Except.ok.inj kept; rfl
  | .num none, _, _, _, kept, _ => by cases kept
  | .str none, _, _, _, kept, _ => by cases kept
  | .broken, _, _, _, kept, _ => by cases kept
  | .arr items closed, r, t, v, kept, within => by
    obtain ⟨s, vs, entered, all, rfl⟩ := keep_arr kept
    obtain ⟨u, enteredToo, further⟩ := within.enter entered
    exact Json.kept_arr enteredToo (kept_of_keepItems items all further)
  | .obj members closed, r, t, v, kept, within => by
    obtain ⟨s, ms, entered, all, rfl⟩ := keep_obj kept
    obtain ⟨u, enteredToo, further⟩ := within.enter entered
    exact Json.kept_object enteredToo (kept_of_keepMembers members all further)

theorem kept_of_keepItems : (ds : List Doc) → {r t : Reading} → {vs : List Json} →
    keepItems r ds = .ok vs → r.Within t → ∀ v ∈ vs, v.Kept t
  | [], _, _, _, kept, _ => by
    obtain rfl := Except.ok.inj kept
    exact fun _ member => nomatch member
  | d :: ds, r, t, vs, kept, within => by
    rw [keepItems] at kept
    cases first : d.keep r with
    | error => rw [first] at kept; cases kept
    | ok w =>
      cases rest : keepItems r ds with
      | error => simp [first, rest, bind, Except.bind] at kept
      | ok ws =>
        obtain rfl : w :: ws = vs := by
          simpa [first, rest, bind, Except.bind, pure, Except.pure] using kept
        intro v member
        rcases List.mem_cons.1 member with rfl | later
        · exact kept_of_keep d first within
        · exact kept_of_keepItems ds rest within v later

theorem kept_of_keepMembers : (ds : List (Option String × Doc)) → {r t : Reading} →
    {ms : List (String × Json)} → keepMembers r ds = .ok ms → r.Within t → ∀ m ∈ ms, m.2.Kept t
  | [], _, _, _, kept, _ => by
    obtain rfl := Except.ok.inj kept
    exact fun _ member => nomatch member
  | (none, d) :: ds, _, _, _, kept, _ => by cases kept
  | (some key, d) :: ds, r, t, ms, kept, within => by
    rw [keepMembers] at kept
    cases first : d.keep r with
    | error => simp [first, Doc.key, bind, Except.bind] at kept
    | ok w =>
      cases rest : keepMembers r ds with
      | error => simp [first, rest, Doc.key, bind, Except.bind] at kept
      | ok ws =>
        obtain rfl : (key, w) :: ws = ms := by
          simpa [first, rest, Doc.key, bind, Except.bind, pure, Except.pure] using kept
        intro m member
        rcases List.mem_cons.1 member with rfl | later
        · exact kept_of_keep d first within
        · exact kept_of_keepMembers ds rest within m later
end

end Doc

/-! ## What can be kept -/

namespace Json

variable {r s : Reading} {v : Json} {vs : List Json} {ms : List (String × Json)}

theorem Kept.fits (kept : v.Kept r) : v.Fits r := ⟨v, kept⟩

theorem fits_arr (entered : r.enter = .ok s) (fits : ∀ v ∈ vs, v.Fits s) : Fits r (.arr vs) := by
  have all : ∃ ws, Doc.keepItems s (toDocs vs) = .ok ws := by
    induction vs with
    | nil => exact ⟨[], rfl⟩
    | cons v vs ih =>
      obtain ⟨w, first⟩ := fits v List.mem_cons_self
      obtain ⟨ws, rest⟩ := ih fun u member => fits u (List.mem_cons_of_mem v member)
      exact ⟨w :: ws, by simp [toDocs, Doc.keepItems, first, rest, bind, Except.bind, pure, Except.pure]⟩
  obtain ⟨ws, all⟩ := all
  exact ⟨.arr ws, by simp [toDoc, Doc.keep, entered, all, bind, Except.bind, pure, Except.pure]⟩

theorem fits_obj (entered : r.enter = .ok s) (fits : ∀ m ∈ ms, m.2.Fits s) : Fits r (.obj ms) := by
  have all : ∃ ws, Doc.keepMembers s (toDocMembers ms) = .ok ws := by
    induction ms with
    | nil => exact ⟨[], rfl⟩
    | cons m ms ih =>
      obtain ⟨w, first⟩ := fits m List.mem_cons_self
      obtain ⟨ws, rest⟩ := ih fun u member => fits u (List.mem_cons_of_mem m member)
      exact ⟨(m.1, w) :: ws, by
        simp [toDocMembers, Doc.keepMembers, Doc.key, first, rest, bind, Except.bind, pure, Except.pure]⟩
  obtain ⟨ws, all⟩ := all
  exact ⟨.object ws, by simp [toDoc, Doc.keep, entered, all, bind, Except.bind, pure, Except.pure]⟩

/-! ## Depth -/

mutual
/-- The number of containers around the innermost part of a value, its own ones included. -/
def depth : Json → Nat
  | .null | .bool _ | .num _ | .str _ => 0
  | .arr items => depthOfItems items + 1
  | .obj members => depthOfMembers members + 1

def depthOfItems : List Json → Nat
  | [] => 0
  | v :: vs => max v.depth (depthOfItems vs)

def depthOfMembers : List (String × Json) → Nat
  | [] => 0
  | (_, v) :: ms => max v.depth (depthOfMembers ms)
end

theorem items_of_kept (kept : Kept r (.arr vs)) : ∃ s, r.enter = .ok s ∧ ∀ v ∈ vs, v.Kept s := by
  obtain ⟨s, ws, entered, all, same⟩ := Doc.keep_arr kept
  obtain rfl := Json.arr.inj same
  exact ⟨s, entered, Doc.kept_of_keepItems _ all (.refl s)⟩

/-- An object that is kept as it is has been sorted. -/
theorem members_of_kept (kept : Kept r (.obj ms)) :
    (∃ s, r.enter = .ok s ∧ ∀ m ∈ ms, m.2.Kept s) ∧ (SortedMap.ofList ms).toList = ms := by
  obtain ⟨s, ns, entered, all, same⟩ := Doc.keep_obj kept
  obtain rfl : ms = (SortedMap.ofList ns).toList := Json.obj.inj same
  refine ⟨⟨s, entered, fun m member => ?_⟩, by rw [SortedMap.ofList_toList]⟩
  exact Doc.kept_of_keepMembers _ all (.refl s) m (SortedMap.mem_of_mem_ofList member)

mutual
/-- What is kept from a text is no deeper than the text may be. -/
theorem depth_le_of_kept : (v : Json) → {room : Nat} → v.Kept (.stream room) → v.depth ≤ room
  | .null, _, _ | .bool _, _, _ | .num _, _, _ | .str _, _, _ => Nat.zero_le _
  | .arr vs, 0, kept => by
    obtain ⟨s, entered, _⟩ := items_of_kept kept
    cases entered
  | .arr vs, room + 1, kept => by
    obtain ⟨s, entered, each⟩ := items_of_kept kept
    obtain rfl := Except.ok.inj entered
    exact Nat.succ_le_succ (depthOfItems_le vs each)
  | .obj ms, 0, kept => by
    obtain ⟨⟨s, entered, _⟩, _⟩ := members_of_kept kept
    cases entered
  | .obj ms, room + 1, kept => by
    obtain ⟨⟨s, entered, each⟩, _⟩ := members_of_kept kept
    obtain rfl := Except.ok.inj entered
    exact Nat.succ_le_succ (depthOfMembers_le ms each)

theorem depthOfItems_le : (vs : List Json) → {room : Nat} → (∀ v ∈ vs, v.Kept (.stream room)) →
    depthOfItems vs ≤ room
  | [], _, _ => Nat.zero_le _
  | v :: vs, _, each => Nat.max_le.2
    ⟨depth_le_of_kept v (each v List.mem_cons_self),
      depthOfItems_le vs fun w member => each w (List.mem_cons_of_mem v member)⟩

theorem depthOfMembers_le : (ms : List (String × Json)) → {room : Nat} →
    (∀ m ∈ ms, m.2.Kept (.stream room)) → depthOfMembers ms ≤ room
  | [], _, _ => Nat.zero_le _
  | m :: ms, _, each => Nat.max_le.2
    ⟨depth_le_of_kept m.2 (each m List.mem_cons_self),
      depthOfMembers_le ms fun n member => each n (List.mem_cons_of_mem m member)⟩
end

mutual
/-- A value that is kept somewhere is kept from any text that leaves room for it. -/
theorem kept_of_depth_le : (v : Json) → {r : Reading} → {room : Nat} → v.Kept r → v.depth ≤ room →
    v.Kept (.stream room)
  | .null, _, _, _, _ | .bool _, _, _, _, _ | .num _, _, _, _, _ | .str _, _, _, _, _ => rfl
  | .arr vs, r, room + 1, kept, fits => by
    obtain ⟨s, _, each⟩ := items_of_kept kept
    exact kept_arr rfl (itemsKept_of_depth_le vs each (Nat.le_of_succ_le_succ fits))
  | .obj ms, r, room + 1, kept, fits => by
    obtain ⟨⟨s, _, each⟩, sorted⟩ := members_of_kept kept
    have again := kept_object (r := .stream (room + 1)) rfl
      (membersKept_of_depth_le ms each (Nat.le_of_succ_le_succ fits))
    rwa [object, sorted] at again

theorem itemsKept_of_depth_le : (vs : List Json) → {r : Reading} → {room : Nat} → (∀ v ∈ vs, v.Kept r) →
    depthOfItems vs ≤ room → ∀ v ∈ vs, v.Kept (.stream room)
  | [], _, _, _, _ => fun _ member => nomatch member
  | v :: vs, r, room, each, fits => by
    obtain ⟨here, rest⟩ := Nat.max_le.1 fits
    refine List.forall_mem_cons.2 ⟨kept_of_depth_le v (each v List.mem_cons_self) here, ?_⟩
    exact itemsKept_of_depth_le vs (fun w member => each w (List.mem_cons_of_mem v member)) rest

theorem membersKept_of_depth_le : (ms : List (String × Json)) → {r : Reading} → {room : Nat} →
    (∀ m ∈ ms, m.2.Kept r) → depthOfMembers ms ≤ room → ∀ m ∈ ms, m.2.Kept (.stream room)
  | [], _, _, _, _ => fun _ member => nomatch member
  | m :: ms, r, room, each, fits => by
    obtain ⟨here, rest⟩ := Nat.max_le.1 fits
    refine List.forall_mem_cons.2 ⟨kept_of_depth_le m.2 (each m List.mem_cons_self) here, ?_⟩
    exact membersKept_of_depth_le ms (fun n member => each n (List.mem_cons_of_mem m member)) rest
end

end Json

end BlockGraph
