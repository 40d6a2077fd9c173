import BlockGraph.Proofs.Json.Codec
import BlockGraph.Proofs.Json.Difference

/-!
# Records from members in any order

An object gives a record its fields in whatever order its members stand. Field by field: the first one
takes its member, wherever that is, and the rest of the record comes from the members that are left.

* `Fields.ofMembers` — the record of the members of an object.
* `Fields.ofMembers_take`, `Fields.ofMembers_absent` — a field that has a member, and one that has none.
* `Fields.ofMembers_single` — the last field, with the members that no field has a part in.
-/

namespace BlockGraph.Fields

variable {ρ α β : Type} {r s : Reading} {field : Field ρ α} {rest : Fields ρ β} {make : α → β} {a : α}
  {d : Doc} {front back members others : List (Option String × Doc)}

/-- The record of the members of an object. -/
def ofMembers {γ : Type} (fs : Fields ρ γ) (r : Reading) (members : List (Option String × Doc)) (make : γ) :
    Except Fault ρ :=
  fs.acceptAll r members fs.noSlots >>= fun slots => fs.finish slots make

theorem read_obj {γ : Type} (fs : Fields ρ γ) (make : γ) (entered : r.enter = .ok s) :
    fs.read make r (.obj members true) = fs.ofMembers s members make := by
  simp only [read, entered, ofMembers, bind, Except.bind, if_true]

/-! ## The first field -/

theorem acceptAll_between (read : field.codec.read r d = .ok a)
    (before : ∀ m ∈ front, m.1 ≠ some field.name) (behind : ∀ m ∈ back, m.1 ≠ some field.name)
    (taken : Slots rest) :
    (Fields.cons field rest).acceptAll r (front ++ (some field.name, d) :: back) (none, taken) =
      (rest.acceptAll r (front ++ back) taken).map fun taken => (some a, taken) := by
  have reached := acceptAll_append (r := r) (.cons field rest) front ((some field.name, d) :: back)
    (none, taken)
  rw [acceptAll_others field rest none front before] at reached
  rw [reached, acceptAll_append]
  cases rest.acceptAll r front taken with
  | error => rfl
  | ok taken =>
    have own := acceptAll_own (r := r) (d := d) field rest back (none, taken)
    rw [read] at own
    exact own.trans (acceptAll_others field rest (some a) back behind taken)

/-- The first field takes its member, and leaves the others to the rest. -/
theorem ofMembers_take {made : Except Fault ρ} (given : members.Perm ((some field.name, d) :: others))
    (apart : ∀ m ∈ others, m.1 ≠ some field.name) (read : field.codec.read r d = .ok a)
    (further : ∀ left, left.Perm others → rest.ofMembers r left (make a) = made) :
    (Fields.cons field rest).ofMembers r members make = made := by
  obtain ⟨front, back, rfl⟩ := List.append_of_mem (given.mem_iff.2 List.mem_cons_self)
  have left : (front ++ back).Perm others := (List.perm_middle.symm.trans given).cons_inv
  have others : ∀ m ∈ front ++ back, m.1 ≠ some field.name := fun m member => apart m (left.mem_iff.1 member)
  obtain ⟨before, behind⟩ := List.forall_mem_append.1 others
  have taken := acceptAll_between read before behind rest.noSlots
  refine (congrArg (· >>= fun slots => (Fields.cons field rest).finish slots make) taken).trans ?_
  rw [← further _ left, ofMembers]
  cases rest.acceptAll r (front ++ back) rest.noSlots <;> rfl

/-- The first field has its own value if it has no member. -/
theorem ofMembers_absent (apart : ∀ m ∈ members, m.1 ≠ some field.name) (absent : field.absent = some a) :
    (Fields.cons field rest).ofMembers r members make = rest.ofMembers r members (make a) := by
  have taken := acceptAll_others (r := r) field rest none members apart rest.noSlots
  refine (congrArg (· >>= fun slots => (Fields.cons field rest).finish slots make) taken).trans ?_
  rw [ofMembers]
  cases rest.acceptAll r members rest.noSlots with
  | error => rfl
  | ok taken => simp [Except.map, bind, Except.bind, finish, absent]

/-! ## The last field -/

theorem acceptAll_done (ms : List (String × Json)) :
    (Fields.done : Fields ρ ρ).acceptAll r (Json.toDocMembers ms) () = .ok () := by
  induction ms with
  | nil => rfl
  | cons m ms ih =>
    simp [Json.toDocMembers, acceptAll, accept, Doc.key, Json.isWhole_toDoc, bind, Except.bind, ih]

theorem others_of_not_mem {key : String} {ms : List (String × Json)} (apart : key ∉ ms.map (·.1)) :
    ∀ m ∈ Json.toDocMembers ms, m.1 ≠ some key := by
  rw [Json.toDocMembers_eq, List.forall_mem_map]
  exact fun m member same => apart (List.mem_map.2 ⟨m, member, Option.some.inj same⟩)

/-- A record of one field, among members that have no part in it. -/
theorem ofMembers_single (field : Field ρ α) (make : α → ρ) (ms : List (String × Json))
    (distinct : (ms.map (·.1)).Nodup) :
    (Fields.cons field .done).ofMembers r (Json.toDocMembers ms) make =
      match SortedMap.find? field.name ms with
      | none => field.absent.elim (.error (.missingField field.name)) fun a => .ok (make a)
      | some v => make <$> field.codec.read r v.toDoc := by
  induction ms with
  | nil =>
    rw [Json.toDocMembers, SortedMap.find?, ofMembers, acceptAll]
    cases absent : field.absent <;> simp [bind, Except.bind, finish, noSlots, absent]
  | cons m ms ih =>
    obtain ⟨key, v⟩ := m
    obtain ⟨apart, distinct⟩ := List.nodup_cons.1 distinct
    rw [Json.toDocMembers, SortedMap.find?]
    by_cases own : field.name = key
    · subst own
      rw [if_pos rfl]
      show _ = make <$> field.codec.read r v.toDoc
      have taken := acceptAll_own (r := r) (d := v.toDoc) field .done (Json.toDocMembers ms) (none, ())
      refine (congrArg (· >>= fun slots => (Fields.cons field .done).finish slots make) taken).trans ?_
      cases field.codec.read r v.toDoc with
      | error => rfl
      | ok a =>
        have others := acceptAll_others (r := r) field .done (some a) _ (others_of_not_mem apart) ()
        rw [acceptAll_done] at others
        exact congrArg (· >>= fun slots => (Fields.cons field .done).finish slots make) others
    · rw [if_neg own, ← ih distinct]
      simp [ofMembers, acceptAll, noSlots, accept, Doc.key, Ne.symm own, Json.isWhole_toDoc, bind,
        Except.bind]

end BlockGraph.Fields
