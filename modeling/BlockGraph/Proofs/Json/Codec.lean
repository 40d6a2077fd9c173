import BlockGraph.Json.Record
import BlockGraph.Proofs.Json.Keep
import BlockGraph.Proofs.Json.Text

/-!
# Codecs that read what they write

A codec returns a value if it reads it back from the document of what it writes. Scalars are returned
within their ranges, containers where their parts are, and a record where its fields are, if these have
different names.

* `Codec.Returns`, with one lemma for each codec.
* `Fields.Each`, `Fields.returns` — records.
* `Fields.Writes`, `Fields.write_fits`, `Fields.write_words` — records that can be kept, and records with
  no numbers but integers of 64 bits, again with one lemma for each codec.
* `Fields.Yields`, `Fields.yields_of_read` — where the fields of a record that was read come from.
-/

namespace BlockGraph

/-- The codec reads back what it writes of a value. -/
def Codec.Returns {α : Type} (c : Codec α) (r : Reading) (a : α) : Prop :=
  c.read r (c.write a).toDoc = .ok a

namespace Codec

variable {α β : Type} {c : Codec α} {r s : Reading}

/-! ## Scalars -/

theorem json_returns {v : Json} (kept : v.Kept r) : json.Returns r v := kept

theorem bool_returns (r : Reading) (b : Bool) : bool.Returns r b := rfl

theorem string_returns (r : Reading) (text : String) : string.Returns r text := rfl

theorem natUpTo_returns {limit n : Nat} (r : Reading) (within : n ≤ limit) :
    (natUpTo limit).Returns r n := by
  have range : (0 ≤ (n : Int) && (n : Int) ≤ limit) = true := by simpa using within
  exact if_pos range

theorem nat_returns {n : Nat} (r : Reading) (within : n ≤ Text.maxWord) : nat.Returns r n :=
  natUpTo_returns r within

theorem word64_returns (r : Reading) (n : UInt64) : word64.Returns r n := by
  have within : n.toNat ≤ Text.maxWord := Nat.le_of_lt_succ n.toNat_lt
  have inner : nat.read r (nat.write n.toNat).toDoc = .ok n.toNat := nat_returns r within
  show nat.read r (nat.write n.toNat).toDoc >>= _ = _
  rw [inner]
  exact congrArg Except.ok (UInt64.ofNat_toNat ..)

theorem word32_returns (r : Reading) (n : UInt32) : word32.Returns r n := by
  have within : n.toNat ≤ 0xFFFFFFFF := Nat.le_of_lt_succ n.toNat_lt
  have inner : (natUpTo 0xFFFFFFFF).read r ((natUpTo 0xFFFFFFFF).write n.toNat).toDoc = .ok n.toNat :=
    natUpTo_returns r within
  show (natUpTo 0xFFFFFFFF).read r ((natUpTo 0xFFFFFFFF).write n.toNat).toDoc >>= _ = _
  rw [inner]
  exact congrArg Except.ok (UInt32.ofNat_toNat ..)

/-- A form from which the value is found again. -/
theorem map_returns {form : β → α} {ofForm : α → Except Fault β} {b : β} (inner : c.Returns r (form b))
    (found : ofForm (form b) = .ok b) : (c.map form ofForm).Returns r b := by
  show c.read r (c.write (form b)).toDoc >>= ofForm = _
  rw [show c.read r (c.write (form b)).toDoc = .ok (form b) from inner]
  exact found

/-! ## Containers -/

/-- A value that is not written as `null` is not taken for none. -/
theorem option_returns_some {a : α} (solid : (c.write a).toDoc ≠ .null) (inner : c.Returns r a) :
    c.option.Returns r (some a) := by
  have read : c.option.read r (c.write a).toDoc = some <$> c.read r (c.write a).toDoc := by
    unfold option
    dsimp only
    split
    next null => exact absurd null solid
    next => rfl
  show c.option.read r (c.write a).toDoc = _
  rw [read, show c.read r (c.write a).toDoc = .ok a from inner]
  rfl

theorem option_returns {o : Option α} (solid : ∀ a, (c.write a).toDoc ≠ .null)
    (inner : ∀ a, c.Returns r a) : c.option.Returns r o := by
  cases o with
  | none => rfl
  | some a => exact option_returns_some (solid a) (inner a)

/-- A field that is left out if there is nothing in it. -/
theorem optional_returns {o : Option α} (solid : ∀ a, (c.write a).toDoc ≠ .null)
    (inner : ∀ a, c.Returns r a) :
    if Option.isNone o then some none = some o else c.option.Returns r o := by
  cases o with
  | none => rfl
  | some a => exact option_returns_some (solid a) (inner a)

theorem list_returns {as : List α} (entered : r.enter = .ok s) (inner : ∀ a ∈ as, c.Returns s a) :
    (list c).Returns r as := by
  have items : ((as.map c.write).map Json.toDoc).mapM (c.read s) = .ok as := by
    induction as with
    | nil => rfl
    | cons a as ih =>
      have first : c.read s (c.write a).toDoc = .ok a := inner a List.mem_cons_self
      have rest := ih fun b member => inner b (List.mem_cons_of_mem a member)
      simp only [List.map_cons, List.mapM_cons, first, rest, bind, Except.bind, pure, Except.pure]
  show (list c).read r (Json.toDoc (.arr (as.map c.write))) = _
  simp only [Json.toDoc, Json.toDocs_eq, list, entered, Doc.readItems, items, bind, Except.bind, if_true,
    pure, Except.pure]

/-- What a list was read as comes from its items. -/
theorem read_of_mapM {items : List Doc} {as : List α} (all : items.mapM (c.read r) = .ok as) :
    ∀ a ∈ as, ∃ item, c.read r item = .ok a := by
  induction items generalizing as with
  | nil =>
    obtain rfl := Except.ok.inj all
    exact fun _ member => nomatch member
  | cons item items ih =>
    rw [List.mapM_cons] at all
    cases first : c.read r item with
    | error => simp [first, bind, Except.bind] at all
    | ok b =>
      cases rest : items.mapM (c.read r) with
      | error => simp [first, rest, bind, Except.bind] at all
      | ok bs =>
        simp only [first, rest, bind, Except.bind] at all
        obtain rfl := Except.ok.inj all
        exact List.forall_mem_cons.2 ⟨⟨item, first⟩, ih rest⟩

/-- The items of a list that was read have been read, one level down. -/
theorem list_read {doc : Doc} {as : List α} (read : (list c).read r doc = .ok as) :
    ∃ s, r.enter = .ok s ∧ ∀ a ∈ as, ∃ item, c.read s item = .ok a := by
  cases doc with
  | arr items closed =>
    simp only [list, bind, Except.bind] at read
    cases entered : r.enter with
    | error => simp [entered] at read
    | ok s =>
      simp only [entered, Doc.readItems, bind, Except.bind] at read
      cases all : items.mapM (c.read s) with
      | error => simp [all] at read
      | ok bs =>
        simp only [all] at read
        split at read
        · obtain rfl := Except.ok.inj read
          exact ⟨s, rfl, read_of_mapM all⟩
        · cases read
  | null | bool | num | str | obj | broken => cases read

theorem stringSet_returns (entered : r.enter = .ok s) (set : SortedSet String) :
    stringSet.Returns r set :=
  map_returns (list_returns entered fun text _ => string_returns s text)
    (congrArg Except.ok (SortedSet.ofList_keys set))

/-! ## What containers are written as -/

theorem optional_writes {P : Json → Prop} (o : Option α) (each : ∀ a, P (c.write a))
    (shown : Option.isNone o = false) : P (c.option.write o) := by
  cases o with
  | none => cases shown
  | some a => exact each a

theorem list_fits {as : List α} (entered : r.enter = .ok s) (each : ∀ a ∈ as, (c.write a).Fits s) :
    ((list c).write as).Fits r := by
  refine Json.fits_arr entered fun v member => ?_
  obtain ⟨a, listed, rfl⟩ := List.mem_map.1 member
  exact each a listed

theorem list_words {as : List α} (each : ∀ a ∈ as, (c.write a).inWords = true) :
    ((list c).write as).inWords = true := by
  refine Json.allInWords_iff.2 fun v member => ?_
  obtain ⟨a, listed, rfl⟩ := List.mem_map.1 member
  exact each a listed

theorem stringSet_fits (entered : r.enter = .ok s) (set : SortedSet String) :
    (stringSet.write set).Fits r :=
  list_fits (c := string) entered fun text _ => ⟨.str text, rfl⟩

theorem stringSet_words (set : SortedSet String) : (stringSet.write set).inWords = true :=
  list_words (c := string) fun _ _ => rfl

end Codec

/-! ## Records -/

namespace Fields

variable {ρ : Type} {r s : Reading}

def names : {γ : Type} → Fields ρ γ → List String
  | _, .done => []
  | _, .cons field rest => field.name :: rest.names

/-- What a function of the fields makes of the fields of a record. -/
def rebuild : {γ : Type} → Fields ρ γ → γ → ρ → ρ
  | _, .done, record, _ => record
  | _, .cons field rest, make, record => rest.rebuild (make (field.get record)) record

/-- Each field of a record is read back from where it is written, or is the one that is meant where it is
not. -/
def Each (r : Reading) : {γ : Type} → Fields ρ γ → ρ → Prop
  | _, .done, _ => True
  | _, .cons field rest, record =>
    (if field.hides (field.get record) then field.absent = some (field.get record)
      else field.codec.Returns r (field.get record)) ∧ rest.Each r record

/-- The slots of a record that was written. -/
def slots : {γ : Type} → (fs : Fields ρ γ) → ρ → Slots fs
  | _, .done, _ => ()
  | _, .cons field rest, record =>
    (if field.hides (field.get record) then none else some (field.get record), rest.slots record)

theorem members_names {γ : Type} (fs : Fields ρ γ) (record : ρ) {member : String × Json}
    (listed : member ∈ fs.members record) : member.1 ∈ fs.names := by
  induction fs with
  | done => cases listed
  | cons field rest ih =>
    rw [members] at listed
    split at listed
    · exact List.mem_cons_of_mem _ (ih listed)
    · rcases List.mem_cons.1 listed with rfl | later
      · exact List.mem_cons_self
      · exact List.mem_cons_of_mem _ (ih later)

/-- Each field that is written is written as a value with a property. -/
def Writes (P : Json → Prop) : {γ : Type} → Fields ρ γ → ρ → Prop
  | _, .done, _ => True
  | _, .cons field rest, record =>
    (field.hides (field.get record) = false → P (field.codec.write (field.get record))) ∧
      rest.Writes P record

theorem members_write {P : Json → Prop} {γ : Type} {fs : Fields ρ γ} {record : ρ}
    (writes : fs.Writes P record) : ∀ m ∈ fs.members record, P m.2 := by
  induction fs with
  | done => exact fun _ listed => nomatch listed
  | cons field rest ih =>
    intro m listed
    rw [members] at listed
    split at listed
    · exact ih writes.2 m listed
    next shown =>
      rcases List.mem_cons.1 listed with rfl | later
      · exact writes.1 (by simpa using shown)
      · exact ih writes.2 m later

/-- A record can be kept if its fields can, one level down. -/
theorem write_fits {γ : Type} {fs : Fields ρ γ} {make : γ} {record : ρ} (entered : r.enter = .ok s)
    (writes : fs.Writes (·.Fits s) record) : ((fs.codec make).write record).Fits r :=
  Json.fits_obj entered (members_write (P := (·.Fits s)) writes)

theorem write_words {γ : Type} {fs : Fields ρ γ} {make : γ} {record : ρ}
    (writes : fs.Writes (·.inWords = true) record) : ((fs.codec make).write record).inWords = true :=
  Json.membersInWords_iff.2 (members_write (P := (·.inWords = true)) writes)

/-- A field has no part in members of other names. -/
theorem acceptAll_others {α β : Type} (field : Field ρ α) (rest : Fields ρ β) (slot : Option α)
    (members : List (Option String × Doc)) (others : ∀ m ∈ members, m.1 ≠ some field.name)
    (taken : Slots rest) :
    (Fields.cons field rest).acceptAll r members (slot, taken) =
      (rest.acceptAll r members taken).map fun taken => (slot, taken) := by
  induction members generalizing taken with
  | nil => rfl
  | cons m members ih =>
    obtain ⟨key, doc⟩ := m
    have later := fun taken => ih (fun n listed => others n (List.mem_cons_of_mem _ listed)) taken
    cases key with
    | none => rfl
    | some key =>
      have other : key ≠ field.name := fun same => others _ List.mem_cons_self (congrArg some same)
      simp only [acceptAll, accept, Doc.key, Option.elim_some, if_neg other, bind, Except.bind]
      cases rest.accept r key doc taken with
      | none =>
        simp only [Option.map_none]
        split
        · exact later taken
        · rfl
      | some result =>
        cases result with
        | error => rfl
        | ok taken => exact later taken

/-- The members of a record that was written fill the slots of the fields. -/
theorem acceptAll_members {γ : Type} (fs : Fields ρ γ) (distinct : fs.names.Nodup) {record : ρ}
    (each : fs.Each r record) :
    fs.acceptAll r (Json.toDocMembers (fs.members record)) fs.noSlots = .ok (fs.slots record) := by
  induction fs with
  | done => rfl
  | cons field rest ih =>
    obtain ⟨fresh, distinct⟩ := List.nodup_cons.1 distinct
    obtain ⟨here, each⟩ := each
    have others : ∀ m ∈ Json.toDocMembers (rest.members record), m.1 ≠ some field.name := by
      intro m listed same
      rw [Json.toDocMembers_eq] at listed
      obtain ⟨n, written, rfl⟩ := List.mem_map.1 listed
      exact fresh (Option.some.inj same ▸ rest.members_names record written)
    -- The first member fills the first slot, and the others pass it by.
    simp only [members, noSlots, slots]
    split
    next hidden => rw [acceptAll_others field rest none _ others, ih distinct each]; rfl
    next shown =>
      rw [if_neg shown] at here
      have read : field.codec.read r (field.codec.write (field.get record)).toDoc =
        .ok (field.get record) := here
      simp only [Json.toDocMembers, acceptAll, accept, Doc.key, Option.elim_some, if_true,
        Option.isSome_none, Bool.false_eq_true, if_false, read, bind, Except.bind, Except.map]
      rw [acceptAll_others field rest _ _ others, ih distinct each]
      rfl

theorem finish_slots {γ : Type} (fs : Fields ρ γ) (make : γ) {record : ρ} (each : fs.Each r record) :
    fs.finish (fs.slots record) make = .ok (fs.rebuild make record) := by
  induction fs with
  | done => rfl
  | cons field rest ih =>
    obtain ⟨here, each⟩ := each
    simp only [slots, finish]
    split at here
    next hidden =>
      rw [if_pos hidden, Option.none_or, here]
      exact ih _ each
    next shown =>
      rw [if_neg shown]
      exact ih _ each

/-- A record is read back if its fields are, and if these have different names. -/
theorem returns {γ : Type} {fs : Fields ρ γ} {make : γ} {record : ρ} (distinct : fs.names.Nodup)
    (entered : r.enter = .ok s) (whole : fs.rebuild make record = record) (each : fs.Each s record) :
    (fs.codec make).Returns r record := by
  show fs.read make r (Json.toDoc (.obj (fs.members record))) = _
  simp only [Json.toDoc, read, entered, acceptAll_members fs distinct each, bind, Except.bind, if_true,
    finish_slots fs make each, whole]

/-! ## Records that were read -/

end Fields

/-- A value that a field may have in a record that was read. -/
def Field.Gives {ρ α : Type} (field : Field ρ α) (r : Reading) (a : α) : Prop :=
  (∃ doc, field.codec.read r doc = .ok a) ∨ field.absent = some a ∨ field.short = some a

namespace Fields

variable {ρ : Type} {r s : Reading}

/-- What a function makes of values that the fields may have. -/
def Yields (r : Reading) : {γ : Type} → Fields ρ γ → γ → ρ → Prop
  | _, .done, made, record => made = record
  | _, .cons field rest, make, record => ∃ a, field.Gives r a ∧ rest.Yields r (make a) record

/-- Slots that hold what was read. -/
def Filled (r : Reading) : {γ : Type} → (fs : Fields ρ γ) → Slots fs → Prop
  | _, .done, _ => True
  | _, .cons field rest, taken =>
    (∀ a, taken.1 = some a → ∃ doc, field.codec.read r doc = .ok a) ∧ rest.Filled r taken.2

theorem filled_noSlots {γ : Type} (fs : Fields ρ γ) : fs.Filled r fs.noSlots := by
  induction fs with
  | done => trivial
  | cons field rest ih => exact ⟨fun _ none => (nomatch none), ih⟩

theorem Filled.accept {γ : Type} {fs : Fields ρ γ} {key : String} {doc : Doc} {taken after : Slots fs}
    (filled : fs.Filled r taken) (accepted : fs.accept r key doc taken = some (.ok after)) :
    fs.Filled r after := by
  induction fs with
  | done => cases accepted
  | cons field rest ih =>
    obtain ⟨slot, slots⟩ := taken
    obtain ⟨here, further⟩ := filled
    simp only [Fields.accept] at accepted
    split at accepted
    · split at accepted
      · cases accepted
      · cases read : field.codec.read r doc with
        | error => simp [read, Except.map] at accepted
        | ok a =>
          simp only [read, Except.map, Option.some.injEq] at accepted
          obtain rfl := Except.ok.inj accepted
          exact ⟨fun b same => ⟨doc, Option.some.inj same ▸ read⟩, further⟩
    · cases inner : rest.accept r key doc slots with
      | none => simp [inner] at accepted
      | some result =>
        cases result with
        | error => simp [inner, Except.map] at accepted
        | ok next =>
          simp only [inner, Except.map, Option.map_some, Option.some.injEq] at accepted
          obtain rfl := Except.ok.inj accepted
          exact ⟨here, ih further inner⟩

theorem Filled.acceptAll {γ : Type} {fs : Fields ρ γ} {members : List (Option String × Doc)}
    {taken after : Slots fs} (filled : fs.Filled r taken)
    (accepted : fs.acceptAll r members taken = .ok after) : fs.Filled r after := by
  induction members generalizing taken with
  | nil => exact Except.ok.inj accepted ▸ filled
  | cons m members ih =>
    obtain ⟨key, doc⟩ := m
    cases key with
    | none => cases accepted
    | some key =>
      simp only [Fields.acceptAll, Doc.key, Option.elim_some, bind, Except.bind] at accepted
      cases first : fs.accept r key doc taken with
      | none =>
        simp only [first] at accepted
        split at accepted
        · exact ih filled accepted
        · cases accepted
      | some result =>
        cases result with
        | error => simp [first] at accepted
        | ok next =>
          simp only [first] at accepted
          exact ih (filled.accept first) accepted

theorem yields_of_finish {γ : Type} {fs : Fields ρ γ} {make : γ} {taken : Slots fs} {record : ρ}
    (filled : fs.Filled r taken) (finished : fs.finish taken make = .ok record) :
    fs.Yields r make record := by
  induction fs with
  | done => exact Except.ok.inj finished
  | cons field rest ih =>
    obtain ⟨slot, slots⟩ := taken
    obtain ⟨here, further⟩ := filled
    simp only [finish] at finished
    cases slot with
    | some a => exact ⟨a, .inl (here a rfl), ih further finished⟩
    | none =>
      cases absent : field.absent with
      | none => simp [absent] at finished
      | some a =>
        simp only [absent, Option.none_or] at finished
        exact ⟨a, .inr (.inl absent), ih further finished⟩

theorem yields_of_positional {γ : Type} {fs : Fields ρ γ} {make : γ} {items : List Doc} {closed : Bool}
    {record : ρ} (read : fs.positional r items closed make = .ok record) : fs.Yields r make record := by
  induction fs generalizing items with
  | done =>
    simp only [positional] at read
    split at read
    · cases read
    · split at read
      · exact Except.ok.inj read
      · cases read
  | cons field rest ih =>
    cases items with
    | nil =>
      simp only [positional] at read
      split at read
      · cases read
      · cases short : field.short with
        | none => simp [short] at read
        | some a =>
          simp only [short] at read
          exact ⟨a, .inr (.inr short), ih read⟩
    | cons item items =>
      simp only [positional] at read
      cases first : field.codec.read r item with
      | error => simp [first, bind, Except.bind] at read
      | ok a =>
        simp only [first, bind, Except.bind] at read
        exact ⟨a, .inl ⟨item, first⟩, ih read⟩

/-- The fields of a record that was read have been read, or were missing. -/
theorem yields_of_read {γ : Type} {fs : Fields ρ γ} {make : γ} {doc : Doc} {record : ρ}
    (read : fs.read make r doc = .ok record) :
    ∃ s, r.enter = .ok s ∧ fs.Yields s make record := by
  cases doc with
  | obj members closed =>
    simp only [Fields.read, bind, Except.bind] at read
    cases entered : r.enter with
    | error => simp [entered] at read
    | ok s =>
      simp only [entered] at read
      cases accepted : fs.acceptAll s members fs.noSlots with
      | error => simp [accepted] at read
      | ok taken =>
        simp only [accepted] at read
        split at read
        · exact ⟨s, rfl, yields_of_finish (fs.filled_noSlots.acceptAll accepted) read⟩
        · cases read
  | arr items closed =>
    -- A record may also come as an array of its fields.
    simp only [Fields.read, bind, Except.bind] at read
    cases entered : r.enter with
    | error => simp [entered] at read
    | ok s =>
      simp only [entered] at read
      exact ⟨s, rfl, yields_of_positional read⟩
  | null | bool | num | str | broken => cases read

end Fields

end BlockGraph
