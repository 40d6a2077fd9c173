import BlockGraph.Proofs.Engine.Convergence
import BlockGraph.Proofs.Store.Reports

/-!
# Redundant headers

A header with a blank hash is refused, and one whose hash its source has sent before tells nothing new,
whatever else it says. An engine that receives such headers among others becomes the engine that does
not receive them. Only the warnings tell the two apart: a repeated header that contradicts the stored
height leaves one behind.

* `essential`, `repeated` — the headers that count, and those whose source has sent their hash before.
* `Engine.unwarned` — an engine without its warnings; a cycle does not look at them (`applied_unwarned`).
* `applied_repeated` — a repeated header changes nothing but the warnings.
* `appliedAll_essential` — the engines with and without redundant headers.
-/

namespace BlockGraph

/-! ## Repeated headers -/

/-- Whether the source of a header has sent its hash before. -/
def Announcement.repeats (before : List Announcement) (a : Announcement) : Bool :=
  before.any fun b => b.source == a.source && b.header.hash == a.header.hash

/-- The headers that pass a test, which sees the headers before each of them. -/
def sifted (test : List Announcement → Announcement → Bool) (before : List Announcement) :
    List Announcement → List Announcement
  | [] => []
  | a :: told =>
    if test before a then a :: sifted test (before ++ [a]) told
    else sifted test (before ++ [a]) told

/-- The headers with a hash that their source has not sent before. -/
def essential (told : List Announcement) : List Announcement :=
  sifted (fun before a => !a.header.isBlank && !a.repeats before) [] told

/-- The headers with a hash that their source has sent before. -/
def repeated (told : List Announcement) : List Announcement :=
  sifted (fun before a => !a.header.isBlank && a.repeats before) [] told

section
variable {p : Announcement → Bool} {q : List Announcement → Announcement → Bool}
  {before told : List Announcement}

theorem sifted_sublist :
    (sifted (fun before a => p a && q before a) before told).Sublist (told.filter p) := by
  induction told generalizing before with
  | nil => exact .slnil
  | cons a told ih =>
    rw [sifted, List.filter_cons]
    cases p a with
    | false => simpa using ih
    | true =>
      cases q before a with
      | true => exact ih.cons_cons a
      | false => exact ih.cons a

/-- Every header that passes one test passes one of two others, if these differ in a condition. -/
theorem sifted_perm : (told.filter p).Perm (sifted (fun before a => p a && !q before a) before told ++
    sifted (fun before a => p a && q before a) before told) := by
  induction told generalizing before with
  | nil => exact .nil
  | cons a told ih =>
    rw [sifted, sifted, List.filter_cons]
    cases p a with
    | false => simpa using ih
    | true =>
      cases q before a with
      | false => exact ih.cons a
      | true => exact (ih.cons a).trans List.perm_middle.symm

end

theorem essential_sublist (told : List Announcement) :
    (essential told).Sublist (BlockStore.admitted told) := sifted_sublist

theorem admitted_essential (told : List Announcement) :
    BlockStore.admitted (essential told) = essential told :=
  List.filter_eq_self.2 fun _ member => (List.mem_filter.1 ((essential_sublist told).subset member)).2

theorem admitted_perm (told : List Announcement) :
    (BlockStore.admitted told).Perm (essential told ++ repeated told) := sifted_perm

theorem Announcement.repeats_eq_false {before : List Announcement} {a : Announcement}
    (unheard : ∀ b ∈ before, b.header.isBlank = false → b.header.hash ≠ a.header.hash)
    (named : a.header.isBlank = false) : a.repeats before = false := by
  simp only [repeats, List.any_eq_false, Bool.and_eq_true, beq_iff_eq, not_and]
  intro b member _ same
  have namedToo : b.header.isBlank = false := by rw [Header.isBlank, same, ← Header.isBlank, named]
  exact unheard b member namedToo same

/-- The first header of a hash repeats none, so it is essential. -/
theorem find?_sifted (told before : List Announcement) (hash : String)
    (unheard : ∀ b ∈ before, b.header.isBlank = false → b.header.hash ≠ hash) :
    (sifted (fun before a => !a.header.isBlank && !a.repeats before) before told).find?
        (·.header.hash == hash) =
      (BlockStore.admitted told).find? (·.header.hash == hash) := by
  induction told generalizing before with
  | nil => rfl
  | cons a told ih =>
    rw [sifted, BlockStore.admitted, List.filter_cons]
    cases blank : a.header.isBlank with
    | true =>
      refine ih (before ++ [a]) fun b member named => ?_
      rcases List.mem_append.1 member with old | new
      · exact unheard b old named
      · rw [List.mem_singleton.1 new, blank] at named
        cases named
    | false =>
      by_cases own : a.header.hash = hash
      · have fresh := Announcement.repeats_eq_false (own.symm ▸ unheard) blank
        simp [fresh, own]
      · have rest := ih (before ++ [a]) fun b member named => by
          rcases List.mem_append.1 member with old | new
          · exact unheard b old named
          · rwa [List.mem_singleton.1 new]
        rw [if_pos (show (!false) = true from rfl), List.find?_cons_of_neg (by simpa using own)]
        split
        · rw [List.find?_cons_of_neg (by simpa using own)]
          exact rest
        · exact rest

theorem first?_essential (told : List Announcement) (hash : String) :
    Reference.first? (essential told) hash = Reference.first? (BlockStore.admitted told) hash :=
  congrArg (Option.map (·.header)) (find?_sifted told [] hash fun _ member => nomatch member)

/-! ## Warnings -/

namespace BlockStore

variable {s : BlockStore} {as : List Announcement}

/-- What a header warns of, seen from a store that has its hash. -/
def warningOf? (s : BlockStore) (a : Announcement) : Option IntegrityWarning :=
  (s.byHash? a.header.hash).bind fun known => heightWarning? known a.header a.source

/-- The store has the first height of each hash. -/
theorem Refines.warningOf? (refines : s.Refines as) (a : Announcement) :
    Reference.warning? as a = s.warningOf? a := by
  unfold Reference.warning? BlockStore.warningOf?
  cases found : s.byHash? a.header.hash with
  | some known =>
    obtain ⟨stored, hash⟩ := refines.valid.byHash?_eq_some.1 found
    have height := refines.first_height stored
    rw [hash] at height
    obtain ⟨header, first, number⟩ := Option.map_eq_some_iff.1 height
    rw [first, Option.bind_some, heightWarning?, ← number, hash]
    rfl
  | none =>
    have unheard : Reference.first? as a.header.hash = none := by
      rw [← Option.not_isSome_iff_eq_none, Reference.first?_isSome, ← refines.mem_hashes]
      exact refines.valid.byHash?_eq_none.1 found
    rw [unheard]
    rfl

theorem warningOf?_plain (s : BlockStore) (a : Announcement) : s.plain.warningOf? a = s.warningOf? a := by
  rw [warningOf?, warningOf?, byHash?_plain]
  cases s.byHash? a.header.hash <;> rfl

end BlockStore

/-! ## One cycle -/

namespace BlockStore

variable {s : BlockStore}

/-- The store without its warnings. -/
def unwarned (s : BlockStore) : BlockStore := { s with warnings := [] }

theorem unwarned_valid : s.unwarned.Valid ↔ s.Valid := by
  have same : s.unwarned.bare = s.bare := rfl
  rw [← valid_bare, same, valid_bare]

theorem insertNew_unwarned (s : BlockStore) (header : Header) (source : String) :
    (s.unwarned.insertNew header source).1 = (s.insertNew header source).1.unwarned := by
  rw [insertNew_eq, insertNew_eq]
  rfl

theorem modify_unwarned (s : BlockStore) (hash : String) (f : Block → Block) :
    s.unwarned.modify hash f = (s.modify hash f).unwarned := by
  have indexed : s.unwarned.index = s.index := rfl
  rw [modify, modify, indexed]
  cases s.index.get? hash <;> rfl

end BlockStore

namespace Engine

open BlockStore

variable {e f : Engine} {source : String} {header : Header} {table : SealTable} {policy : EdgePolicy}

/-- The engine without its warnings. -/
def unwarned (e : Engine) : Engine := { e with store := e.store.unwarned }

theorem settled_unwarned (e : Engine) (source : String) (header : Header) :
    (e.unwarned.settledStore source header).unwarned = (e.settledStore source header).unwarned ∧
      e.unwarned.settledEvents source header = e.settledEvents source header := by
  have inserted : e.unwarned.inserted source header = (e.inserted source header).unwarned :=
    e.store.insertNew_unwarned header source
  have block : e.unwarned.settledBlock source header = e.settledBlock source header := by
    rw [settledBlock, settledBlock, inserted]
    rfl
  constructor
  · rw [settledStore, settledStore, inserted, block]
    rfl
  · rw [settledEvents, settledEvents, flipped, flipped, inserted, block]
    rfl

/-- A cycle does not look at the warnings. -/
theorem applied_unwarned (valid : e.store.Valid) (source : String) (header : Header) :
    (e.unwarned.applied source header).unwarned = (e.applied source header).unwarned := by
  cases blank : header.isBlank with
  | true => rw [apply_error _ source header blank, apply_error _ source header blank]; rfl
  | false =>
    cases found : e.store.byHash? header.hash with
    | some known =>
      have foundToo : e.unwarned.store.byHash? header.hash = some known := found
      rw [applied_known blank found, applied_known blank foundToo, mergeKnown_store, mergeKnown_store]
      simp only [unwarned, modify_unwarned]
      rfl
    | none =>
      have fresh := valid.byHash?_eq_none.1 found
      have validToo : e.unwarned.store.Valid := unwarned_valid.2 valid
      obtain ⟨store, told⟩ := e.settled_unwarned source header
      rw [applied_new valid blank fresh, applied_new validToo blank fresh, told]
      exact congrArg (Engine.mk · (e.settledLanes header)
        (e.emitter.emit (e.settledEvents source header))) store

/-- A header that its source repeats changes nothing but the warnings. -/
theorem applied_repeated (valid : e.store.Valid) {known : Block}
    (stored : e.store.byHash? header.hash = some known)
    (reported : SortedMap.contains known.reportingSources source = true) :
    (e.applied source header).unwarned = e.unwarned := by
  cases blank : header.isBlank with
  | true => rw [apply_error e source header blank]
  | false =>
    have silent : mergedEvents known source = [] := if_pos reported
    rw [applied_known blank stored, mergeKnown_store, silent]
    simp only [unwarned, valid.credit_again stored reported]
    rfl

/-! ## Many cycles -/

theorem valid_of_unwarned (valid : e.store.Valid) (same : f.unwarned = e.unwarned) : f.store.Valid := by
  rw [← BlockStore.unwarned_valid] at valid ⊢
  have stores : f.store.unwarned = e.store.unwarned := congrArg Engine.store same
  exact stores ▸ valid

/-- An engine has every header that it has received, for the source of the header. -/
theorem appliedAll_reported {told : List Announcement} {b : Announcement} (member : b ∈ told)
    (named : b.header.isBlank = false) :
    ∃ known, ((Engine.new table policy).appliedAll told).store.byHash? b.header.hash = some known ∧
      SortedMap.contains known.reportingSources b.source = true := by
  have reachable := appliedAll_reachable (Built.new table policy).reachable told
  have refines := (refines_new table policy).insertAll told
  rw [← appliedAll_new_plain] at refines
  have counted : b ∈ [] ++ admitted told := List.mem_filter.2 ⟨member, by simp [named]⟩
  obtain ⟨_, stored, hash, reported⟩ := refines.reported counted
  obtain ⟨known, here, rfl⟩ := List.mem_map.1 stored
  exact ⟨known, reachable.valid.byHash?_eq_some.2 ⟨here, hash⟩, reported⟩

/-- Without the redundant headers that follow, an engine becomes the same. -/
theorem appliedAll_sifted (before told : List Announcement)
    (same : f.unwarned = ((Engine.new table policy).appliedAll before).unwarned) :
    (f.appliedAll (sifted (fun before a => !a.header.isBlank && !a.repeats before) before told)).unwarned =
      ((Engine.new table policy).appliedAll (before ++ told)).unwarned := by
  induction told generalizing before f with
  | nil => rwa [List.append_nil]
  | cons a told ih =>
    have valid := (appliedAll_reachable (Built.new table policy).reachable before).valid
    have next : (Engine.new table policy).appliedAll (before ++ [a]) =
        ((Engine.new table policy).appliedAll before).applied a.source a.header := appliedAll_append ..
    rw [sifted, List.append_cons before a told]
    cases blank : a.header.isBlank with
    | true =>
      refine ih (before ++ [a]) ?_
      rw [same, next, apply_error _ a.source a.header blank]
    | false =>
      cases repeats : a.repeats before with
      | true =>
        refine ih (before ++ [a]) ?_
        obtain ⟨b, member, own⟩ := List.any_eq_true.1 repeats
        obtain ⟨source, hash⟩ := Bool.and_eq_true_iff.1 own
        rw [beq_iff_eq] at source hash
        have named : b.header.isBlank = false := by rw [Header.isBlank, hash, ← Header.isBlank, blank]
        obtain ⟨known, stored, reported⟩ := appliedAll_reported member named
        rw [same, next, applied_repeated valid (hash ▸ stored) (source ▸ reported)]
      | false =>
        refine ih (before ++ [a]) (f := f.applied a.source a.header) ?_
        rw [next, ← applied_unwarned (valid_of_unwarned valid same), same, applied_unwarned valid]

theorem appliedAll_warnings (table : SealTable) (policy : EdgePolicy) (told : List Announcement) :
    ((Engine.new table policy).appliedAll told).store.warnings = Reference.warnings (admitted told) := by
  have refines := (refines_new table policy).insertAll told
  rw [← appliedAll_new_plain] at refines
  exact refines.warnings

/-- Two engines receive the same headers, one of them all and the other one without those that are
redundant. They are the same but for their warnings, and the first one has one more for each repeated
header that gives its hash another height than the stored one. -/
theorem appliedAll_essential (table : SealTable) (policy : EdgePolicy) (told : List Announcement) :
    let all := (Engine.new table policy).appliedAll told
    let few := (Engine.new table policy).appliedAll (essential told)
    few.unwarned = all.unwarned ∧ few.store.warnings.Sublist all.store.warnings ∧
      all.store.warnings.Perm (few.store.warnings ++ (repeated told).filterMap all.store.warningOf?) := by
  intro all few
  -- A header warns of the same in both engines, as they have the same first header of each hash.
  have warns : few.store.warnings = (essential told).filterMap (Reference.warning? (admitted told)) := by
    rw [appliedAll_warnings, admitted_essential, Reference.warnings]
    congr 1
    funext a
    rw [Reference.warning?, Reference.warning?, first?_essential]
  have warnsToo : all.store.warnings = (admitted told).filterMap (Reference.warning? (admitted told)) :=
    appliedAll_warnings table policy told
  have refines := (refines_new table policy).insertAll told
  rw [← appliedAll_new_plain] at refines
  have stored : Reference.warning? (admitted told) = all.store.warningOf? :=
    funext fun a => (refines.warningOf? a).trans (all.store.warningOf?_plain a)
  refine ⟨appliedAll_sifted [] told rfl, ?_, ?_⟩
  · rw [warns, warnsToo]
    exact (essential_sublist told).filterMap _
  · rw [warns, warnsToo, ← stored, ← List.filterMap_append]
    exact (admitted_perm told).filterMap _

/-- A source repeats a hash with another height, another source sends it too, and one hash is blank. -/
example :
    let first : Announcement := ⟨"a", .new 1 "0x1" "0x0"⟩
    let other : Announcement := ⟨"a", .new 2 "0x1" "0x9"⟩
    let second : Announcement := ⟨"b", .new 1 "0x1" "0x0"⟩
    let blank : Announcement := ⟨"b", .new 3 " " "0x0"⟩
    essential [first, other, second, blank, other] = [first, second] ∧
      repeated [first, other, second, blank, other] = [other, other] := by
  decide +kernel

end Engine

end BlockGraph
