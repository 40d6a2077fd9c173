import BlockGraph.Proofs.Aggregator.Archive
import BlockGraph.Proofs.Aggregator.Lifecycle
import BlockGraph.Proofs.Text.Spelling

/-!
# How a source is addressed

A call that adds a source trims its name, and so all names in the registry are trimmed. The other calls
look for the name as it is given to them. Under the trimmed name they all find the source that was added;
under any other spelling of it they find none, though the source is running and cannot be added again.

* `Spelled` — all names in the registry are trimmed, kept by every incident.
* `Serves`, `Ignores` — what the calls for a name do: they find a source that has just been added, or
  none at all.
* `addSource_addressed` — which spellings of a source that has just been added are served;
  `addSource_unaddressed` — a source that the caller who has added it cannot stop.
-/

namespace BlockGraph.Aggregator

variable {a : Aggregator} {name id : String}

/-! ## The names in the registry -/

/-- All sources are registered under trimmed names. -/
def Spelled (a : Aggregator) : Prop := ∀ id s, a.sources.get? id = some s → Text.trim id = id

namespace Spelled

theorem ofEngine (settings : Settings) (feed : Feed) (e : Engine) : (ofEngine settings feed e).Spelled :=
  fun _ _ found => nomatch found

variable (spelled : a.Spelled) (governed : a.Governed)
include spelled governed

theorem incur (i : Incident) : (a.incur i).Spelled := by
  intro id t after
  cases governed.effect i with
  | aside aside => exact spelled id t (aside.sources ▸ after)
  | became own s u found _ _ sources =>
    rw [sources] at after
    split at after
    next same => exact same ▸ spelled own s found
    next => exact spelled id t after
  | removed own _ sources =>
    rw [sources] at after
    split at after
    next => cases after
    next => exact spelled id t after
  | added own u registers _ sources =>
    rw [sources] at after
    split at after
    next same =>
      obtain ⟨name, trimmed, _⟩ := registers?_cases registers
      rw [same, ← trimmed, Text.trim_trim]
    next => exact spelled id t after
  | stopped _ _ sources =>
    rw [sources] at after
    obtain ⟨s, before, _⟩ := Option.map_eq_some_iff.1 after
    exact spelled id s before

theorem after (later : List Incident) : (a.afterAll later).Spelled := by
  induction later generalizing a with
  | nil => exact spelled
  | cons i later ih => exact ih (spelled.incur governed i) (governed.incur i)

end Spelled

/-! ## What the calls for a name find -/

/-- The calls for a name find a source that has just been added. -/
structure Serves (a : Aggregator) (id : String) : Prop where
  status : a.status? id = some ⟨id, true, 0, none, .running⟩
  /-- A header of a new hash is applied, and the first event is that of its block. -/
  fed : ∀ header, header.isBlank = false → a.engine.store.contains header.hash = false →
    a.settings.eventCap ≠ some 0 →
      (a.onHeader id header).1.engine = a.engine.applied id header ∧
        ∃ block events, (a.onHeader id header).2 = .ok (.nodeAdded block :: events) ∧
          block.hash = header.hash ∧
          (a.onHeader id header).1.engine.store.byHash? header.hash = some block
  stopped : (a.stopSource id).2 = true
  removed : (a.removeSource id).2 = true

/-- The calls for a name find no source, and change nothing. -/
structure Ignores (a : Aggregator) (id : String) : Prop where
  status : a.status? id = none
  fed : ∀ header, a.onHeader id header = (a, .ok [])
  stopped : a.stopSource id = (a, false)
  removed : a.removeSource id = (a, false)

theorem onHeader_new {generation : Nat} (found : a.sources.get? id = some (.new id generation))
    (cap : a.settings.eventCap ≠ some 0) {header : Header} {engine : Engine} {events : List DiffEvent}
    (applied : a.engine.apply id header = .ok (engine, events)) :
    (a.onHeader id header).1.engine = engine ∧ (a.onHeader id header).2 = .ok events := by
  have accepts : (Source.new id generation).accepts none = true := rfl
  have room : (Source.new id generation).isFull a.settings.eventCap = false := by
    cases limit : a.settings.eventCap with
    | none => rfl
    | some n =>
      have some : n ≠ 0 := fun zero => cap (limit.trans (congrArg _ zero))
      simp [Source.isFull, Source.new, some]
  simp [onHeader, ingest, found, accepts, room, applied, bind, Except.bind, pure, Except.pure,
    setAndPublish, publishStatus, setSource]

theorem Serves.of_new (valid : a.engine.store.Valid) {generation : Nat}
    (found : a.sources.get? id = some (.new id generation)) : a.Serves id where
  status := by rw [status?, found]; rfl
  fed header named absent cap := by
    have fresh := valid.not_mem_hashes.1 absent
    have applied := @Engine.apply_new a.engine id header valid fresh named
    obtain ⟨engine, events⟩ := onHeader_new found cap applied
    refine ⟨?_, _, _, events, rfl, ?_⟩
    · rw [engine, Engine.applied, applied]
    · rw [engine]
      exact Engine.byHash?_settledStore valid fresh
  stopped := by simp [stopSource, found, Source.new]
  removed := by simp [removeSource, found]

theorem Ignores.of_none (absent : a.sources.get? id = none) : a.Ignores id where
  status := by rw [status?, absent]; rfl
  fed header := by simp [onHeader, ingest, absent]
  stopped := by simp [stopSource, absent]
  removed := by simp [removeSource, absent]

/-! ## Adding a source -/

theorem addSource_eq_true (added : (a.addSource name).2 = .ok true) :
    a.mayAdd name = true ∧ ∃ feed line, (a.addSource name).1 = a.begun (Text.trim name) feed line := by
  by_cases blank : Text.trim name = ""
  · simp [addSource, blank] at added
  cases down : a.isDown with
  | true => simp [addSource, blank, down] at added
  | false =>
    cases active : (a.sources.get? (Text.trim name)).any (·.active) with
    | true => simp [addSource, blank, down, active] at added
    | false =>
      refine ⟨mayAdd_iff.2 ⟨blank, down, active⟩, ?_⟩
      cases subscribed : a.feed.subscribe (Text.trim name) with
      | ok granted =>
        obtain ⟨feed, line⟩ := granted
        exact ⟨feed, line, by rw [addSource_begun blank down active subscribed]⟩
      | error error =>
        rw [addSource_refused blank down active subscribed] at added
        cases added

theorem addSource_active (blank : Text.trim name ≠ "") (up : a.isDown = false) {s : Source}
    (found : a.sources.get? (Text.trim name) = some s) (active : s.active = true) :
    a.addSource name = (a, .ok false) := by
  simp [addSource, blank, up, found, active]

theorem Spelled.addressed (spelled : a.Spelled) (governed : a.Governed) (valid : a.engine.store.Valid)
    (added : (a.addSource name).2 = .ok true) :
    (a.addSource name).1.Serves (Text.trim name) ∧
      ∀ other, Text.trim other = Text.trim name → ((a.addSource name).1.addSource other).2 = .ok false ∧
        (other ≠ Text.trim name → (a.addSource name).1.Ignores other) := by
  -- The call is one more incident, so the names are still trimmed.
  have trimmed : (a.addSource name).1.Spelled := spelled.incur governed (.move (.add name))
  obtain ⟨may, feed, line, after⟩ := addSource_eq_true added
  obtain ⟨blank, up, _⟩ := mayAdd_iff.1 may
  have same : (a.addSource name).1.engine = a.engine := by rw [after]; rfl
  have running : (a.addSource name).1.isDown = false := by rw [after]; exact up
  have found : (a.addSource name).1.sources.get? (Text.trim name) =
      some (.new (Text.trim name) (a.lastGeneration + 1)) := by
    rw [after]
    exact SortedMap.get?_insert_self ..
  refine ⟨.of_new (same ▸ valid) found, fun other spells => ⟨?_, fun differs => ?_⟩⟩
  · rw [← spells] at blank
    have again := addSource_active blank running ((congrArg _ spells).trans found) rfl
    rw [again]
  · refine .of_none (Option.eq_none_iff_forall_ne_some.2 fun s registered => ?_)
    exact differs ((trimmed other s registered).symm.trans spells)

/-- Around any feed and any engine, whatever has happened in whatever order: when a source has just been
added, all calls for its trimmed name find it. Under every spelling of that name it is active already, but
only the trimmed one is found by the other calls. -/
theorem addSource_addressed (settings : Settings) (feed : Feed) {e : Engine} (grown : e.Grown)
    (incidents : List Incident) (name : String)
    (added : (((ofEngine settings feed e).afterAll incidents).addSource name).2 = .ok true) :
    let a := (((ofEngine settings feed e).afterAll incidents).addSource name).1
    a.Serves (Text.trim name) ∧
      ∀ other, Text.trim other = Text.trim name →
        (a.addSource other).2 = .ok false ∧ (other ≠ Text.trim name → a.Ignores other) := by
  have governed : (ofEngine settings feed e).Governed := .ofEngine ..
  have valid := (afterAll_grown (a := ofEngine settings feed e) grown incidents).valid
  exact ((Spelled.ofEngine settings feed e).after governed incidents).addressed (governed.after incidents) valid added

/-- A source that was removed is added again, around an engine with a block. -/
theorem addSource_addressed_again :
    let store := (BlockStore.new .standard .childOnly).inserted ⟨"b", .new 1 "0x1" "0x0"⟩
    let incidents : List Incident :=
      [.move (.add "a"), .move (.onHeader "a" (.new 1 "0x1" "0x0")), .move (.remove "a")]
    let a := (ofEngine .standard (.channel (.new 4)) (.ofStore store)).afterAll incidents
    (Engine.ofStore store).Grown ∧ (a.addSource "\ta ").2 = .ok true ∧
      Text.trim "\ta " = "a" ∧ (a.addSource "\ta ").1.Serves "a" ∧
      ((a.addSource "\ta ").1.addSource " a").2 = .ok false ∧
      (a.addSource "\ta ").1.Ignores "\ta " := by
  intro store incidents a
  have built : (Engine.ofStore store).Built := .ofStore (.inserted _ (.new ..))
  have answer : (a.addSource "\ta ").2.toOption = some true := by decide +kernel
  have added : (a.addSource "\ta ").2 = .ok true := by
    cases result : (a.addSource "\ta ").2 with
    | ok active => rw [result] at answer; exact congrArg _ (Option.some.inj answer)
    | error => rw [result] at answer; cases answer
  have trimmed : Text.trim "\ta " = "a" := by decide +kernel
  obtain ⟨serves, spellings⟩ :=
    addSource_addressed .standard (.channel (.new 4)) built.grown incidents "\ta " added
  exact ⟨built.grown, added, trimmed, trimmed ▸ serves, (spellings " a" (by decide +kernel)).1,
    (spellings "\ta " rfl).2 (by decide +kernel)⟩

/-- The caller who has added a source under another spelling than the trimmed one neither sees it, nor
stops it, nor removes it; and what it tells for the source is dropped. -/
theorem addSource_unaddressed :
    let a := (new .standard (.channel (.new 4))).act (.add " a ")
    let header : Header := .new 1 "0x1" "0x0"
    ((new .standard (.channel (.new 4))).addSource " a ").2.toOption = some true ∧
      a.activeCount = 1 ∧ a.status? " a " = none ∧ (a.stopSource " a ").2 = false ∧
      (a.removeSource " a ").2 = false ∧ (a.onHeader " a " header).2.toOption = some [] ∧
      (a.onHeader " a " header).1.engine.store.contains "0x1" = false := by
  decide +kernel

end BlockGraph.Aggregator
