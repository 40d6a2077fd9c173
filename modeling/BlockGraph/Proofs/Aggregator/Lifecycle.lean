import BlockGraph.Proofs.Aggregator.Effects
import BlockGraph.Proofs.Aggregator.Flow

/-!
# The life of a source

A source runs until the first thing that ends it: it is stopped, it has had its share, its line ends
or fails, or everything is shut down. From then on its entry stays as it is, whatever is still on its
way for it, until the source is removed or added again; and each time it is added it is a new
incarnation with a generation that was never given before.

A shutdown ends all sources, but it does not keep a call from adding one that has found the aggregator
up before. Such a source is active from then on, and its headers still reach the graph. Without such a
call nothing is active any more, and nothing reaches the graph.

* `Source.Lawful` — what holds of an entry under a cap.
* `Governed`, `Governed.incur` — what holds at any time, kept by every incident.
* `Governed.lasting` — an entry that is over.
* `Governed.active_after`, `Governed.quiet` — where an active source comes from, and what happens while
  there is none.
* `Governed.incur_overtaken` — what may leave a source active while the aggregator is down.
* `Lifecycle`, `afterAll_lifecycle` — the life of all sources, whatever happens in whatever order.
* `shutdown_overtaken` — a source that is registered after the shutdown.
-/

namespace BlockGraph

namespace Source

variable {s t : Source} {cap : Option Nat} {id : String} {generation : Nat}

/-- A source is active as long as it is running, and has had its share exactly if it ended so. -/
structure Lawful (cap : Option Nat) (s : Source) : Prop where
  running : s.active = true ↔ s.state = .running
  within : ∀ n, cap = some n → s.observedCount ≤ n
  reached : ∀ n, cap = some n → 1 ≤ n → (s.observedCount = n ↔ s.state = .capReached)

theorem Fresh.lawful (fresh : t.Fresh id generation) : t.Lawful cap := by
  cases fresh with
  | running => exact ⟨by simp [new], fun n _ => Nat.zero_le n, fun n _ some => by simp [new]; omega⟩
  | failed reason => exact ⟨by simp, fun n _ => Nat.zero_le n, fun n _ some => by simp [new]; omega⟩

theorem Lawful.counted (lawful : s.Lawful cap) (active : s.active = true)
    (room : s.isFull cap = false) (hash : String) : ((s.record hash).capped cap).Lawful cap := by
  have running : s.state = .running := lawful.running.1 active
  cases cap with
  | none =>
    have same : (s.record hash).capped none = s.record hash := rfl
    rw [same]
    exact ⟨lawful.running, fun _ limit => (nomatch limit), fun _ limit => nomatch limit⟩
  | some limit =>
    have before : s.observedCount < limit := by simpa [isFull] using room
    -- The header may be the one that uses up the cap.
    by_cases last : limit ≤ s.observedCount + 1
    · have after : (s.record hash).capped (some limit) =
          { s.record hash with active := false, state := .capReached } := by
        simp [capped, isFull, record, last, deactivate, active]
      rw [after]
      refine ⟨by simp, fun n same => ?_, fun n same _ => ?_⟩
      · obtain rfl := Option.some.inj same
        exact before
      · obtain rfl := Option.some.inj same
        simp only [record, iff_true]
        omega
    · have after : (s.record hash).capped (some limit) = s.record hash := by
        simp [capped, isFull, record, last]
      rw [after]
      refine ⟨lawful.running, fun n same => ?_, fun n same _ => ?_⟩
      · obtain rfl := Option.some.inj same
        exact before
      · obtain rfl := Option.some.inj same
        simp only [record, running, reduceCtorEq, iff_false]
        omega

theorem Lawful.closed (lawful : s.Lawful cap) (active : s.active = true) {state : SourceState}
    (idle : state ≠ .running) (full : state = .capReached → s.isFull cap = true) :
    Lawful cap { s with active := false, state } := by
  have running : s.state = .running := lawful.running.1 active
  refine ⟨by simp [idle], lawful.within, fun n limit some => ?_⟩
  -- An active source has not had its share, unless that is nothing.
  have short : s.observedCount ≠ n := fun all => by
    have capped := (lawful.reached n limit some).1 all
    rw [running] at capped
    cases capped
  have within := lawful.within n limit
  refine ⟨fun all => absurd all short, fun capped => ?_⟩
  have reached : n ≤ s.observedCount := by simpa [isFull, limit] using full capped
  exact absurd (Nat.le_antisymm within reached) short

theorem Lawful.becomes (lawful : s.Lawful cap) (active : s.active = true) (becomes : s.Becomes cap t) :
    t.Lawful cap := by
  cases becomes with
  | counted room hash => exact lawful.counted active room hash
  | closed state idle full => exact lawful.closed active idle full

end Source

namespace Aggregator

variable {a b : Aggregator} {i : Incident} {id : String} {s t : Source} {later : List Incident}

/-! ## What holds at any time -/

/-- The aggregator is down, and a source is active nevertheless. -/
def Overtaken (a : Aggregator) : Prop := a.isDown = true ∧ 0 < a.activeCount

structure Governed (a : Aggregator) : Prop where
  filed : a.Filed
  lawful : ∀ id s, a.sources.get? id = some s → s.Lawful a.settings.eventCap
  known : ∀ id s, a.sources.get? id = some s → s.generation ≤ a.lastGeneration
  fromFeed : a.FromFeed

namespace Governed

theorem ofEngine (settings : Settings) (feed : Feed) (e : Engine) :
    (ofEngine settings feed e).Governed where
  filed := fun _ _ found => nomatch found
  lawful := fun _ _ found => nomatch found
  known := fun _ _ found => nomatch found
  fromFeed := ⟨fun _ member => (nomatch member), fun _ member => nomatch member⟩

variable (governed : a.Governed)
include governed

theorem deed (i : Incident) : Deed a i (a.incur i) := incur_deed governed.filed governed.fromFeed i

theorem effect (i : Incident) : Effect a i (a.incur i) := incur_effect governed.filed governed.fromFeed i

theorem incur (i : Incident) : (a.incur i).Governed where
  filed id t after := by
    cases (governed.effect i).origin after with
    | kept before => exact governed.filed id t before
    | became s before _ becomes => rw [becomes.incarnation.1, governed.filed id s before]
    | added _ fresh => exact fresh.entry.1
  lawful id t after := by
    rw [(governed.effect i).settings]
    cases (governed.effect i).origin after with
    | kept before => exact governed.lawful id t before
    | became s before active becomes => exact (governed.lawful id s before).becomes active becomes
    | added _ fresh => exact fresh.lawful
  known id t after := by
    have grows := (governed.effect i).lastGeneration
    cases (governed.effect i).origin after with
    | kept before => exact Nat.le_trans (governed.known id t before) grows
    | became s before _ becomes =>
      rw [becomes.incarnation.2]
      exact Nat.le_trans (governed.known id s before) grows
    | added _ fresh last => exact Nat.le_of_eq (fresh.entry.2.1.trans last.symm)
  fromFeed := governed.fromFeed.incur governed.filed i

theorem after (later : List Incident) : (a.afterAll later).Governed := by
  induction later generalizing a with
  | nil => exact governed
  | cons i later ih => exact ih (governed.incur i)

theorem grows (later : List Incident) : a.lastGeneration ≤ (a.afterAll later).lastGeneration := by
  induction later generalizing a with
  | nil => exact Nat.le_refl _
  | cons i later ih => exact Nat.le_trans (governed.effect i).lastGeneration (ih (governed.incur i))

/-- An entry that is over stays as it is until it is removed or replaced. -/
theorem lasting (found : a.sources.get? id = some s) (idle : s.active = false)
    (later : List Incident) :
    (a.afterAll later).sources.get? id = some s ∨
      ∃ front i back, later = front ++ i :: back ∧ (a.afterAll front).sources.get? id = some s ∧
        (i = .move (.remove id) ∨ (a.afterAll front).registers? i = some id ∧
          ∃ t, ((a.afterAll front).incur i).sources.get? id = some t ∧ s.generation < t.generation) := by
  induction later generalizing a with
  | nil => exact .inl found
  | cons i later ih =>
    rcases (governed.effect i).fate found idle with stays | removed | ⟨registers, t, there, new⟩
    · rcases ih (governed.incur i) stays with kept | ⟨front, j, back, rfl, there, ended⟩
      · exact .inl kept
      · exact .inr ⟨i :: front, j, back, rfl, there, ended⟩
    · exact .inr ⟨[], i, later, rfl, found, .inl removed⟩
    · have older := governed.known id s found
      exact .inr ⟨[], i, later, rfl, found, .inr ⟨registers, t, there, by omega⟩⟩

/-! ## While no source is active -/

/-- A source that is active was so before, or is registered meanwhile. -/
theorem active_after (later : List Incident) (found : (a.afterAll later).sources.get? id = some t)
    (active : t.active = true) :
    (∃ s, a.sources.get? id = some s ∧ s.active = true ∧ s.generation = t.generation) ∨
      a.lastGeneration < t.generation ∧ ∃ front i back, later = front ++ i :: back ∧
        (a.afterAll front).registers? i = some id := by
  induction later generalizing a with
  | nil => exact .inl ⟨t, found, active, rfl⟩
  | cons i later ih =>
    rcases ih (governed.incur i) found with ⟨s, next, running, same⟩ | ⟨newer, front, j, back, rfl, added⟩
    · cases (governed.effect i).origin next with
      | kept before => exact .inl ⟨s, before, running, same⟩
      | became u before active becomes =>
        exact .inl ⟨u, before, active, becomes.incarnation.2.symm.trans same⟩
      | added registers fresh =>
        have given := fresh.entry.2.1
        exact .inr ⟨by omega, [], i, later, rfl, registers⟩
    · have grows := (governed.effect i).lastGeneration
      exact .inr ⟨by omega, i :: front, j, back, rfl, added⟩

/-- While no source is active, none becomes so unless it is registered, and nothing reaches the graph. -/
theorem incur_quiet (idle : a.activeCount = 0) (barred : a.registers? i = none) :
    (a.incur i).activeCount = 0 ∧ (a.incur i).engine.store = a.engine.store ∧
      (a.incur i).engine.journal = a.engine.journal := by
  have still := activeCount_eq_zero_iff.1 idle
  refine ⟨activeCount_eq_zero_iff.2 fun id t after => ?_, ?_⟩
  · cases (governed.effect i).origin after with
    | kept before => exact still id t before
    | became s before active => exact absurd (still id s before) (by simp [active])
    | added registers => exact absurd registers (by simp [barred])
  · cases governed.effect i with
    | aside aside => exact ⟨aside.store, aside.journal⟩
    | became id s _ found active => exact absurd (still id s found) (by simp [active])
    | removed _ _ _ rest => exact ⟨rest.store, rest.journal⟩
    | added _ _ _ _ _ rest => exact ⟨rest.store, rest.journal⟩
    | stopped _ _ _ rest => exact ⟨rest.store, rest.journal⟩

theorem quiet (idle : a.activeCount = 0)
    (barred : ∀ front i back, later = front ++ i :: back → (a.afterAll front).registers? i = none) :
    (a.afterAll later).activeCount = 0 ∧ (a.afterAll later).engine.store = a.engine.store ∧
      (a.afterAll later).engine.journal = a.engine.journal := by
  induction later generalizing a with
  | nil => exact ⟨idle, rfl, rfl⟩
  | cons i later ih =>
    obtain ⟨still, store, journal⟩ := governed.incur_quiet idle (barred [] i later rfl)
    obtain ⟨stillToo, storeToo, journalToo⟩ := ih (governed.incur i) still fun front j back same =>
      barred (i :: front) j back (congrArg (i :: ·) same)
    exact ⟨stillToo, storeToo.trans store, journalToo.trans journal⟩

/-- An aggregator that is down stays so. -/
theorem isDown (down : a.isDown = true) (later : List Incident) : (a.afterAll later).isDown = true := by
  induction later generalizing a with
  | nil => exact down
  | cons i later ih => exact ih (governed.incur i) (by rw [incur_isDown governed.filed, down]; rfl)

/-- Once the aggregator is down, only a call that has found it up before registers a source. -/
theorem entered_of_down (down : a.isDown = true) {front back : List Incident}
    (split : later = front ++ i :: back) (registers : (a.afterAll front).registers? i = some id) :
    ∃ name, .enter name ∈ later ∧ Text.trim name = id := by
  obtain ⟨name, rfl, own⟩ := enter_of_registers? registers (governed.isDown down front)
  exact ⟨name, split ▸ List.mem_append_right front List.mem_cons_self, own⟩

/-! ## Shutdown -/

theorem silenced (order : List String) : (a.incur (.silence order)).activeCount = 0 :=
  activeCount_eq_zero_iff.2 fun _ _ found => stopAll_idle governed.filed order found

/-- With whole calls only, no source is active while the aggregator is down. -/
theorem incur_overtaken (after : (a.incur i).Overtaken) : a.Overtaken ∨ i.Belated := by
  obtain ⟨down, active⟩ := after
  rw [incur_isDown governed.filed, Bool.or_eq_true] at down
  rcases down with down | ends
  · by_cases entering : ∃ name, i = .enter name
    · obtain ⟨name, rfl⟩ := entering
      exact .inr (.enter name)
    · refine .inl ⟨down, Nat.pos_of_ne_zero fun idle => ?_⟩
      have barred := registers?_of_down down fun name same => entering ⟨name, same⟩
      have still := (governed.incur_quiet idle barred).1
      omega
  · cases i with
    | fall => exact .inr .fall
    | move m =>
      cases m with
      | shutdown order =>
        have idle : (a.incur (.move (.shutdown order))).activeCount = 0 := governed.silenced order
        omega
      | _ => cases ends
    | _ => cases ends

theorem shutdown_active (order : List String) (between later : List Incident)
    (found : ((((a.incur (.silence order)).afterAll between).incur .fall).afterAll later).sources.get? id =
      some t) (active : t.active = true) :
    a.lastGeneration < t.generation ∧ ((∃ i ∈ between, i.adds?.map Text.trim = some id) ∨
      ∃ name, .enter name ∈ later ∧ Text.trim name = id) := by
  have stopped := governed.incur (.silence order)
  have waited := stopped.after between
  have fallen := waited.incur .fall
  have grows : a.lastGeneration ≤ (a.incur (.silence order)).lastGeneration :=
    (governed.effect _).lastGeneration
  rcases fallen.active_after later found active with ⟨s, before, running, same⟩ | ⟨newer, rest⟩
  · rcases stopped.active_after between before running with ⟨u, first, runs, _⟩ | ⟨newer, rest⟩
    · have idle := activeCount_eq_zero_iff.1 (governed.silenced order) id u first
      rw [runs] at idle
      cases idle
    · obtain ⟨front, i, back, split, registers⟩ := rest
      obtain ⟨name, adds, own⟩ := registers?_adds registers
      refine ⟨by omega, .inl ⟨i, ?_, by rw [adds, Option.map_some, own]⟩⟩
      exact split ▸ List.mem_append_right front List.mem_cons_self
  · obtain ⟨front, i, back, split, registers⟩ := rest
    have meanwhile := stopped.grows between
    have last : (((a.incur (.silence order)).afterAll between).incur .fall).lastGeneration =
        ((a.incur (.silence order)).afterAll between).lastGeneration := rfl
    exact ⟨by omega, .inr (fallen.entered_of_down rfl split registers)⟩

theorem shutdown_quiet (order : List String) {between : List Incident}
    (early : ∀ i ∈ between, i.adds? = none) (late : ∀ name, .enter name ∉ later) :
    let b := (((a.incur (.silence order)).afterAll between).incur .fall).afterAll later
    b.engine.store = a.engine.store ∧ b.engine.journal = a.engine.journal := by
  intro b
  have stopped := governed.incur (.silence order)
  have fallen := (stopped.after between).incur .fall
  have member {all front back : List Incident} {i : Incident} (split : all = front ++ i :: back) : i ∈ all :=
    split ▸ List.mem_append_right front List.mem_cons_self
  obtain ⟨idle, store, journal⟩ := stopped.quiet (governed.silenced order) fun front i back split =>
    registers?_of_adds (early i (member split))
  obtain ⟨_, storeToo, journalToo⟩ := fallen.quiet idle fun front i back split =>
    registers?_of_down (fallen.isDown rfl front) fun name entering => late name (entering ▸ member split)
  have engine := a.stopAll_engine order
  exact ⟨storeToo.trans (store.trans (congrArg (·.store) engine)),
    journalToo.trans (journal.trans (congrArg (·.journal) engine))⟩

end Governed

end Aggregator

/-! ## Stale items -/

def QueueItem.source : QueueItem → String
  | .header source _ _ => source
  | .closed source _ _ => source

namespace Aggregator

variable {a : Aggregator}

/-- An item of another incarnation than the registered one, or of a source that is not active. -/
def Stale (a : Aggregator) (item : QueueItem) : Prop :=
  ∀ s, a.sources.get? item.source = some s → s.active = true → s.generation ≠ item.generation

theorem perform_stale {item : QueueItem} {rest : List QueueItem} (queue : a.queue = item :: rest)
    (stale : a.Stale item) : a.act .perform = { a with queue := rest } := by
  have popped : a.act .perform = Aggregator.perform { a with queue := rest } item := by
    simp only [act, performNext, queue, Option.getD_some]
  rw [popped]
  cases item with
  | header source generation header =>
    show Aggregator.ingested { a with queue := rest } source (some generation) header = _
    cases found : a.sources.get? source with
    | none => simp [ingested, ingest, found]
    | some s =>
      have refuses : s.accepts (some generation) = false := by
        cases active : s.active with
        | false => simp [Source.accepts, active]
        | true =>
          have other : generation ≠ s.generation := Ne.symm (stale s found active)
          simp [Source.accepts, other]
      simp [ingested, ingest, found, refuses]
  | closed source generation state =>
    rcases closeSource_cases { a with queue := rest } source generation state with
      same | ⟨s, found, own, active, _⟩
    · exact same
    · exact absurd own (stale s found active)

/-! ## The life of all sources -/

structure Lifecycle (a : Aggregator) : Prop where
  running : ∀ id s, a.sources.get? id = some s → (s.active = true ↔ s.state = .running)
  counted : ∀ id s, a.sources.get? id = some s → ∀ cap, a.settings.eventCap = some cap →
    s.observedCount ≤ cap ∧ (1 ≤ cap → (s.observedCount = cap ↔ s.state = .capReached))
  /-- An entry that has left the running state is the same until it is removed or replaced. -/
  lasting : ∀ id s, a.sources.get? id = some s → s.state ≠ .running → ∀ later,
    (a.afterAll later).sources.get? id = some s ∨
      ∃ front i back, later = front ++ i :: back ∧ (a.afterAll front).sources.get? id = some s ∧
        (i = .move (.remove id) ∨ (a.afterAll front).registers? i = some id ∧
          ∃ t, ((a.afterAll front).incur i).sources.get? id = some t ∧ s.generation < t.generation)
  /-- Whatever is registered now, an entry that is added later has a greater generation. -/
  added : ∀ later i, match (a.afterAll later).registers? i with
    | some id => ∃ t, ((a.afterAll later).incur i).sources.get? id = some t ∧
        t.observedCount = 0 ∧ t.latestHash = none ∧
        ∀ id s, a.sources.get? id = some s → s.generation < t.generation
    | none => i.adds?.isSome = true → (a.afterAll later).incur i = a.afterAll later
  stale : ∀ item rest, a.queue = item :: rest → a.Stale item →
    a.act .perform = { a with queue := rest }
  /-- After a shutdown a source is active only if it is registered while the shutdown goes on, or later
  by a call that has found the aggregator up before. If there is no such call, nothing reaches the
  graph any more. -/
  shut : ∀ order between later,
    let b := ((a.incur (.silence order)).afterAll between).incur .fall
    let c := b.afterAll later
    c.isDown = true ∧
    (∀ id t, c.sources.get? id = some t → t.active = true → a.lastGeneration < t.generation ∧
      ((∃ i ∈ between, i.adds?.map Text.trim = some id) ∨
        ∃ name, .enter name ∈ later ∧ Text.trim name = id)) ∧
    ((∀ i ∈ between, i.adds? = none) → (∀ name, .enter name ∉ later) →
      c.engine.store = a.engine.store ∧ c.engine.journal = a.engine.journal)

theorem Governed.lifecycle (governed : a.Governed) : a.Lifecycle where
  running id s found := (governed.lawful id s found).running
  counted id s found cap limit :=
    ⟨(governed.lawful id s found).within cap limit, (governed.lawful id s found).reached cap limit⟩
  lasting id s found left later := by
    have idle : s.active = false := by
      rw [← Bool.not_eq_true, (governed.lawful id s found).running]
      exact left
    exact governed.lasting found idle later
  added later i := by
    cases registers : (a.afterAll later).registers? i with
    | some id =>
      obtain ⟨t, fresh, there⟩ := incur_registers registers
      obtain ⟨_, generation, count, latest⟩ := fresh.entry
      refine ⟨t, there, count, latest, fun other s found => ?_⟩
      have older := Nat.le_trans (governed.known other s found) (governed.grows later)
      omega
    | none =>
      intro adds
      obtain ⟨name, adds⟩ := Option.isSome_iff_exists.1 adds
      exact incur_barred adds registers
  stale item rest queue stale := perform_stale queue stale
  shut order between later := by
    have fallen := ((governed.incur (.silence order)).after between).incur .fall
    exact ⟨fallen.isDown rfl later, fun _ _ => governed.shutdown_active order between later,
      governed.shutdown_quiet order⟩

/-- Around any feed and any engine, and whatever happens in whatever order. -/
theorem afterAll_lifecycle (settings : Settings) (feed : Feed) (e : Engine) (incidents : List Incident) :
    ((ofEngine settings feed e).afterAll incidents).Lifecycle :=
  ((Governed.ofEngine settings feed e).after incidents).lifecycle

/-- The call finds the aggregator up, and the shutdown comes before it is heard at the registry. -/
theorem shutdown_overtaken :
    let header := Header.new 1 "0x1" "0x0"
    let a := (new .standard (.channel (.new 4))).afterAll [.move (.shutdown []), .enter "a"]
    a.isDown = true ∧ a.statuses = [⟨"a", true, 0, none, .running⟩] ∧ a.engine.journal = [] ∧
      (a.incur (.move (.onHeader "a" header))).engine.journal ≠ [] := by
  decide +kernel

end Aggregator

end BlockGraph
