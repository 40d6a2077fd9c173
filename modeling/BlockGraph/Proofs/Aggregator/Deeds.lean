import BlockGraph.Proofs.Aggregator.Incidents

/-!
# Deeds

Everything that an incident can do to the registry, the graph and the status stream, said once. It is
one of eight things, and each of them is told on the status stream as far as a source is concerned; but
that a source is registered is told no earlier than its pump has started.

* `Source.Becomes`, `Source.Fresh` — what can become of an active source, and what a new entry is.
* `Beside` — what only concerns pumps, lines, the queue and subscriptions.
* `Deed`, `incur_deed` — the eight things; every incident does one of them.
* `stopEach_told` — what is told of sources that are stopped one after another.
-/

namespace BlockGraph

namespace Source

variable {s t : Source} {cap : Option Nat} {id : String} {generation : Nat}

/-- What can become of an active source: a header is counted, or its activity ends. -/
inductive Becomes (cap : Option Nat) (s : Source) : Source → Prop
  | counted (room : s.isFull cap = false) (hash : String) : Becomes cap s ((s.record hash).capped cap)
  | closed (state : SourceState) (idle : state ≠ .running)
      (full : state = .capReached → s.isFull cap = true) :
      Becomes cap s { s with active := false, state }

theorem deactivate_of_active (active : s.active = true) (state : SourceState) :
    s.deactivate state = { s with active := false, state } := if_pos active

theorem Becomes.incarnation (becomes : s.Becomes cap t) :
    t.id = s.id ∧ t.generation = s.generation := by
  cases becomes with
  | counted _ hash =>
    have fades := (s.record_fades hash).trans (capped_fades _ cap)
    exact ⟨fades.id, fades.generation⟩
  | closed => exact ⟨rfl, rfl⟩

/-- A source that has just been registered, and perhaps has failed already. -/
inductive Fresh (id : String) (generation : Nat) : Source → Prop
  | running : Fresh id generation (.new id generation)
  | failed (reason : String) :
      Fresh id generation { Source.new id generation with active := false, state := .failed reason }

theorem Fresh.entry (fresh : t.Fresh id generation) :
    t.id = id ∧ t.generation = generation ∧ t.observedCount = 0 ∧ t.latestHash = none := by
  cases fresh <;> exact ⟨rfl, rfl, rfl, rfl⟩

end Source

namespace Aggregator

variable {a b c : Aggregator} {i : Incident} {id name : String}

/-! ## Beside the registry, the graph and the status stream -/

/-- Pumps, lines, the queue and subscriptions differ at most. -/
structure Beside (a b : Aggregator) : Prop extends Aside a b where
  lanes : b.engine.lanes = a.engine.lanes
  log : b.log = a.log

theorem Beside.refl (a : Aggregator) : Beside a a := ⟨.refl a, rfl, rfl⟩

theorem Beside.trans (first : Beside a b) (second : Beside b c) : Beside a c where
  settings := second.settings.trans first.settings
  sources := second.sources.trans first.sources
  lastGeneration := second.lastGeneration.trans first.lastGeneration
  store := second.store.trans first.store
  journal := second.journal.trans first.journal
  lanes := second.lanes.trans first.lanes
  log := second.log.trans first.log

theorem forward_beside (a : Aggregator) (p : Pump) : Beside a ((a.forward p).getD a) := by
  obtain ⟨feed, queue, pumps, same⟩ := a.forward_shape p
  rw [same]
  exact ⟨⟨rfl, rfl, rfl, rfl, rfl⟩, rfl, rfl⟩

theorem onChannel_beside (a : Aggregator) (f : ChannelFeed → ChannelFeed) : Beside a (a.onChannel f) := by
  obtain ⟨feed, same⟩ := a.onChannel_shape f
  rw [same]
  exact ⟨⟨rfl, rfl, rfl, rfl, rfl⟩, rfl, rfl⟩

theorem onEmitter_beside (a : Aggregator) (call : Emitter.Call) : Beside a (a.onEmitter (·.after call)) :=
  ⟨⟨rfl, rfl, rfl, rfl, a.engine.emitter.after_journal call⟩, rfl, rfl⟩

/-! ## What an incident does -/

/-- Everything that an incident can do to the registry, the graph and the status stream. -/
inductive Deed (a : Aggregator) (i : Incident) (b : Aggregator) : Prop
  | aside (rest : Beside a b)
  /-- The pump of a source has started, and its status is told. -/
  | retold (s : Source) (found : a.sources.get? s.id = some s) (rest : Beside (a.publishStatus s) b)
  | counted (s : Source) (header : Header) (found : a.sources.get? s.id = some s)
      (active : s.active = true) (room : s.isFull a.settings.eventCap = false)
      (named : header.isBlank = false)
      (rest : Beside ({ a with engine := a.engine.applied s.id header }.setAndPublish
        ((s.record header.hash).capped a.settings.eventCap)) b)
  | closed (s : Source) (state : SourceState) (found : a.sources.get? s.id = some s)
      (active : s.active = true) (idle : state ≠ .running)
      (full : state = .capReached → s.isFull a.settings.eventCap = true)
      (rest : Beside (a.setAndPublish { s with active := false, state }) b)
  | removed (s : Source) (call : i = .move (.remove s.id)) (found : a.sources.get? s.id = some s)
      (rest : Beside ({ a with sources := a.sources.erase s.id }.publishStatus (s.deactivate .stopped)) b)
  | added (id : String) (t : Source) (registers : a.registers? i = some id)
      (fresh : t.Fresh id (a.lastGeneration + 1))
      (rest : Beside ({ a with lastGeneration := a.lastGeneration + 1 }.setAndPublish t) b)
  /-- A source is registered, and nothing is told of it as long as the feed keeps its caller waiting. -/
  | entered (name : String) (call : i = .enter name) (may : a.mayEnter name = true)
      (rest : Beside (a.entered name) b)
  /-- A shutdown stops all sources, and may bring the aggregator down at once. -/
  | stopped (order : List String) (call : i = .move (.shutdown order) ∨ i = .silence order)
      (rest : Beside (a.stopAll order) b)

theorem Deed.beside (deed : Deed a i b) (later : Beside b c) : Deed a i c := by
  cases deed with
  | aside rest => exact .aside (rest.trans later)
  | retold s found rest => exact .retold s found (rest.trans later)
  | counted s header found active room named rest =>
    exact .counted s header found active room named (rest.trans later)
  | closed s state found active idle full rest =>
    exact .closed s state found active idle full (rest.trans later)
  | removed s call found rest => exact .removed s call found (rest.trans later)
  | added id t registers fresh rest => exact .added id t registers fresh (rest.trans later)
  | entered name call may rest => exact .entered name call may (rest.trans later)
  | stopped order call rest => exact .stopped order call (rest.trans later)

theorem joined_deed (filed : a.Filed) (id : String) (generation line : Nat) :
    Deed a i (a.joined id generation line) := by
  unfold joined
  dsimp only
  split
  next s found =>
    split
    · exact .retold s (filed id s found ▸ found) ⟨⟨rfl, rfl, rfl, rfl, rfl⟩, rfl, rfl⟩
    · exact .aside ⟨⟨rfl, rfl, rfl, rfl, rfl⟩, rfl, rfl⟩
  next => exact .aside ⟨⟨rfl, rfl, rfl, rfl, rfl⟩, rfl, rfl⟩

theorem closeSource_deed (filed : a.Filed) (id : String) (generation : Nat) {state : SourceState}
    (idle : state ≠ .running) (uncapped : state ≠ .capReached) :
    Deed a i (a.closeSource id generation state) := by
  rcases a.closeSource_cases id generation state with same | ⟨s, found, _, active, after⟩
  · rw [same]
    exact .aside (.refl a)
  · rw [after]
    exact .closed s state (filed id s found ▸ found) active idle (fun capped => absurd capped uncapped)
      (.refl _)

theorem ingested_deed (filed : a.Filed) (id : String) (generation : Option Nat) (header : Header) :
    Deed a i (a.ingested id generation header) := by
  cases taken : a.takes id generation header with
  | true =>
    obtain ⟨s, found, accepts, named, after⟩ := ingested_taken taken
    obtain rfl := filed id s found
    have active : s.active = true := (Bool.and_eq_true_iff.1 accepts).1
    have room : s.isFull a.settings.eventCap = false := by
      simp only [takes, found, Option.any_some, Bool.and_eq_true, Bool.not_eq_true'] at taken
      exact taken.1.2
    rw [after]
    exact .counted s header found active room named (.refl _)
  | false =>
    cases found : a.sources.get? id with
    | none =>
      have same : a.ingested id generation header = a := by simp [ingested, ingest, found]
      rw [same]
      exact .aside (.refl a)
    | some s =>
      cases full : s.isFull a.settings.eventCap && s.active with
      | false =>
        have room : ∀ t, a.sources.get? id = some t → t.active = true →
            t.isFull a.settings.eventCap = false := by
          intro t there active
          obtain rfl := Option.some.inj (found.symm.trans there)
          simpa [active] using full
        rw [ingested_ignored taken room]
        exact .aside (.refl a)
      | true =>
        obtain ⟨full, active⟩ := Bool.and_eq_true_iff.1 full
        rcases ingested_dropped taken with ⟨same, _⟩ | ⟨t, there, after⟩
        · rw [same]
          exact .aside (.refl a)
        · obtain rfl := Option.some.inj (found.symm.trans there)
          rw [after, s.deactivate_of_active active]
          exact .closed s .capReached (filed id s found ▸ found) active (by simp) (fun _ => full) (.refl _)

theorem stopSource_deed (filed : a.Filed) (id : String) : Deed a i (a.stopSource id).1 := by
  unfold stopSource
  cases found : a.sources.get? id with
  | none => exact .aside (.refl a)
  | some s =>
    cases active : s.active with
    | false =>
      simp only [active, Bool.false_eq_true, if_false]
      exact .aside (.refl a)
    | true =>
      simp only [active, if_true, s.deactivate_of_active active]
      exact .closed s .stopped (filed id s found ▸ found) active (by simp) (by simp) (.refl _)

theorem removeSource_deed (filed : a.Filed) (id : String) :
    Deed a (.move (.remove id)) (a.removeSource id).1 := by
  unfold removeSource
  cases found : a.sources.get? id with
  | none => exact .aside (.refl a)
  | some s =>
    obtain rfl := filed id s found
    exact .removed s rfl found (.refl _)

/-- A call that adds a source registers it and tells so, and else it does nothing. -/
theorem addSource_deed (a : Aggregator) (name : String) :
    Deed a (.move (.add name)) (a.addSource name).1 := by
  cases may : a.mayAdd name with
  | false =>
    rw [addSource_barred may]
    exact .aside (.refl a)
  | true =>
    obtain ⟨spelled, up, idle⟩ := mayAdd_iff.1 may
    have registers : a.registers? (.move (.add name)) = some (Text.trim name) := if_pos may
    cases subscribed : a.feed.subscribe (Text.trim name) with
    | ok granted =>
      obtain ⟨feed, line⟩ := granted
      rw [addSource_begun spelled up idle subscribed]
      exact .added _ _ registers .running ⟨⟨rfl, rfl, rfl, rfl, rfl⟩, rfl, rfl⟩
    | error error =>
      rw [addSource_refused spelled up idle subscribed]
      exact .added _ _ registers (.failed error.message) ⟨⟨rfl, rfl, rfl, rfl, rfl⟩, rfl, rfl⟩

theorem entered_eq (may : a.mayEnter name = true) :
    a.entered name = { a with lastGeneration := a.lastGeneration + 1 }.setSource
      (.new (Text.trim name) (a.lastGeneration + 1)) := if_pos may

theorem entered_deed (a : Aggregator) (name : String) : Deed a (.enter name) (a.entered name) := by
  cases may : a.mayEnter name with
  | false =>
    rw [entered, if_neg (by simp [may])]
    exact .aside (.refl a)
  | true => exact .entered name rfl may (.refl _)

/-- The queue has no part in what an item does. -/
theorem perform_popped (a : Aggregator) (item : QueueItem) (queue : List QueueItem) :
    perform { a with queue } item = { a.perform item with queue } := by
  cases item with
  | closed source generation state =>
    simp only [perform, closeSource]
    split
    · split <;> rfl
    · rfl
  | header source generation header =>
    simp only [perform, ingest]
    cases a.sources.get? source with
    | none => rfl
    | some s =>
      dsimp only
      cases s.accepts (some generation) with
      | false => rfl
      | true =>
        cases s.isFull a.settings.eventCap with
        | true => rfl
        | false => cases a.engine.apply source header <;> rfl

theorem perform_deed (filed : a.Filed) (fromFeed : a.FromFeed) : Deed a i (a.act .perform) := by
  simp only [act, performNext]
  cases queue : a.queue with
  | nil => exact .aside (.refl a)
  | cons item rest =>
    have made := fromFeed.queued item (queue ▸ List.mem_cons_self)
    have done : Deed a i (a.perform item) := by
      cases item with
      | header source generation header => exact ingested_deed filed source (some generation) header
      | closed source generation state =>
        refine closeSource_deed filed source generation ?_ ?_
        · rcases made with rfl | ⟨reason, rfl⟩ <;> simp
        · rcases made with rfl | ⟨reason, rfl⟩ <;> simp
    simp only [Option.getD_some, perform_popped]
    exact done.beside ⟨⟨rfl, rfl, rfl, rfl, rfl⟩, rfl, rfl⟩

theorem act_deed (filed : a.Filed) (fromFeed : a.FromFeed) (m : Move) : Deed a (.move m) (a.act m) := by
  cases m with
  | add name => exact addSource_deed a name
  | stop id => exact stopSource_deed filed id
  | remove id => exact removeSource_deed filed id
  | onHeader id header =>
    simp only [act, onHeader_fst]
    exact ingested_deed filed id none header
  | publish | close | fail | refuse | allow => exact .aside (onChannel_beside ..)
  | shutdown order => exact .stopped order (.inl rfl) ⟨⟨rfl, rfl, rfl, rfl, rfl⟩, rfl, rfl⟩
  | forward generation =>
    simp only [act]
    cases a.pump? generation with
    | none => exact .aside (.refl a)
    | some p => exact .aside (forward_beside a p)
  | cancel generation =>
    simp only [act]
    cases a.pump? generation with
    | none => exact .aside (.refl a)
    | some p =>
      dsimp only
      split
      · exact .aside (.refl a)
      · exact .aside ⟨⟨rfl, rfl, rfl, rfl, rfl⟩, rfl, rfl⟩
  | perform => exact perform_deed filed fromFeed

theorem incur_deed (filed : a.Filed) (fromFeed : a.FromFeed) (i : Incident) : Deed a i (a.incur i) := by
  cases i with
  | move m => exact act_deed filed fromFeed m
  | feed f => exact .aside ⟨⟨rfl, rfl, rfl, rfl, rfl⟩, rfl, rfl⟩
  | listen call => exact .aside (onEmitter_beside a call)
  | enter name => exact entered_deed a name
  | join id generation line => exact joined_deed filed id generation line
  | turnAway id generation reason => exact closeSource_deed filed id generation (by simp) (by simp)
  | silence order => exact .stopped order (.inr rfl) (.refl _)
  | fall => exact .aside ⟨⟨rfl, rfl, rfl, rfl, rfl⟩, rfl, rfl⟩

/-! ## What is told of sources that are stopped -/

theorem stopSource_of_idle (idle : ∀ s, a.sources.get? id = some s → s.active = false) :
    (a.stopSource id).1 = a := by
  unfold stopSource
  split
  next s found => rw [idle s found, if_neg Bool.false_ne_true]
  next => rfl

theorem stopSource_of_active {s : Source} (found : a.sources.get? id = some s)
    (active : s.active = true) : (a.stopSource id).1 = a.setAndPublish (s.deactivate .stopped) := by
  simp only [stopSource, found, active, if_true]

/-- What is told of sources that are stopped one after another: of each that was active, once. -/
theorem stopEach_told (filed : a.Filed) (ids : List String) : ∃ told : List Source,
    (a.stopEach ids).log = a.log ++ told.map (·.status) ∧ (told.map (·.id)).Nodup ∧
      ∀ t, t ∈ told ↔ ∃ s, s.id ∈ ids ∧ a.sources.get? s.id = some s ∧ s.active = true ∧
        t = s.deactivate .stopped := by
  induction ids generalizing a with
  | nil => exact ⟨[], (List.append_nil _).symm, .nil, by simp⟩
  | cons first ids ih =>
    obtain ⟨told, log, distinct, listed⟩ := ih ((stopSource_fading filed first).filed filed)
    -- Whoever is active after the first stop is another source, and was active before.
    have left (s : Source) : (a.stopSource first).1.sources.get? s.id = some s ∧ s.active = true ↔
        s.id ≠ first ∧ a.sources.get? s.id = some s ∧ s.active = true := by
      rw [get?_stopSource filed]
      split
      next own =>
        constructor
        · rintro ⟨stopped, active⟩
          obtain ⟨u, _, rfl⟩ := Option.map_eq_some_iff.1 stopped
          rw [u.deactivate_active] at active
          cases active
        · exact fun other => absurd own other.1
      next other => simp [other]
    by_cases running : ∃ s, a.sources.get? first = some s ∧ s.active = true
    · obtain ⟨s, found, active⟩ := running
      obtain rfl := filed first s found
      refine ⟨s.deactivate .stopped :: told, ?_, ?_, fun t => ?_⟩
      · refine log.trans ?_
        rw [stopSource_of_active found active, List.map_cons, ← List.singleton_append,
          ← List.append_assoc]
        rfl
      · refine List.nodup_cons.2 ⟨fun again => ?_, distinct⟩
        obtain ⟨t, member, same⟩ := List.mem_map.1 again
        obtain ⟨u, _, there, runs, rfl⟩ := (listed t).1 member
        have own : u.id = s.id := (u.deactivate_id .stopped).symm.trans (same.trans (s.deactivate_id .stopped))
        exact ((left u).1 ⟨there, runs⟩).1 own
      · rw [List.mem_cons, listed]
        constructor
        · rintro (rfl | ⟨u, asked, there, runs, rfl⟩)
          · exact ⟨s, List.mem_cons_self, found, active, rfl⟩
          · obtain ⟨_, there, _⟩ := (left u).1 ⟨there, runs⟩
            exact ⟨u, List.mem_cons_of_mem _ asked, there, runs, rfl⟩
        · rintro ⟨u, asked, there, runs, rfl⟩
          by_cases own : u.id = s.id
          · rw [own, found] at there
            exact .inl (Option.some.inj there ▸ rfl)
          · obtain ⟨there, _⟩ := (left u).2 ⟨own, there, runs⟩
            exact .inr ⟨u, (List.mem_cons.1 asked).resolve_left own, there, runs, rfl⟩
    · have idle : ∀ s, a.sources.get? first = some s → s.active = false := fun s found =>
        Bool.not_eq_true _ ▸ fun active => running ⟨s, found, active⟩
      rw [stopSource_of_idle idle] at log listed
      have same : a.stopEach (first :: ids) = a.stopEach ids :=
        congrArg (stopEach · ids) (stopSource_of_idle idle)
      refine ⟨told, same ▸ log, distinct, fun t => (listed t).trans ?_⟩
      constructor
      · rintro ⟨u, asked, rest⟩
        exact ⟨u, List.mem_cons_of_mem _ asked, rest⟩
      · rintro ⟨u, asked, there, runs, rfl⟩
        have other : u.id ≠ first := fun own => running ⟨u, own ▸ there, runs⟩
        exact ⟨u, (List.mem_cons.1 asked).resolve_left other, there, runs, rfl⟩

end Aggregator

end BlockGraph
