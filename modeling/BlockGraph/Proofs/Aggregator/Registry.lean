import BlockGraph.Proofs.Aggregator.Run

/-!
# The registry in a run

Apart from the call that adds a source, nothing makes a source active, and nothing but the end of its
line makes it ended. What else a move changes is stated here once, part by part.

* `Fading` — pumps, lines and the queue stay, and the sources only fade.
* `addSource_cases` — the three outcomes of adding a source.
* `onChannel_shape`, `forward_shape` — moves that leave the registry alone.
* `get?_stopAll`, `stopAll_idle` — all sources are stopped, in whatever order.
-/

namespace BlockGraph

namespace Source

/-- The source is the same incarnation later on: it is not active again, and it has not ended. -/
structure Fades (s t : Source) : Prop where
  id : t.id = s.id
  generation : t.generation = s.generation
  active : t.active = true → s.active = true
  ended : t.state = .ended → s.state = .ended

variable {s t u : Source}

theorem Fades.refl (s : Source) : s.Fades s := ⟨rfl, rfl, fun active => active, fun ended => ended⟩

theorem Fades.trans (first : s.Fades t) (second : t.Fades u) : s.Fades u where
  id := second.id.trans first.id
  generation := second.generation.trans first.generation
  active := first.active ∘ second.active
  ended := first.ended ∘ second.ended

theorem deactivate_fades {state : SourceState} (lasts : state ≠ .ended) (s : Source) :
    s.Fades (s.deactivate state) := by
  unfold deactivate
  split
  · exact ⟨rfl, rfl, fun active => absurd active Bool.false_ne_true, fun ended => absurd ended lasts⟩
  · exact .refl s

theorem deactivate_active (s : Source) (state : SourceState) : (s.deactivate state).active = false := by
  unfold deactivate
  split <;> simp_all

theorem deactivate_of_idle (idle : s.active = false) (state : SourceState) :
    s.deactivate state = s := by simp [deactivate, idle]

theorem deactivate_deactivate (s : Source) (state : SourceState) :
    (s.deactivate state).deactivate state = s.deactivate state :=
  deactivate_of_idle (s.deactivate_active state) state

theorem deactivate_id (s : Source) (state : SourceState) : (s.deactivate state).id = s.id := by
  unfold deactivate
  split <;> rfl

theorem record_fades (s : Source) (hash : String) : s.Fades (s.record hash) :=
  ⟨rfl, rfl, fun active => active, fun ended => ended⟩

theorem capped_fades (s : Source) (cap : Option Nat) : s.Fades (s.capped cap) := by
  unfold capped
  split
  · exact deactivate_fades (by simp) s
  · exact .refl s

end Source

namespace Aggregator

variable {a b c : Aggregator}

/-- Every entry of the registry stands under its own name. -/
def Filed (a : Aggregator) : Prop := ∀ id s, a.sources.get? id = some s → s.id = id

theorem mem_values (filed : a.Filed) {s : Source} :
    s ∈ a.sources.values ↔ a.sources.get? s.id = some s := by
  constructor
  · intro member
    obtain ⟨⟨key, s⟩, entry, rfl⟩ := List.mem_map.1 member
    have found := SortedMap.get?_of_mem entry
    rwa [filed key s found]
  · exact fun found => List.mem_map.2 ⟨_, SortedMap.mem_of_get? found, rfl⟩

theorem values_ids (filed : a.Filed) : a.sources.values.map (·.id) = a.sources.keys := by
  rw [SortedMap.values, SortedMap.keys, List.map_map]
  apply List.map_congr_left
  rintro ⟨key, s⟩ entry
  exact filed key s (SortedMap.get?_of_mem entry)

theorem activeCount_eq_zero_iff :
    a.activeCount = 0 ↔ ∀ id s, a.sources.get? id = some s → s.active = false := by
  rw [activeCount, List.length_eq_zero_iff, List.filter_eq_nil_iff]
  constructor
  · intro none id s found
    exact Bool.not_eq_true _ ▸ none s (List.mem_map_of_mem (SortedMap.mem_of_get? found))
  · intro idle s member
    obtain ⟨⟨key, s⟩, entry, rfl⟩ := List.mem_map.1 member
    exact Bool.not_eq_true _ ▸ idle key s (SortedMap.get?_of_mem entry)

theorem activeCount_pos_iff :
    0 < a.activeCount ↔ ∃ id s, a.sources.get? id = some s ∧ s.active = true := by
  rw [Nat.pos_iff_ne_zero, Ne, activeCount_eq_zero_iff]
  simp

/-- Pumps, lines and the queue stay, and the sources only fade. -/
structure Fading (a b : Aggregator) : Prop where
  feed : b.feed = a.feed
  pumps : b.pumps = a.pumps
  queue : b.queue = a.queue
  lastGeneration : b.lastGeneration = a.lastGeneration
  isDown : b.isDown = a.isDown
  sources : ∀ id t, b.sources.get? id = some t → ∃ s, a.sources.get? id = some s ∧ s.Fades t

theorem Fading.refl (a : Aggregator) : Fading a a :=
  ⟨rfl, rfl, rfl, rfl, rfl, fun _ s found => ⟨s, found, .refl s⟩⟩

theorem Fading.trans (first : Fading a b) (second : Fading b c) : Fading a c where
  feed := second.feed.trans first.feed
  pumps := second.pumps.trans first.pumps
  queue := second.queue.trans first.queue
  lastGeneration := second.lastGeneration.trans first.lastGeneration
  isDown := second.isDown.trans first.isDown
  sources id u found := by
    obtain ⟨t, between, later⟩ := second.sources id u found
    obtain ⟨s, before, fades⟩ := first.sources id t between
    exact ⟨s, before, fades.trans later⟩

theorem Fading.filed (fading : Fading a b) (filed : a.Filed) : b.Filed := by
  intro id t found
  obtain ⟨s, before, fades⟩ := fading.sources id t found
  rw [fades.id]
  exact filed id s before

theorem get?_setAndPublish (a : Aggregator) (t : Source) (id : String) :
    (a.setAndPublish t).sources.get? id = if id = t.id then some t else a.sources.get? id :=
  SortedMap.get?_insert ..

/-- An entry is replaced by the same incarnation later on. -/
theorem Fading.setAndPublish (fading : Fading a b) {s t : Source}
    (found : a.sources.get? s.id = some s) (fades : s.Fades t) : Fading a (b.setAndPublish t) := by
  obtain ⟨feed, pumps, queue, lastGeneration, isDown, sources⟩ := fading
  refine ⟨feed, pumps, queue, lastGeneration, isDown, ?_⟩
  intro id u after
  rw [get?_setAndPublish] at after
  by_cases same : id = t.id
  · rw [if_pos same] at after
    obtain rfl := Option.some.inj after
    exact ⟨s, by rw [same, fades.id]; exact found, fades⟩
  · rw [if_neg same] at after
    exact sources id u after

/-! ## Calls that end the activity of sources -/

/-- An active source is closed in its own generation only. -/
theorem closeSource_cases (a : Aggregator) (id : String) (generation : Nat) (state : SourceState) :
    a.closeSource id generation state = a ∨
      ∃ s, a.sources.get? id = some s ∧ s.generation = generation ∧ s.active = true ∧
        a.closeSource id generation state = a.setAndPublish { s with active := false, state } := by
  cases found : a.sources.get? id with
  | none => exact .inl (by simp only [closeSource, found])
  | some s =>
    by_cases current : s.generation = generation ∧ s.active = true
    · obtain ⟨own, active⟩ := current
      exact .inr ⟨s, rfl, own, active, by simp [closeSource, found, own, active, Source.deactivate]⟩
    · exact .inl (by simp [closeSource, found, current])

theorem stopSource_fading (filed : a.Filed) (id : String) : Fading a (a.stopSource id).1 := by
  unfold stopSource
  split
  next s found =>
    split
    · exact (Fading.refl a).setAndPublish (by rwa [filed id s found])
        (s.deactivate_fades (by simp))
    · exact .refl a
  next => exact .refl a

theorem removeSource_fading (id : String) : Fading a (a.removeSource id).1 := by
  unfold removeSource
  split
  next s _ =>
    refine ⟨rfl, rfl, rfl, rfl, rfl, fun other t after => ?_⟩
    have entry : (a.sources.erase id).get? other = some t := after
    rw [SortedMap.get?_erase] at entry
    split at entry
    · cases entry
    · exact ⟨t, entry, .refl t⟩
  next => exact .refl a

theorem ingested_fading (filed : a.Filed) (id : String) (generation : Option Nat) (header : Header) :
    Fading a (a.ingested id generation header) := by
  cases taken : a.takes id generation header with
  | true =>
    obtain ⟨s, found, _, _, after⟩ := ingested_taken taken
    have applied : Fading a { a with engine := a.engine.applied id header } :=
      ⟨rfl, rfl, rfl, rfl, rfl, fun _ t found => ⟨t, found, .refl t⟩⟩
    rw [after]
    refine applied.setAndPublish ?_ ((s.record_fades header.hash).trans (Source.capped_fades ..))
    rwa [filed id s found]
  | false =>
    rcases ingested_dropped taken with ⟨same, _⟩ | ⟨s, found, after⟩
    · rw [same]
      exact .refl a
    · rw [after]
      refine (Fading.refl a).setAndPublish ?_ (s.deactivate_fades (by simp))
      rwa [filed id s found]

/-! ## Moves that leave the registry alone -/

theorem onChannel_shape (a : Aggregator) (f : ChannelFeed → ChannelFeed) :
    ∃ feed, a.onChannel f = { a with feed } := by
  unfold onChannel
  split
  · exact ⟨_, rfl⟩
  · exact ⟨a.feed, rfl⟩

/-- A step of a pump changes the feed, the queue and the pumps, and nothing else. -/
theorem forward_shape (a : Aggregator) (p : Pump) :
    ∃ feed queue pumps, (a.forward p).getD a = { a with feed, queue, pumps } := by
  have still : ∃ feed queue pumps, a = { a with feed, queue, pumps } := ⟨a.feed, a.queue, a.pumps, rfl⟩
  unfold forward
  cases p.holding with
  | some item =>
    dsimp only [enqueue]
    split
    · cases p.isLast <;> exact ⟨_, _, _, rfl⟩
    · exact still
  | none =>
    dsimp only [fetch]
    split
    · exact ⟨_, _, _, rfl⟩
    · exact ⟨_, _, _, rfl⟩
    · exact ⟨_, _, _, rfl⟩
    · exact still

/-! ## Sources that are stopped one after another -/

theorem stopSource_shape (a : Aggregator) (id : String) :
    ∃ sources log, (a.stopSource id).1 = { a with sources, log } := by
  unfold stopSource
  split
  · split
    · exact ⟨_, _, rfl⟩
    · exact ⟨_, _, rfl⟩
  · exact ⟨_, _, rfl⟩

/-- Stopping sources changes the registry and tells so, and nothing else. -/
theorem stopEach_shape (a : Aggregator) (ids : List String) :
    ∃ sources log, a.stopEach ids = { a with sources, log } := by
  induction ids generalizing a with
  | nil => exact ⟨a.sources, a.log, rfl⟩
  | cons id ids ih =>
    obtain ⟨sources, log, first⟩ := a.stopSource_shape id
    obtain ⟨sourcesToo, logToo, rest⟩ := ih (a.stopSource id).1
    rw [first] at rest
    exact ⟨sourcesToo, logToo, (congrArg (stopEach · ids) first).trans rest⟩

theorem stopEach_fading (filed : a.Filed) (ids : List String) : Fading a (a.stopEach ids) := by
  induction ids generalizing a with
  | nil => exact .refl a
  | cons id ids ih =>
    have first := stopSource_fading filed id
    exact first.trans (ih (first.filed filed))

theorem get?_stopSource (filed : a.Filed) (id other : String) :
    (a.stopSource id).1.sources.get? other =
      if other = id then (a.sources.get? other).map (·.deactivate .stopped)
      else a.sources.get? other := by
  unfold stopSource
  cases found : a.sources.get? id with
  | none =>
    dsimp only
    split
    next own => rw [own, found, Option.map_none]
    next => rfl
  | some s =>
    obtain rfl := filed id s found
    dsimp only
    cases active : s.active with
    | true =>
      rw [if_pos rfl, get?_setAndPublish, s.deactivate_id]
      split
      next own => rw [own, found, Option.map_some]
      next => rfl
    | false =>
      rw [if_neg Bool.false_ne_true]
      split
      next own => rw [own, found, Option.map_some, s.deactivate_of_idle active]
      next => rfl

theorem get?_stopEach (filed : a.Filed) (ids : List String) (id : String) :
    (a.stopEach ids).sources.get? id =
      if id ∈ ids then (a.sources.get? id).map (·.deactivate .stopped) else a.sources.get? id := by
  induction ids generalizing a with
  | nil => rfl
  | cons first ids ih =>
    rw [stopEach, List.foldl_cons, ← stopEach, ih ((stopSource_fading filed first).filed filed),
      get?_stopSource filed]
    by_cases own : id = first
    · -- A source that is stopped twice is as it is when it is stopped once.
      simp [own, Function.comp_def, Source.deactivate_deactivate]
    · simp [own]

theorem get?_stopAll (filed : a.Filed) (order : List String) (id : String) :
    (a.stopAll order).sources.get? id = (a.sources.get? id).map (·.deactivate .stopped) := by
  rw [stopAll, get?_stopEach filed]
  split
  next => rfl
  next unlisted =>
    have absent : a.sources.get? id = none := by
      rw [← Option.not_isSome_iff_eq_none, ← SortedMap.mem_keys]
      exact fun key => unlisted (List.mem_append_right order key)
    rw [absent, Option.map_none]

theorem stopAll_idle (filed : a.Filed) (order : List String) {id : String} {t : Source}
    (found : (a.stopAll order).sources.get? id = some t) : t.active = false := by
  rw [get?_stopAll filed] at found
  obtain ⟨s, _, rfl⟩ := Option.map_eq_some_iff.1 found
  exact s.deactivate_active .stopped

theorem stopAll_engine (a : Aggregator) (order : List String) : (a.stopAll order).engine = a.engine := by
  obtain ⟨sources, log, shape⟩ := a.stopEach_shape (order ++ a.sources.keys)
  rw [stopAll, shape]

/-! ## Adding a source -/

/-- The aggregator after it has added a source that has its subscription. -/
def begun (a : Aggregator) (id : String) (feed : Feed) (line : Nat) : Aggregator :=
  let s := Source.new id (a.lastGeneration + 1)
  { a with
    feed
    sources := a.sources.insert id s
    lastGeneration := a.lastGeneration + 1
    pumps := a.pumps ++ [⟨id, a.lastGeneration + 1, line, none, false⟩]
    log := a.log ++ [s.status] }

/-- The aggregator after it has added a source that got no subscription. -/
def refused (a : Aggregator) (id reason : String) : Aggregator :=
  let s := (Source.new id (a.lastGeneration + 1)).deactivate (.failed reason)
  { a with
    sources := a.sources.insert id s
    lastGeneration := a.lastGeneration + 1
    log := a.log ++ [s.status] }

section
variable {name : String} (spelled : Text.trim name ≠ "") (up : a.isDown = false)
  (idle : (a.sources.get? (Text.trim name)).any (·.active) = false)
include spelled up idle

theorem addSource_begun {feed : Feed} {line : Nat}
    (subscribed : a.feed.subscribe (Text.trim name) = .ok (feed, line)) :
    a.addSource name = (a.begun (Text.trim name) feed line, .ok true) := by
  simp only [addSource, spelled, up, idle, if_false, Bool.false_eq_true, setSource, subscribed, begun]
  rfl

theorem addSource_refused {error : FeedError}
    (failed : a.feed.subscribe (Text.trim name) = .error error) :
    a.addSource name =
      (a.refused (Text.trim name) error.message, .error (.feed (Text.trim name) error)) := by
  simp only [addSource, spelled, up, idle, if_false, Bool.false_eq_true, setSource, failed,
    closeSource, Source.new, SortedMap.get?_insert_self, decide_true, Bool.and_self, if_true,
    setAndPublish, publishStatus, Source.deactivate, SortedMap.insert_insert, refused]

end

/-- A source that is added is active from then on or has failed, unless it is active already. -/
theorem addSource_cases (a : Aggregator) (name : String) :
    (a.addSource name).1 = a ∧ a.occurs? (.add name) = none ∨
    (∃ feed line, a.feed.subscribe (Text.trim name) = .ok (feed, line) ∧ a.isDown = false ∧
      (a.addSource name).1 = a.begun (Text.trim name) feed line ∧
      a.occurs? (.add name) = some (.added (Text.trim name) (a.lastGeneration + 1))) ∨
    ∃ reason, (a.addSource name).1 = a.refused (Text.trim name) reason ∧
      a.occurs? (.add name) = none := by
  simp only [occurs?]
  by_cases spelled : Text.trim name = ""
  · exact .inl (by simp [addSource, spelled])
  cases down : a.isDown with
  | true => exact .inl (by simp [addSource, spelled, down])
  | false =>
    cases active : (a.sources.get? (Text.trim name)).any (·.active) with
    | true => exact .inl (by simp [addSource, spelled, down, active])
    | false =>
      cases subscribed : a.feed.subscribe (Text.trim name) with
      | ok begun =>
        obtain ⟨feed, line⟩ := begun
        rw [addSource_begun spelled down active subscribed]
        exact .inr (.inl ⟨feed, line, rfl, rfl, rfl, rfl⟩)
      | error error =>
        rw [addSource_refused spelled down active subscribed]
        exact .inr (.inr ⟨error.message, rfl, rfl⟩)

end Aggregator

end BlockGraph
