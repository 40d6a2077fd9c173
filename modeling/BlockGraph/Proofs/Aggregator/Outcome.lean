import BlockGraph.Proofs.Aggregator.Plan

/-!
# The outcome of a source

When feeds follow a plan and nobody interferes, it does not matter who comes when: what is applied for
a source in the end, and what the registry says of it, follows from its headers and the cap.

* `share`, `outcome` — what is to be applied for a source, and what is to be said of it.
* `Source.Standing`, `Tallied` — where a source stands before that.
* `Orderly`, `Orderly.turn`, `Orderly.played` — what holds at any time, kept by every turn.
* `Orderly.settled` — when no source is active any more, every source has its outcome.
-/

namespace BlockGraph

open Occurrence

/-- The headers that were applied for a source. -/
def Occurrence.appliedFor (id : String) (past : List Occurrence) : List Header :=
  ((allAccepted past).filter fun a => a.source = id).map (·.header)

theorem Occurrence.appliedFor_accepted (id source : String) (generation : Option Nat) (header : Header)
    (past : List Occurrence) :
    appliedFor id (.accepted source generation header :: past) =
      if source = id then appliedFor id past ++ [header] else appliedFor id past := by
  have more : allAccepted (.accepted source generation header :: past) =
      allAccepted past ++ [⟨source, header⟩] := rfl
  rw [appliedFor, more, List.filter_append, List.map_append]
  by_cases same : source = id <;> simp [appliedFor, same]

/-- The headers that are to be applied for a source: those that have a hash, as many as the cap
allows. -/
def share (cap : Option Nat) (headers : List Header) : List Header :=
  match cap with
  | some n => (named headers).take n
  | none => named headers

/-- What is to be said of a source in the end. -/
def outcome (cap : Option Nat) (id : String) (headers : List Header) : SourceStatus where
  id := id
  active := false
  observedCount := (share cap headers).length
  latestHash := (share cap headers).getLast?.map (·.hash)
  state := if cap.any (· ≤ (named headers).length) then .capReached else .ended

namespace Source

/-- A source is active and may have more headers, or it has had as many as it may, or it has had
everything. -/
inductive Standing (cap : Option Nat) (complete : Prop) (s : Source) : Prop
  | running (active : s.active = true) (room : s.isFull cap = false)
  | full (idle : s.active = false) (state : s.state = .capReached) (reached : cap = some s.observedCount)
  | done (idle : s.active = false) (state : s.state = .ended) (room : s.isFull cap = false)
      (complete : complete)

variable {cap : Option Nat} {complete : Prop} {s : Source}

theorem Standing.imp {more : Prop} (standing : s.Standing cap complete) (grown : complete → more) :
    s.Standing cap more := by
  cases standing with
  | running active room => exact .running active room
  | full idle state reached => exact .full idle state reached
  | done idle state room complete => exact .done idle state room (grown complete)

theorem Standing.room (standing : s.Standing cap complete) (active : s.active = true) :
    s.isFull cap = false := by
  cases standing with
  | running _ room => exact room
  | full idle => rw [active] at idle; cases idle
  | done idle => rw [active] at idle; cases idle

/-- The header that uses up the cap ends the activity of its source. -/
theorem Standing.recorded (standing : s.Standing cap complete) (active : s.active = true)
    (hash : String) : ((s.record hash).capped cap).Standing cap complete := by
  have room := standing.room active
  have running : (s.record hash).active = true := active
  unfold capped
  split
  next full =>
    refine .full (deactivate_active ..) ?_ ?_
    · rw [deactivate, if_pos running]
    · rw [deactivate, if_pos running]
      cases cap with
      | none => cases full
      | some n =>
        have reached : n ≤ s.observedCount + 1 := of_decide_eq_true full
        have before : s.observedCount < n := by simpa [isFull] using room
        exact congrArg some (Nat.le_antisymm reached before)
  next spare => exact .running running (Bool.not_eq_true _ ▸ spare)

theorem deactivate_count (s : Source) (state : SourceState) :
    (s.deactivate state).observedCount = s.observedCount ∧
      (s.deactivate state).latestHash = s.latestHash := by
  unfold deactivate
  split <;> exact ⟨rfl, rfl⟩

theorem capped_count (s : Source) (cap : Option Nat) :
    (s.capped cap).observedCount = s.observedCount ∧ (s.capped cap).latestHash = s.latestHash := by
  unfold capped
  split
  · exact s.deactivate_count _
  · exact ⟨rfl, rfl⟩

end Source

namespace Aggregator

variable {settings : Settings} {plan : String → List Header} {ids : List String}
  {a b : Aggregator} {past later : List Occurrence}

/-- The entry of a source tells what was applied for it, and where it stands. -/
structure Tallied (settings : Settings) (plan : String → List Header) (past : List Occurrence)
    (id : String) (s : Source) : Prop where
  counted : s.observedCount = (appliedFor id past).length
  latest : s.latestHash = (appliedFor id past).getLast?.map (·.hash)
  applied : appliedFor id past = acceptedThrough id s.generation past
  holder : holder? id past = some s.generation
  standing : s.Standing settings.eventCap (publishedTo id s.generation past = plan id)

/-- The registry has an entry for each source that was added, and for no other. -/
structure Registered (settings : Settings) (plan : String → List Header) (ids : List String)
    (a : Aggregator) (past : List Occurrence) : Prop where
  settled : a.settings = settings
  up : a.isDown = false
  known : ∀ id, (∃ s, a.sources.get? id = some s) ↔ id ∈ ids
  stranger : ∀ id, a.sources.get? id = none → appliedFor id past = [] ∧ holder? id past = none
  tallied : ∀ id s, a.sources.get? id = some s → Tallied settings plan past id s

theorem Tallied.congr {id : String} {s : Source} (tallied : Tallied settings plan past id s)
    (applied : appliedFor id later = appliedFor id past)
    (accepted : acceptedThrough id s.generation later = acceptedThrough id s.generation past)
    (holder : holder? id later = holder? id past)
    (complete : publishedTo id s.generation past = plan id →
      publishedTo id s.generation later = plan id) : Tallied settings plan later id s where
  counted := applied ▸ tallied.counted
  latest := applied ▸ tallied.latest
  applied := by rw [applied, accepted, tallied.applied]
  holder := holder.trans tallied.holder
  standing := tallied.standing.imp complete

/-- A source that is added has no headers yet, and may have some. -/
theorem Tallied.new (sound : a.Sound past) (positive : settings.eventCap ≠ some 0) {id : String}
    (nothing : appliedFor id past = []) :
    Tallied settings plan (.added id (a.lastGeneration + 1) :: past) id
      (.new id (a.lastGeneration + 1)) where
  counted := (congrArg List.length nothing).symm
  latest := (congrArg (fun l => l.getLast?.map Header.hash) nothing).symm
  applied := nothing.trans (sound.unused id).2.symm
  holder := if_pos rfl
  standing := by
    refine .running rfl ?_
    cases cap : settings.eventCap with
    | none => rfl
    | some n =>
      have some : n ≠ 0 := fun zero => positive (cap.trans (congrArg some zero))
      simp [Source.isFull, Source.new, some]

namespace Registered

theorem congr (registered : Registered settings plan ids a past) (same : b.settings = a.settings)
    (up : b.isDown = a.isDown) (sources : b.sources = a.sources)
    (applied : ∀ id, appliedFor id later = appliedFor id past)
    (accepted : ∀ id g, acceptedThrough id g later = acceptedThrough id g past)
    (holder : ∀ id, holder? id later = holder? id past)
    (complete : ∀ id g, publishedTo id g past = plan id → publishedTo id g later = plan id) :
    Registered settings plan ids b later where
  settled := same.trans registered.settled
  up := up.trans registered.up
  known := sources ▸ registered.known
  stranger id absent := by
    rw [applied, holder]
    exact registered.stranger id (sources ▸ absent)
  tallied id s found :=
    (registered.tallied id s (sources ▸ found)).congr (applied id) (accepted id _) (holder id)
      (complete id _)

theorem stays (registered : Registered settings plan ids a past) (same : b.settings = a.settings)
    (up : b.isDown = a.isDown) (sources : b.sources = a.sources) :
    Registered settings plan ids b past :=
  registered.congr same up sources (fun _ => rfl) (fun _ _ => rfl) (fun _ => rfl) fun _ _ all => all

/-- The entry of one source changes. -/
theorem replaced (registered : Registered settings plan ids a past) (same : b.settings = a.settings)
    (up : b.isDown = a.isDown) {id : String} {s t : Source} (found : a.sources.get? id = some s)
    (sources : ∀ other, b.sources.get? other = if other = id then some t else a.sources.get? other)
    (tallied : Tallied settings plan later id t)
    (applied : ∀ other, other ≠ id → appliedFor other later = appliedFor other past)
    (accepted : ∀ other g, other ≠ id →
      acceptedThrough other g later = acceptedThrough other g past)
    (holder : ∀ other, holder? other later = holder? other past)
    (published : ∀ other g, publishedTo other g later = publishedTo other g past) :
    Registered settings plan ids b later := by
  refine ⟨same.trans registered.settled, up.trans registered.up, ?_, ?_, ?_⟩
  · intro other
    rw [sources, ← registered.known]
    split
    next own => exact ⟨fun _ => ⟨s, own ▸ found⟩, fun _ => ⟨t, rfl⟩⟩
    next => rfl
  · intro other absent
    rw [sources] at absent
    split at absent
    · cases absent
    next differ =>
      rw [applied other differ, holder]
      exact registered.stranger other absent
  · intro other u after
    rw [sources] at after
    split at after
    next own =>
      obtain rfl := Option.some.inj after
      exact own ▸ tallied
    next differ =>
      exact (registered.tallied other u after).congr (applied other differ) (accepted other _ differ)
        (holder other) fun complete => (published other _).trans complete

theorem taken (filed : a.Filed) (registered : Registered settings plan ids a past) {id : String}
    {generation : Nat} {header : Header}
    (taken : a.takes id (some generation) header = true) :
    Registered settings plan ids (a.ingested id (some generation) header)
      (.accepted id (some generation) header :: past) := by
  obtain ⟨s, found, accepts, _, after⟩ := ingested_taken taken
  obtain ⟨active, rfl⟩ : s.active = true ∧ generation = s.generation := by
    simpa [Source.accepts] using accepts
  have old := registered.tallied id s found
  -- The header comes last, both in what was applied and in what the entry tells.
  have one : appliedFor id (.accepted id (some s.generation) header :: past) =
      appliedFor id past ++ [header] := by rw [appliedFor_accepted, if_pos rfl]
  have fades := (s.record_fades header.hash).trans (Source.capped_fades _ a.settings.eventCap)
  obtain ⟨count, latest⟩ := (s.record header.hash).capped_count a.settings.eventCap
  have tallied : Tallied settings plan (.accepted id (some s.generation) header :: past) id
      ((s.record header.hash).capped a.settings.eventCap) := by
    refine ⟨?_, ?_, ?_, ?_, ?_⟩
    · rw [count, one, List.length_append, ← old.counted]
      rfl
    · rw [latest, one, List.getLast?_concat]
      rfl
    · rw [one, fades.generation, old.applied]
      exact (if_pos ⟨rfl, rfl⟩).symm
    · rw [fades.generation]
      exact old.holder
    · rw [fades.generation, registered.settled]
      exact old.standing.recorded active header.hash
  rw [after]
  refine registered.replaced rfl rfl found (fun other => ?_) tallied (fun other differ => ?_)
    (fun other g differ => if_neg fun same => differ same.1.symm) (fun _ => rfl) (fun _ _ => rfl)
  · rw [get?_setAndPublish, fades.id, filed id s found]
  · rw [appliedFor_accepted, if_neg (Ne.symm differ)]

theorem closed (filed : a.Filed) (registered : Registered settings plan ids a past) {id : String}
    {generation : Nat} (complete : publishedTo id generation past = plan id) :
    Registered settings plan ids (a.closeSource id generation .ended) past := by
  rcases a.closeSource_cases id generation .ended with same | ⟨s, found, rfl, active, after⟩
  · rwa [same]
  have old := registered.tallied id s found
  have tallied : Tallied settings plan past id { s with active := false, state := .ended } :=
    ⟨old.counted, old.latest, old.applied, old.holder,
      .done rfl rfl (old.standing.room active) complete⟩
  rw [after]
  refine registered.replaced rfl rfl found (fun other => ?_) tallied (fun _ _ => rfl)
    (fun _ _ _ => rfl) (fun _ => rfl) (fun _ _ => rfl)
  rw [get?_setAndPublish, filed id s found]

theorem absent (registered : Registered settings plan ids a past) {id : String} (new : id ∉ ids) :
    a.sources.get? id = none := by
  cases found : a.sources.get? id with
  | none => rfl
  | some s => exact absurd ((registered.known id).1 ⟨s, found⟩) new

theorem begun (sound : a.Sound past) (registered : Registered settings plan ids a past) {id : String}
    (new : id ∉ ids) (positive : settings.eventCap ≠ some 0) (feed : Feed) (n : Nat) :
    Registered settings plan (ids ++ [id]) (a.begun id feed n)
      (.added id (a.lastGeneration + 1) :: past) := by
  have absent := registered.absent new
  have sources : ∀ other, (a.begun id feed n).sources.get? other =
      if other = id then some (.new id (a.lastGeneration + 1)) else a.sources.get? other :=
    fun _ => SortedMap.get?_insert ..
  have holder : ∀ other, other ≠ id →
      holder? other (.added id (a.lastGeneration + 1) :: past) = holder? other past :=
    fun _ differ => if_neg (Ne.symm differ)
  refine ⟨registered.settled, registered.up, ?_, ?_, ?_⟩
  · intro other
    rw [sources, List.mem_append, List.mem_singleton, ← registered.known]
    split
    next own => exact ⟨fun _ => .inr own, fun _ => ⟨_, rfl⟩⟩
    next differ => exact ⟨.inl, fun either => either.resolve_right differ⟩
  · intro other missing
    rw [sources] at missing
    split at missing
    · cases missing
    next differ =>
      rw [holder other differ]
      exact registered.stranger other missing
  · intro other s found
    rw [sources] at found
    split at found
    next own =>
      subst own
      obtain rfl := Option.some.inj found
      exact .new sound positive (registered.stranger other absent).1
    next differ =>
      exact (registered.tallied other s found).congr rfl rfl (holder other differ) fun all => all

end Registered

theorem Passed.registry {p : Pump} (passed : Passed a p b) :
    b.settings = a.settings ∧ b.isDown = a.isDown ∧ b.sources = a.sources := by
  cases passed <;> exact ⟨rfl, rfl, rfl⟩

end Aggregator

/-! ## Turns -/

namespace Course

variable {c : Course} {name : String}

theorem next_blank (spelled : Text.trim name = "") : c.next (.add name) = c := by
  simp [Course.next, Aggregator.act, Aggregator.occurs?, Aggregator.addSource, spelled]

theorem next_begun (spelled : Text.trim name ≠ "") (up : c.now.isDown = false)
    (absent : c.now.sources.get? (Text.trim name) = none) {feed : Feed} {n : Nat}
    (subscribed : c.now.feed.subscribe (Text.trim name) = .ok (feed, n)) :
    c.next (.add name) = ⟨c.now.begun (Text.trim name) feed n,
      .added (Text.trim name) (c.now.lastGeneration + 1) :: c.past⟩ := by
  have idle : (c.now.sources.get? (Text.trim name)).any (·.active) = false := by rw [absent]; rfl
  simp only [Course.next, Aggregator.act, Aggregator.occurs?,
    Aggregator.addSource_begun spelled up idle subscribed]
  rfl

end Course

/-- What holds at any time of a run without interference. -/
structure Orderly (settings : Settings) (plan : String → List Header) (ids : List String)
    (c : Course) : Prop where
  sound : c.now.Sound c.past
  supplied : c.now.Supplied plan c.past
  registered : c.now.Registered settings plan ids c.past

namespace Orderly

open Aggregator

variable {settings : Settings} {plan : String → List Header} {ids : List String} {c : Course}

theorem start (settings : Settings) (plan : String → List Header) (capacity : Nat) :
    Orderly settings plan [] (.start settings capacity) where
  sound := Course.start_sound settings capacity
  supplied :=
    { willing := ⟨_, rfl, rfl⟩
      planned := fun _ _ => List.nil_prefix
      onLine := fun _ _ _ here => nomatch here
      held := fun _ _ _ here => nomatch here
      queued := fun _ _ _ member => nomatch member }
  registered :=
    { settled := rfl
      up := rfl
      known := fun _ => ⟨fun ⟨_, found⟩ => (nomatch found), fun member => nomatch member⟩
      stranger := fun _ _ => ⟨rfl, rfl⟩
      tallied := fun _ _ found => nomatch found }

/-- What has to be shown of a move whose result is known. -/
theorem next (orderly : Orderly settings plan ids c) {m : Move} {d : Course} (after : c.next m = d)
    {more : List String} (supplied : d.now.Supplied plan d.past)
    (registered : d.now.Registered settings plan more d.past) :
    Orderly settings plan more (c.next m) := by
  have sound := (act_onward orderly.sound m).sound
  subst after
  exact ⟨sound, supplied, registered⟩

theorem add (orderly : Orderly settings plan ids c) (positive : settings.eventCap ≠ some 0)
    {name : String} (new : Text.trim name ≠ "" → Text.trim name ∉ ids) :
    Orderly settings plan (ids ++ (Turn.add name).added?.toList) (c.next (.add name)) := by
  by_cases spelled : Text.trim name = ""
  · simpa [Course.next_blank spelled, Turn.added?, spelled] using orderly
  · obtain ⟨f, n, subscribed, willing⟩ := orderly.supplied.subscribes (Text.trim name)
    have absent := orderly.registered.absent (new spelled)
    have added : (Turn.add name).added?.toList = [Text.trim name] := by simp [Turn.added?, spelled]
    rw [added]
    exact orderly.next (Course.next_begun spelled orderly.registered.up absent subscribed)
      (orderly.supplied.begun orderly.sound.wired subscribed willing
        (orderly.registered.stranger _ absent).2)
      (orderly.registered.begun orderly.sound (new spelled) positive _ n)

theorem feed (orderly : Orderly settings plan ids c) (id : String) :
    Orderly settings plan ids (c.turn plan (.feed id)) := by
  have wired := orderly.sound.wired
  obtain ⟨f, channel⟩ := orderly.supplied.channel
  cases next : (plan id).drop (delivered id c.past).length with
  | nil =>
    have turn : c.turn plan (.feed id) = c.next (.close id) := by
      simp only [Course.turn, Turn.move, next]
    have after : c.next (.close id) = ⟨c.now.hungUp id, c.past⟩ := rfl
    rw [turn]
    refine orderly.next after (orderly.supplied.closed wired next) ?_
    rw [hungUp_eq channel]
    exact orderly.registered.stays rfl rfl rfl
  | cons header rest =>
    have turn : c.turn plan (.feed id) = c.next (.publish id header) := by
      simp only [Course.turn, Turn.move, next]
    rw [turn]
    rcases publish_cases ⟨f, channel⟩ id header with
      ⟨same, note⟩ | ⟨n, line, current, read, delivers, note⟩
    · have after : c.next (.publish id header) = c := by rw [Course.next, same, note]; rfl
      rwa [after]
    · have after : c.next (.publish id header) =
          ⟨c.now.withLine n { line with queue := line.queue ++ [.ok header] },
            .published id header :: c.past⟩ := by rw [Course.next, delivers, note]; rfl
      exact orderly.next after (orderly.supplied.published wired next current read)
        (orderly.registered.congr rfl rfl rfl (fun _ => rfl) (fun _ _ => rfl) (fun _ => rfl)
          fun _ _ all => orderly.supplied.complete_stays next all)

theorem forward (orderly : Orderly settings plan ids c) (generation : Nat) :
    Orderly settings plan ids (c.next (.forward generation)) := by
  cases here : c.now.pump? generation with
  | none =>
    have after : c.next (.forward generation) = c := by simp [Course.next, act, occurs?, here]
    rwa [after]
  | some p =>
    have after : c.next (.forward generation) = ⟨(c.now.forward p).getD c.now, c.past⟩ := by
      simp [Course.next, act, occurs?, here]
    have passed := forward_passed orderly.sound.wired here
    obtain ⟨settled, up, sources⟩ := passed.registry
    exact orderly.next after (orderly.supplied.passed orderly.sound.wired here passed)
      (orderly.registered.stays settled up sources)

theorem cancel (orderly : Orderly settings plan ids c) (generation : Nat) :
    Orderly settings plan ids (c.next (.cancel generation)) := by
  have after : c.next (.cancel generation) = c ∨
      ∃ p, c.next (.cancel generation) = ⟨c.now.endPump p, c.past⟩ := by
    cases here : c.now.pump? generation with
    | none => exact .inl (by simp [Course.next, act, occurs?, here])
    | some p =>
      cases current : c.now.isCurrent p.source generation with
      | true => exact .inl (by simp [Course.next, act, occurs?, here, current])
      | false => exact .inr ⟨p, by simp [Course.next, act, occurs?, here, current]⟩
  rcases after with same | ⟨p, after⟩
  · rwa [same]
  · exact orderly.next after (orderly.supplied.endPump p) (orderly.registered.stays rfl rfl rfl)

section
variable {generation : Nat} {rest : List QueueItem}

theorem perform_closed (orderly : Orderly settings plan ids c) {id : String} {state : SourceState}
    (queue : c.now.queue = .closed id generation state :: rest) :
    Orderly settings plan ids (c.next .perform) := by
  obtain ⟨rfl, complete⟩ := orderly.supplied.queued id generation state
    (by rw [queue]; exact List.mem_cons_self)
  have after : c.next .perform = ⟨(c.now.popped rest).closeSource id generation .ended, c.past⟩ := by
    simp only [Course.next, act, performNext, occurs?, queue]
    rfl
  have left : ∀ item ∈ rest, item ∈ c.now.queue := fun _ member =>
    queue ▸ List.mem_cons_of_mem _ member
  have registered : (c.now.popped rest).Registered settings plan ids c.past :=
    orderly.registered.stays rfl rfl rfl
  have filed : (c.now.popped rest).Filed := orderly.sound.filed
  refine orderly.next after ?_ (registered.closed filed complete)
  rcases (c.now.popped rest).closeSource_cases id generation .ended with same | ⟨_, _, _, _, ends⟩
  · rw [same]
    exact orderly.supplied.popped rfl rfl left fun _ _ => rfl
  · rw [ends]
    exact orderly.supplied.popped rfl rfl left fun _ _ => rfl

theorem perform_header (orderly : Orderly settings plan ids c) {id : String} {header : Header}
    (queue : c.now.queue = .header id generation header :: rest) :
    Orderly settings plan ids (c.next .perform) := by
  have acts : c.now.act .perform = (c.now.popped rest).ingested id (some generation) header := by
    simp only [act, performNext, queue]
    rfl
  have left : ∀ item ∈ rest, item ∈ c.now.queue := fun _ member =>
    queue ▸ List.mem_cons_of_mem _ member
  have registered : (c.now.popped rest).Registered settings plan ids c.past :=
    orderly.registered.stays rfl rfl rfl
  have filed : (c.now.popped rest).Filed := orderly.sound.filed
  cases taken : c.now.takes id (some generation) header with
  | true =>
    have after : c.next .perform = ⟨(c.now.popped rest).ingested id (some generation) header,
        .accepted id (some generation) header :: c.past⟩ := by
      rw [Course.next, acts]
      simp [occurs?, queue, taken]
    have fading := ingested_fading filed id (some generation) header
    refine orderly.next after ?_ (registered.taken filed taken)
    refine orderly.supplied.popped fading.feed fading.pumps (fun item member => ?_) fun _ _ => rfl
    rw [fading.queue] at member
    exact left item member
  | false =>
    -- No source that is active has had its share, so a header that is not counted has no effect.
    have same : (c.now.popped rest).ingested id (some generation) header = c.now.popped rest := by
      refine ingested_ignored taken fun s found active => ?_
      rw [registered.settled]
      exact (registered.tallied id s found).standing.room active
    have after : c.next .perform = ⟨c.now.popped rest, c.past⟩ := by
      rw [Course.next, acts, same]
      simp [occurs?, queue, taken]
    exact orderly.next after (orderly.supplied.popped rfl rfl left fun _ _ => rfl) registered

end

theorem perform (orderly : Orderly settings plan ids c) :
    Orderly settings plan ids (c.next .perform) := by
  cases queue : c.now.queue with
  | nil =>
    have after : c.next .perform = c := by simp [Course.next, act, performNext, occurs?, queue]
    rwa [after]
  | cons item rest =>
    cases item with
    | closed => exact orderly.perform_closed queue
    | header => exact orderly.perform_header queue

theorem turn (orderly : Orderly settings plan ids c) (positive : settings.eventCap ≠ some 0) (t : Turn)
    (new : ∀ id, t.added? = some id → id ∉ ids) :
    Orderly settings plan (ids ++ t.added?.toList) (c.turn plan t) := by
  cases t with
  | add name => exact orderly.add positive fun spelled => new _ (if_neg spelled)
  | feed id => exact (List.append_nil ids).symm ▸ orderly.feed id
  | forward generation => exact (List.append_nil ids).symm ▸ orderly.forward generation
  | cancel generation => exact (List.append_nil ids).symm ▸ orderly.cancel generation
  | perform => exact (List.append_nil ids).symm ▸ orderly.perform

theorem played (orderly : Orderly settings plan ids c) (positive : settings.eventCap ≠ some 0)
    (turns : List Turn) (once : (ids ++ turns.filterMap Turn.added?).Nodup) :
    Orderly settings plan (ids ++ turns.filterMap Turn.added?) (c.played plan turns) := by
  induction turns generalizing ids c with
  | nil =>
    rw [List.filterMap_nil, List.append_nil]
    exact orderly
  | cons t turns ih =>
    have first := orderly.turn positive t fun _ => Turn.added?_new once
    rw [Turn.added?_cons, ← List.append_assoc] at once ⊢
    exact ih first once

/-! ## When no source is active -/

/-- A source that is not active has had its share, and the registry says so. -/
theorem source_settled (orderly : Orderly settings plan ids c) {id : String} {s : Source}
    (found : c.now.sources.get? id = some s) (idle : s.active = false) :
    appliedFor id c.past = share settings.eventCap (plan id) ∧
      s.status = outcome settings.eventCap id (plan id) := by
  have tallied := orderly.registered.tallied id s found
  have planned : appliedFor id c.past <+: named (plan id) := by
    rw [tallied.applied]
    exact (orderly.sound.credited id _).trans ((orderly.supplied.planned id _).filter _)
  have applied : appliedFor id c.past = share settings.eventCap (plan id) ∧
      s.state = if settings.eventCap.any (· ≤ (named (plan id)).length) then .capReached else .ended := by
    cases tallied.standing with
    | running active => rw [active] at idle; cases idle
    -- As many as the cap allows were applied, and they are the first ones of the plan.
    | full _ state reached =>
      have enough : (appliedFor id c.past).length ≤ (named (plan id)).length := planned.length_le
      rw [reached, tallied.counted, state, share]
      exact ⟨List.prefix_iff_eq_take.1 planned, by simp [enough]⟩
    -- Everything was applied, and the cap would have allowed one more.
    | done _ state room complete =>
      have whole := (orderly.sound.ended id s found state).whole
      rw [← tallied.applied, complete] at whole
      rw [Source.isFull, tallied.counted, whole] at room
      rw [whole, state, room]
      refine ⟨?_, rfl⟩
      unfold share
      split
      next n cap =>
        rw [cap, Option.any_some, decide_eq_false_iff_not] at room
        exact (List.take_of_length_le (Nat.le_of_not_le room)).symm
      next => rfl
  refine ⟨applied.1, ?_⟩
  rw [Source.status, outcome, orderly.sound.filed id s found, idle, tallied.counted, tallied.latest,
    applied.1, applied.2]

/-- When no source is active any more, every source that was added has had its share, and no other
source is known. -/
theorem settled (orderly : Orderly settings plan ids c) (idle : c.now.activeCount = 0) (id : String) :
    appliedFor id c.past = (if id ∈ ids then share settings.eventCap (plan id) else []) ∧
      c.now.status? id = if id ∈ ids then some (outcome settings.eventCap id (plan id)) else none := by
  by_cases member : id ∈ ids
  · obtain ⟨s, found⟩ := (orderly.registered.known id).2 member
    have stopped := activeCount_eq_zero_iff.1 idle id s found
    obtain ⟨applied, status⟩ := orderly.source_settled found stopped
    rw [if_pos member, if_pos member, status?, found, Option.map_some, status]
    exact ⟨applied, rfl⟩
  · have absent := orderly.registered.absent member
    rw [if_neg member, if_neg member, status?, absent]
    exact ⟨(orderly.registered.stranger id absent).1, rfl⟩

end Orderly

end BlockGraph
