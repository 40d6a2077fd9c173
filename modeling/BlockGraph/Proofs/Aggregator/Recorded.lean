import BlockGraph.Proofs.Aggregator.Outcome

/-!
# Recordings

A line of a recording carries everything from the start and is closed. That is what a channel feed
comes to that delivers everything as soon as a source is added, so a run over recordings is one of the
runs over a channel feed.

* `refed`, `act_refed` — pumps and the mutation loop only see lines, not where these come from.
* `Turn.unrolled`, `Mirrors.played` — the run over a channel feed that a run over recordings is.
* `Course.played_outcome` — the outcome of every source, over feeds of either kind.
-/

namespace BlockGraph

open Occurrence

namespace Aggregator

variable {a : Aggregator} {id : String} {generation : Option Nat} {header : Header}

/-! ## Where lines come from -/

/-- The aggregator with its lines on another feed. -/
def refed (a : Aggregator) (feed : Lines → Feed) : Aggregator := { a with feed := feed a.feed.lines }

/-- A feed that is told by its lines. -/
structure Faithful (feed : Lines → Feed) : Prop where
  lines : ∀ ls, (feed ls).lines = ls
  withLines : ∀ ls other, (feed ls).withLines other = feed other

section
variable {feed : Lines → Feed} (faithful : Faithful feed)
include faithful

theorem endPump_refed (p : Pump) : (a.refed feed).endPump p = (a.endPump p).refed feed := by
  simp only [endPump, refed, feed_withLines, faithful.lines, faithful.withLines]

theorem enqueue_refed (p : Pump) (item : QueueItem) :
    (a.refed feed).enqueue p item = (a.enqueue p item).map (·.refed feed) := by
  have room : (a.refed feed).queueRoom = a.queueRoom := rfl
  have queue : (a.refed feed).queue = a.queue := rfl
  unfold enqueue
  rw [room, queue]
  split
  · cases last : p.isLast with
    | true => exact congrArg some (endPump_refed (a := a.push item) faithful p)
    | false => rfl
  · rfl

theorem fetch_refed (p : Pump) :
    (a.refed feed).fetch p = (a.fetch p).map (·.refed feed) := by
  have lines : (a.refed feed).feed.lines = a.feed.lines := faithful.lines _
  unfold fetch
  rw [lines]
  obtain ⟨left, received⟩ := a.feed.lines.take p.line
  have relined : { a.refed feed with feed := (a.refed feed).feed.withLines left } =
      { a with feed := a.feed.withLines left }.refed feed := by
    simp only [refed, feed_withLines, faithful.withLines]
  dsimp only
  rw [relined]
  cases received with
  | item item => cases item <;> rfl
  | ended => rfl
  | pending => rfl

theorem forward_refed (p : Pump) : (a.refed feed).forward p = (a.forward p).map (·.refed feed) := by
  unfold forward
  cases p.holding with
  | some item => exact enqueue_refed faithful p item
  | none => exact fetch_refed faithful p

end

theorem ingested_refed (feed : Lines → Feed) :
    (a.refed feed).ingested id generation header = (a.ingested id generation header).refed feed := by
  have sources : (a.refed feed).sources = a.sources := rfl
  have settings : (a.refed feed).settings = a.settings := rfl
  have engine : (a.refed feed).engine = a.engine := rfl
  unfold ingested ingest
  rw [sources, settings, engine]
  cases a.sources.get? id with
  | none => rfl
  | some s =>
    cases accepts : s.accepts generation with
    | false => simp [accepts]
    | true =>
      cases full : s.isFull a.settings.eventCap with
      | true =>
        simp only [accepts, full]
        rfl
      | false =>
        simp only [accepts, full]
        cases a.engine.apply id header <;> rfl

theorem closeSource_refed (feed : Lines → Feed) (id : String) (generation : Nat) (state : SourceState) :
    (a.refed feed).closeSource id generation state =
      (a.closeSource id generation state).refed feed := by
  unfold closeSource
  simp only [refed]
  split
  · split <;> rfl
  · rfl

/-- Moves in the background. -/
inductive Background : Move → Prop
  | forward (generation : Nat) : Background (.forward generation)
  | cancel (generation : Nat) : Background (.cancel generation)
  | perform : Background .perform

/-- Pumps and the mutation loop only see lines. -/
theorem act_refed {feed : Lines → Feed} (faithful : Faithful feed) {m : Move} (background : Background m) :
    (a.refed feed).act m = (a.act m).refed feed ∧ (a.refed feed).occurs? m = a.occurs? m := by
  cases background with
  | forward generation =>
    refine ⟨?_, rfl⟩
    show ((a.pump? generation).bind (a.refed feed).forward).getD (a.refed feed) = _
    cases here : a.pump? generation with
    | none => simp only [act, here]; rfl
    | some p =>
      simp only [act, here, Option.bind_some, forward_refed faithful]
      cases a.forward p <;> rfl
  | cancel generation =>
    refine ⟨?_, rfl⟩
    have pump : (a.refed feed).pump? generation = a.pump? generation := rfl
    have current : ∀ id g, (a.refed feed).isCurrent id g = a.isCurrent id g := fun _ _ => rfl
    simp only [act, pump, current]
    cases a.pump? generation with
    | none => rfl
    | some p =>
      simp only [endPump_refed faithful]
      split <;> rfl
  | perform =>
    refine ⟨?_, rfl⟩
    show ((a.refed feed).performNext).getD (a.refed feed) = _
    have queue : (a.refed feed).queue = a.queue := rfl
    cases items : a.queue with
    | nil => simp only [act, performNext, queue, items]; rfl
    | cons item rest =>
      simp only [act, performNext, queue, items]
      cases item with
      | header source generation header => exact ingested_refed (a := a.popped rest) feed
      | closed source generation state => exact closeSource_refed (a := a.popped rest) feed ..

end Aggregator

/-! ## Runs over recordings -/

/-- The channel feed whose lines are given and which has no subscription. -/
def channelAt (capacity : Nat) (lines : Lines) : Feed := .channel ⟨capacity, lines, .empty, .empty⟩

theorem Aggregator.Faithful.channelAt (capacity : Nat) : Faithful (channelAt capacity) :=
  ⟨fun _ => rfl, fun _ _ => rfl⟩

theorem Aggregator.Faithful.replay (f : ReplayFeed) : Faithful (.replay f) :=
  ⟨fun _ => rfl, fun _ _ => rfl⟩

namespace Turn

/-- The turns of a run over a channel feed that do what a turn of a run over recordings does: when a
source is added, its feed delivers everything and closes. -/
def unrolled (plan : String → List Header) : Turn → List Turn
  | .add name =>
    .add name :: if Text.trim name = "" then []
      else List.replicate ((plan (Text.trim name)).length + 1) (.feed (Text.trim name))
  | .feed _ => []
  | t => [t]

theorem added?_unrolled (plan : String → List Header) (t : Turn) :
    (t.unrolled plan).filterMap added? = t.added?.toList := by
  cases t with
  | add name =>
    by_cases spelled : Text.trim name = "" <;>
      simp [unrolled, added?, spelled, List.filterMap_replicate]
  | feed | forward | cancel | perform => rfl

theorem added?_flatMap (plan : String → List Header) (turns : List Turn) :
    (turns.flatMap (unrolled plan)).filterMap added? = turns.filterMap added? := by
  induction turns with
  | nil => rfl
  | cons t turns ih =>
    rw [List.flatMap_cons, List.filterMap_append, ih, added?_unrolled, added?_cons]

end Turn

/-- The channel feed of a source whose line has had some headers. -/
def ChannelFeed.filling (capacity : Nat) (lines : Lines) (id : String) (headers : List Header) :
    ChannelFeed where
  capacity := capacity
  lines := ⟨lines.lines.insert lines.next ⟨headers.map .ok, true⟩, lines.next + 1⟩
  current := SortedMap.empty.insert id lines.next
  refused := .empty

namespace ChannelFeed

variable {capacity : Nat} {lines : Lines} {id : String} {headers : List Header}

theorem publish_filling (room : headers.length < capacity) (header : Header) :
    (filling capacity lines id headers).publish id header =
      (filling capacity lines id (headers ++ [header]), .delivered) := by
  have read : (filling capacity lines id headers).lines.isRead lines.next = true := by
    simp [filling, Lines.isRead, SortedMap.contains]
  have load : (filling capacity lines id headers).lines.load lines.next <
      (filling capacity lines id headers).room := by
    simp only [filling, Lines.load, SortedMap.get?_insert_self, Option.map_some, Option.getD_some,
      List.length_map, ChannelFeed.room]
    omega
  have current : (filling capacity lines id headers).current.get? id = some lines.next :=
    SortedMap.get?_insert_self ..
  simp only [publish, current, deliver, read, load, if_true]
  simp [filling, Lines.put, SortedMap.modify, SortedMap.insert_insert]

theorem hangUp_filling (id : String) :
    Feed.channel ((filling capacity lines id headers).hangUp id) =
      channelAt capacity (lines.add ⟨headers.map .ok, false⟩).1 := by
  have current : (filling capacity lines id headers).current.get? id = some lines.next :=
    SortedMap.get?_insert_self ..
  have alone : ((SortedMap.empty : SortedMap String Nat).insert id lines.next).erase id = .empty := by
    apply SortedMap.ext_get?
    intro other
    rw [SortedMap.get?_erase, SortedMap.get?_insert]
    split <;> simp_all
  simp only [hangUp, current, detach, closeLine]
  simp [filling, alone, channelAt, Lines.add, Lines.close, SortedMap.modify, SortedMap.insert_insert]

end ChannelFeed

/-- A recording of these headers and of no failure. -/
def ReplayFeed.Plays (f : ReplayFeed) (id : String) (headers : List Header) : Prop :=
  ∃ events, f.subscribe id = .ok events ∧ Recording.items events = headers.map .ok

theorem Feed.subscribe_recorded {f : ReplayFeed} {id : String} {headers : List Header}
    (plays : f.Plays id headers) (lines : Lines) :
    (Feed.replay f lines).subscribe id =
      .ok (.replay f (lines.add ⟨headers.map .ok, false⟩).1, lines.next) := by
  obtain ⟨events, opened, items⟩ := plays
  rw [← items]
  simp only [Feed.subscribe, opened, bind, Except.bind]
  rfl

theorem Feed.subscribe_channelAt (capacity : Nat) (lines : Lines) (id : String) :
    (channelAt capacity lines).subscribe id =
      .ok (.channel (.filling capacity lines id []), lines.next) := by
  have free : SortedMap.contains (SortedMap.empty : SortedSet String) id = false := rfl
  simp only [channelAt, Feed.subscribe, ChannelFeed.subscribe, free]
  rfl

namespace Course

open Aggregator

variable {plan : String → List Header} {c : Course}

/-- A feed that takes one turn after another delivers all that is left and closes. -/
theorem played_feed {capacity : Nat} {lines : Lines} {id : String} {headers rest : List Header}
    (feed : c.now.feed = .channel (.filling capacity lines id headers))
    (left : plan id = headers ++ rest) (room : (plan id).length < capacity) {g : Nat}
    (holder : holder? id c.past = some g) (published : publishedTo id g c.past = headers) :
    let d := c.played plan (List.replicate (rest.length + 1) (.feed id))
    d.now = { c.now with feed := channelAt capacity (lines.add ⟨(plan id).map .ok, false⟩).1 } ∧
      allAccepted d.past = allAccepted c.past := by
  have delivered : delivered id c.past = headers := (delivered_of_holder holder).trans published
  induction rest generalizing c headers with
  | nil =>
    rw [List.append_nil] at left
    have next : (plan id).drop headers.length = [] := by rw [left, List.drop_length]
    have turn : c.turn plan (.feed id) = ⟨c.now.hungUp id, c.past⟩ := by
      simp only [Course.turn, Turn.move, delivered, next]
      rfl
    show (c.turn plan (.feed id)).now = _ ∧ allAccepted (c.turn plan (.feed id)).past = _
    rw [turn, left, ← ChannelFeed.hangUp_filling id]
    refine ⟨?_, rfl⟩
    simp only [Aggregator.hungUp, onChannel, feed]
  | cons header rest ih =>
    have next : (plan id).drop headers.length = header :: rest := by rw [left, List.drop_left]
    have short : headers.length < capacity := by
      rw [left, List.length_append] at room
      omega
    let d : Course :=
      ⟨{ c.now with feed := .channel (.filling capacity lines id (headers ++ [header])) },
        .published id header :: c.past⟩
    have turn : c.turn plan (.feed id) = d := by
      simp only [Course.turn, Turn.move, delivered, next, Course.next, act, occurs?, onChannel, feed,
        ChannelFeed.publish_filling short]
      rfl
    have publishedToo : publishedTo id g d.past = headers ++ [header] := by
      rw [publishedTo_published, if_pos ⟨rfl, holder⟩, published]
    rw [List.length_cons, List.replicate_succ, Course.played_cons, turn]
    have holds : holder? id d.past = some g := holder
    exact ih (c := d) rfl (by simp [left]) holds publishedToo
      ((delivered_of_holder holds).trans publishedToo)

end Course

/-- A run over recordings and a run over a channel feed with the same lines. -/
structure Mirrors (f : ReplayFeed) (capacity : Nat) (c d : Course) : Prop where
  states : ∃ a : Aggregator, c.now = a.refed (.replay f) ∧ d.now = a.refed (channelAt capacity)
  applied : allAccepted c.past = allAccepted d.past

namespace Mirrors

open Aggregator

variable {settings : Settings} {plan : String → List Header} {ids : List String} {f : ReplayFeed}
  {capacity : Nat} {c d : Course}

theorem background (mirrors : Mirrors f capacity c d) {m : Move} (background : Background m) :
    Mirrors f capacity (c.next m) (d.next m) := by
  obtain ⟨⟨a, left, right⟩, applied⟩ := mirrors
  obtain ⟨actLeft, noteLeft⟩ := act_refed (a := a) (.replay f) background
  obtain ⟨actRight, noteRight⟩ := act_refed (a := a) (.channelAt capacity) background
  refine ⟨⟨a.act m, ?_, ?_⟩, ?_⟩
  · rw [Course.next, left, actLeft]
  · rw [Course.next, right, actRight]
  · simp only [Course.next, left, right, noteLeft, noteRight, allAccepted_append, applied]

/-- Feeds have nothing left to do in a run over recordings. -/
theorem feed (mirrors : Mirrors f capacity c d) (id : String) : c.turn plan (.feed id) = c := by
  obtain ⟨a, left, _⟩ := mirrors.states
  have replay : c.now.feed = .replay f a.feed.lines := by rw [left]; rfl
  simp only [Course.turn, Turn.move]
  split <;> simp [Course.next, act, occurs?, closeLine, onChannel, replay]

theorem add (mirrors : Mirrors f capacity c d) (orderly : Orderly settings plan ids d) {name : String}
    (new : Text.trim name ≠ "" → Text.trim name ∉ ids)
    (recorded : Text.trim name ≠ "" → f.Plays (Text.trim name) (plan (Text.trim name)))
    (room : Text.trim name ≠ "" → (plan (Text.trim name)).length < capacity) :
    Mirrors f capacity (c.turn plan (.add name)) (d.played plan ((Turn.add name).unrolled plan)) := by
  have left : c.turn plan (.add name) = c.next (.add name) := rfl
  have right : d.turn plan (.add name) = d.next (.add name) := rfl
  rw [Turn.unrolled, Course.played_cons, left, right]
  by_cases spelled : Text.trim name = ""
  · rw [if_pos spelled]
    rwa [Course.next_blank spelled, Course.next_blank spelled]
  · rw [if_neg spelled]
    obtain ⟨⟨a, recordings, channel⟩, applied⟩ := mirrors
    have up := orderly.registered.up
    have absent := orderly.registered.absent (new spelled)
    have upToo : c.now.isDown = false := by rw [recordings]; rw [channel] at up; exact up
    have absentToo : c.now.sources.get? (Text.trim name) = none := by
      rw [recordings]
      rw [channel] at absent
      exact absent
    have opens := Feed.subscribe_recorded (recorded spelled) a.feed.lines
    have leftBegun := Course.next_begun spelled upToo absentToo (by rw [recordings]; exact opens)
    have rightBegun := Course.next_begun spelled up absent
      (by rw [channel]; exact Feed.subscribe_channelAt capacity a.feed.lines _)
    have nothing : publishedTo (Text.trim name) (d.now.lastGeneration + 1)
        (.added (Text.trim name) (d.now.lastGeneration + 1) :: d.past) = [] :=
      (orderly.sound.unused _).1
    obtain ⟨filled, same⟩ := Course.played_feed
      (c := ⟨d.now.begun (Text.trim name) (.channel (.filling capacity a.feed.lines _ [])) _,
        .added (Text.trim name) (d.now.lastGeneration + 1) :: d.past⟩)
      rfl (List.nil_append _).symm (room spelled) (if_pos rfl) nothing
    rw [leftBegun, rightBegun]
    let lines := (a.feed.lines.add ⟨(plan (Text.trim name)).map .ok, false⟩).1
    refine ⟨⟨c.now.begun (Text.trim name) (.replay f lines) a.feed.lines.next, rfl, filled.trans ?_⟩,
      applied.trans same.symm⟩
    rw [recordings, channel]
    rfl

theorem turn (mirrors : Mirrors f capacity c d) (orderly : Orderly settings plan ids d) (t : Turn)
    (new : ∀ id, t.added? = some id → id ∉ ids)
    (recorded : ∀ id, t.added? = some id → f.Plays id (plan id))
    (room : ∀ id, t.added? = some id → (plan id).length < capacity) :
    Mirrors f capacity (c.turn plan t) (d.played plan (t.unrolled plan)) := by
  cases t with
  | add name =>
    exact mirrors.add orderly (fun spelled => new _ (if_neg spelled))
      (fun spelled => recorded _ (if_neg spelled)) fun spelled => room _ (if_neg spelled)
  | feed id => rwa [mirrors.feed]
  | forward generation => exact mirrors.background (.forward generation)
  | cancel generation => exact mirrors.background (.cancel generation)
  | perform => exact mirrors.background .perform

theorem played (mirrors : Mirrors f capacity c d) (orderly : Orderly settings plan ids d)
    (positive : settings.eventCap ≠ some 0) (turns : List Turn)
    (once : (ids ++ turns.filterMap Turn.added?).Nodup)
    (recorded : ∀ id ∈ turns.filterMap Turn.added?, f.Plays id (plan id))
    (room : ∀ id ∈ turns.filterMap Turn.added?, (plan id).length < capacity) :
    Mirrors f capacity (c.played plan turns) (d.played plan (turns.flatMap (Turn.unrolled plan))) := by
  induction turns generalizing ids c d with
  | nil => exact mirrors
  | cons t turns ih =>
    have new : ∀ id, t.added? = some id → id ∉ ids := fun _ => Turn.added?_new once
    rw [Turn.added?_cons] at once recorded room
    have first : ∀ id, t.added? = some id →
        id ∈ t.added?.toList ++ turns.filterMap Turn.added? := fun id added => by simp [added]
    have later : ∀ id ∈ turns.filterMap Turn.added?,
        id ∈ t.added?.toList ++ turns.filterMap Turn.added? :=
      fun _ member => List.mem_append_right _ member
    have onward := mirrors.turn orderly t new (fun id added => recorded id (first id added))
      fun id added => room id (first id added)
    rw [← List.append_assoc] at once
    have orderlyToo := orderly.played positive (t.unrolled plan)
      (by rw [Turn.added?_unrolled]; exact (List.nodup_append.1 once).1)
    rw [Turn.added?_unrolled] at orderlyToo
    rw [List.flatMap_cons, Course.played_append]
    exact ih onward orderlyToo once (fun id member => recorded id (later id member))
      fun id member => room id (later id member)

end Mirrors

/-! ## Feeds of either kind -/

/-- A feed that delivers to each source what is planned, and closes: by hand, or from recordings. -/
inductive Feed.Follows (plan : String → List Header) (ids : List String) : Feed → Prop
  | channel (capacity : Nat) : Follows plan ids (.channel (.new capacity))
  | replay (f : ReplayFeed) (recorded : ∀ id ∈ ids, f.Plays id (plan id)) :
      Follows plan ids (.replay f .empty)

namespace Course

/-- An aggregator without sources around a feed. -/
def around (settings : Settings) (feed : Feed) : Course := ⟨.new settings feed, []⟩

theorem exists_room (plan : String → List Header) (ids : List String) :
    ∃ capacity, ∀ id ∈ ids, (plan id).length < capacity := by
  induction ids with
  | nil => exact ⟨0, fun _ member => nomatch member⟩
  | cons id ids ih =>
    obtain ⟨capacity, room⟩ := ih
    refine ⟨(plan id).length + 1 + capacity, fun other member => ?_⟩
    rcases List.mem_cons.1 member with rfl | member
    · omega
    · have := room other member
      omega

/-- Whoever comes when: once no source is active any more, the engine is that of the headers that were
applied, one after another; for every source that was added these were the first ones of its own that
have a hash, in their order, as many as the cap allows; and the registry says so of each of them, and
knows no other. -/
theorem played_outcome (settings : Settings) (plan : String → List Header) {feed : Feed}
    (turns : List Turn) (follows : feed.Follows plan (turns.filterMap Turn.added?))
    (positive : settings.eventCap ≠ some 0) (once : (turns.filterMap Turn.added?).Nodup)
    (idle : ((around settings feed).played plan turns).now.activeCount = 0) :
    let c := (around settings feed).played plan turns
    let ids := turns.filterMap Turn.added?
    c.now.engine = (Engine.new settings.table settings.policy).appliedAll (allAccepted c.past) ∧
      ∀ id, appliedFor id c.past = (if id ∈ ids then share settings.eventCap (plan id) else []) ∧
        c.now.status? id =
          if id ∈ ids then some (outcome settings.eventCap id (plan id)) else none := by
  intro c ids
  cases follows with
  | channel capacity =>
    have orderly := (Orderly.start settings plan capacity).played positive turns once
    exact ⟨played_engine (start_sound settings capacity) rfl plan turns, orderly.settled idle⟩
  | replay f recorded =>
    obtain ⟨capacity, room⟩ := exists_room plan ids
    have mirrors : Mirrors f capacity (around settings (.replay f .empty)) (start settings capacity) :=
      ⟨⟨.new settings (.replay f .empty), rfl, rfl⟩, rfl⟩
    have start := Orderly.start settings plan capacity
    obtain ⟨⟨a, left, right⟩, applied⟩ := mirrors.played start positive turns once recorded room
    have orderly := start.played positive (turns.flatMap (Turn.unrolled plan))
      (by rw [Turn.added?_flatMap]; exact once)
    have engine := played_engine (start_sound settings capacity) rfl plan
      (turns.flatMap (Turn.unrolled plan))
    rw [Turn.added?_flatMap] at orderly
    -- The two runs differ in their feeds only.
    have same : c.now = a.refed (.replay f) := left
    rw [right] at engine
    rw [same, applied]
    refine ⟨engine, fun id => ?_⟩
    have idleToo : a.activeCount = 0 := by rw [left] at idle; exact idle
    have settled := orderly.settled (by rw [right]; exact idleToo) id
    rw [right] at settled
    rw [appliedFor, applied]
    exact settled

/-- Two sources over lines and a queue that hold one item each, and a cap of two: one source has three
headers and one without a hash, the other a single one. -/
theorem played_outcome_contended :
    let settings : Settings := ⟨some 2, 1, .standard, .childOnly⟩
    let plan : String → List Header := fun id =>
      if id = "a" then [.new 1 "0x1" "0x0", .new 2 " " "0x1", .new 2 "0x2" "0x1", .new 3 "0x3" "0x2"]
      else [.new 1 "0xb" "0x0"]
    let turns : List Turn := [.add "a", .add " b "] ++
      (List.replicate 9 [.feed "b", .feed "a", .forward 1, .forward 2, .perform]).flatten
    let c := (around settings (.channel (.new 1))).played plan turns
    let ids := turns.filterMap Turn.added?
    ids = ["a", "b"] ∧ c.now.activeCount = 0 ∧
      c.now.status? "a" = some ⟨"a", false, 2, some "0x2", .capReached⟩ ∧
      c.now.status? "b" = some ⟨"b", false, 1, some "0xb", .ended⟩ ∧
      c.now.engine = (Engine.new settings.table settings.policy).appliedAll (allAccepted c.past) ∧
      ∀ id, appliedFor id c.past = (if id ∈ ids then share settings.eventCap (plan id) else []) ∧
        c.now.status? id =
          if id ∈ ids then some (outcome settings.eventCap id (plan id)) else none := by
  intro settings plan turns c ids
  have added : ids = ["a", "b"] := by decide +kernel
  have idle : c.now.activeCount = 0 := by decide +kernel
  have once : ids.Nodup := by rw [added]; decide
  have result := played_outcome settings plan turns (.channel 1) (by decide) once idle
  refine ⟨added, idle, ?_, ?_, result⟩
  · rw [(result.2 "a").2]
    decide +kernel
  · rw [(result.2 "b").2]
    decide +kernel

end Course

end BlockGraph
