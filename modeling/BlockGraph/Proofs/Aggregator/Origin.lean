import BlockGraph.Proofs.Aggregator.Work
import BlockGraph.Run

/-!
# Where headers come from

Over a run of recordings, all that is applied to the graph was read from the recordings, and in the end
nothing is left to do.

* `Recording.read_of_played` — the headers of a recording were accepted from its lines.
* `Carries`, `Carries.worked` — what is on lines, with pumps and on the queue.
* `Fed` — what holds at any time of a run; `Fed.worked`, `Fed.added` keep it.
* `start_fed`, `play_fed` — the engine of a run; `play_done` — nothing is left to do.
-/

namespace BlockGraph

/-! ## Headers of recordings -/

namespace Recording

theorem read_of_line {number : Nat} {text : String} {h : Header}
    (played : .item (.ok h) ∈ readLine number text) : ∃ record, Header.ofText record = .ok h := by
  unfold readLine at played
  dsimp only at played
  split at played
  · cases played
  · split at played
    next g read =>
      obtain rfl := Except.ok.inj (PlayEvent.item.inj (List.mem_singleton.1 played))
      exact ⟨Text.trim text, read⟩
    next =>
      have same := List.mem_singleton.1 played
      cases same

theorem read_of_lines {passed : Nat} {lines : List (List UInt8)} {h : Header}
    (played : .item (.ok h) ∈ playLines passed lines) : ∃ record, Header.ofText record = .ok h := by
  induction lines generalizing passed with
  | nil => cases List.mem_singleton.1 played
  | cons line lines ih =>
    rw [playLines] at played
    split at played
    · rcases List.mem_append.1 played with here | later
      · exact read_of_line here
      · exact ih later
    · simp at played

theorem read_of_played {contents : Contents} {h : Header}
    (played : .item (.ok h) ∈ playContents contents) : ∃ record, Header.ofText record = .ok h := by
  cases contents with
  | ok bytes => exact read_of_lines played
  | error e => simp [playContents] at played

theorem mem_items {events : List PlayEvent} {item : FeedItem} (member : item ∈ items events) :
    .item item ∈ events := by
  obtain ⟨event, listed, some⟩ := List.mem_filterMap.1 member
  cases event with
  | item i => exact Option.some.inj some ▸ listed
  | malformed | finished => cases some

end Recording

/-- A property of all headers in the recordings of some sources. -/
def ReplayFeed.Holds (f : ReplayFeed) (P : Header → Prop) (names : List String) : Prop :=
  ∀ name ∈ names, ∀ events, f.subscribe (Text.trim name) = .ok events →
    ∀ h, .item (.ok h) ∈ events → P h

namespace Aggregator

variable {P : Header → Prop} {a b : Aggregator}

/-! ## Headers under way -/

/-- A property of all headers on lines, with pumps and on the queue. -/
structure Carries (P : Header → Prop) (a : Aggregator) : Prop where
  lines : ∀ n line, a.line? n = some line → ∀ h, .ok h ∈ line.queue → P h
  held : ∀ p ∈ a.pumps, ∀ source generation h, p.holding = some (.header source generation h) → P h
  queued : ∀ source generation h, .header source generation h ∈ a.queue → P h

namespace Carries

theorem congr (carries : Carries P a) (feed : b.feed = a.feed) (pumps : b.pumps = a.pumps)
    (queue : ∀ item ∈ b.queue, item ∈ a.queue) : Carries P b where
  lines n line read := carries.lines n line (by rwa [line?, feed] at read)
  held p member := carries.held p (pumps ▸ member)
  queued source generation h member := carries.queued source generation h (queue _ member)

theorem push (carries : Carries P a) {p : Pump} (member : p ∈ a.pumps) {item : QueueItem}
    (holds : p.holding = some item) : Carries P (a.push item) where
  lines := carries.lines
  held := carries.held
  queued source generation h listed := by
    rcases List.mem_append.1 listed with old | new
    · exact carries.queued source generation h old
    · exact carries.held p member source generation h (List.mem_singleton.1 new ▸ holds)

theorem endPump (carries : Carries P a) (p : Pump) : Carries P (a.endPump p) where
  lines n line read := by
    rw [line?_endPump] at read
    split at read
    · cases read
    · exact carries.lines n line read
  held q member := carries.held q (List.mem_filter.1 member).1
  queued := carries.queued

theorem setPump (carries : Carries P a) {p : Pump}
    (new : ∀ source generation h, p.holding = some (.header source generation h) → P h) :
    Carries P (a.setPump p) where
  lines := carries.lines
  held q member := by
    obtain ⟨r, there, same⟩ := List.mem_map.1 member
    split at same
    · exact same ▸ new
    · exact same ▸ carries.held r there
  queued := carries.queued

/-- What is taken from a line had been on it, and so had what stays there. -/
theorem take (carries : Carries P a) {n : Nat} {lines : Lines} {received : Received}
    (takes : a.feed.lines.take n = (lines, received)) :
    Carries P { a with feed := a.feed.withLines lines } ∧ ∀ h, received = .item (.ok h) → P h := by
  rcases a.feed.lines.take_cases n with ⟨item, queue, isOpen, found, front⟩ | ⟨spent, _⟩ | ⟨waits, _⟩
  · obtain ⟨rfl, rfl⟩ := Prod.mk.inj (front.symm.trans takes)
    refine ⟨⟨fun m line read => ?_, carries.held, carries.queued⟩, ?_⟩
    · have read : (a.withLine n ⟨queue, isOpen⟩).line? m = some line := read
      rw [line?_withLine] at read
      split at read
      · obtain rfl := Option.some.inj read
        exact fun h member => carries.lines n _ found h (List.mem_cons_of_mem item member)
      · exact carries.lines m line read
    · rintro h same
      obtain rfl := Received.item.inj same
      exact carries.lines n _ found h List.mem_cons_self
  · obtain ⟨rfl, rfl⟩ := Prod.mk.inj (spent.symm.trans takes)
    rw [withLines_self]
    exact ⟨carries, fun _ same => nomatch same⟩
  · obtain ⟨rfl, rfl⟩ := Prod.mk.inj (waits.symm.trans takes)
    rw [withLines_self]
    exact ⟨carries, fun _ same => nomatch same⟩

theorem worked (carries : Carries P a) (worked : Worked a b) : Carries P b := by
  have nothing : ∀ source generation (h : Header), none = some (QueueItem.header source generation h) → P h :=
    fun _ _ _ none => nomatch none
  cases worked with
  | performed item queue items =>
    have performs := perform_performs { a with queue } item
    refine carries.congr performs.feed performs.pumps fun i member => ?_
    rw [performs.queue] at member
    exact items ▸ List.mem_cons_of_mem item member
  | ended p member => exact carries.endPump p
  | passed p member item holds more => exact (carries.push member holds).setPump nothing
  | left p member item holds last => exact (carries.push member holds).endPump p
  | taken p member idle lines header takes =>
    obtain ⟨rest, taken⟩ := carries.take takes
    refine rest.setPump fun source generation h holds => ?_
    obtain ⟨_, _, rfl⟩ := QueueItem.header.inj (Option.some.inj holds)
    exact taken header rfl
  | closing p member idle state lines received takes =>
    exact (carries.take takes).1.setPump fun _ _ _ holds => nomatch Option.some.inj holds

end Carries

/-! ## Runs -/

/-- What holds at any time of a run over recordings: the feed is that of the beginning, and all that was
applied to the engine, or is under way, has the property. -/
structure Fed (f : ReplayFeed) (P : Header → Prop) (e : Engine) (a : Aggregator) : Prop where
  feed : ∃ lines, a.feed = .replay f lines
  manned : a.Manned
  carries : Carries P a
  applied : ∃ as, a.engine = e.appliedAll as ∧ ∀ b ∈ as, P b.header

namespace Fed

variable {f : ReplayFeed} {e : Engine}

theorem new (settings : Settings) :
    Fed f P (.new settings.table settings.policy) (.new settings (.replay f .empty)) where
  feed := ⟨.empty, rfl⟩
  manned := ⟨List.nodup_nil, fun _ member => nomatch member⟩
  carries := ⟨(fun _ _ read => nomatch read), (fun _ member => nomatch member),
    (fun _ _ _ member => nomatch member)⟩
  applied := ⟨[], rfl, fun _ member => nomatch member⟩

theorem worked (fed : Fed f P e a) (worked : Worked a b) : Fed f P e b := by
  -- Only a performed item touches the engine, and only pumps touch the feed.
  have lines : ∀ ls, ∃ lines, a.feed.withLines ls = .replay f lines := by
    intro ls
    obtain ⟨old, feed⟩ := fed.feed
    exact ⟨ls, by rw [feed]; rfl⟩
  refine ⟨?_, fed.manned.worked worked, fed.carries.worked worked, ?_⟩
  · cases worked with
    | performed item queue items =>
      rw [(perform_performs { a with queue } item).feed]
      exact fed.feed
    | passed => exact fed.feed
    | ended | left | taken | closing => exact lines _
  · cases worked with
    | performed item queue items =>
      obtain ⟨as, engine, all⟩ := fed.applied
      rcases (perform_performs { a with queue } item).engine with same | ⟨source, generation, header, rfl, after⟩
      · exact ⟨as, same.trans engine, all⟩
      · refine ⟨as ++ [⟨source, header⟩], ?_, ?_⟩
        · rw [after, Engine.appliedAll_append, ← engine]
          rfl
        · intro b member
          rcases List.mem_append.1 member with old | new
          · exact all b old
          · rw [List.mem_singleton.1 new]
            exact fed.carries.queued source generation header (items ▸ List.mem_cons_self)
    | ended | passed | left | taken | closing => exact fed.applied

theorem stepUpTo (fed : Fed f P e a) (n : Nat) : Fed f P e (stepUpTo n a) :=
  stepUpTo_keeps (fun _ _ fed => fed.worked) fed n

theorem settle (fed : Fed f P e a) : Fed f P e a.settle := fed.stepUpTo a.workLeft

theorem added (fed : Fed f P e a) {name : String} (holds : f.Holds P [name]) :
    Fed f P e (a.addSource name).1 := by
  have manned := fed.manned.addSource name
  rcases a.addSource_cases name with ⟨same, _⟩ | ⟨feed, n, subscribed, _, after, _⟩ | ⟨reason, after, _⟩
  · rw [same]
    exact fed
  · obtain ⟨lines, recordings⟩ := fed.feed
    rw [recordings] at subscribed
    cases opened : f.subscribe (Text.trim name) with
    | error => simp [Feed.subscribe, opened, bind, Except.bind] at subscribed
    | ok events =>
      simp only [Feed.subscribe, opened, bind, Except.bind] at subscribed
      obtain ⟨rfl, rfl⟩ := Prod.mk.inj (Except.ok.inj subscribed)
      rw [after] at manned ⊢
      refine ⟨⟨_, rfl⟩, manned, ⟨fun m line read h member => ?_, fun p member => ?_, fed.carries.queued⟩,
        fed.applied⟩
      · -- The new line carries the headers of the recording.
        have read : (lines.lines.insert lines.next ⟨Recording.items events, false⟩).get? m = some line := read
        rw [SortedMap.get?_insert] at read
        split at read
        · obtain rfl := Option.some.inj read
          exact holds name List.mem_cons_self events opened h (Recording.mem_items member)
        · refine fed.carries.lines m line ?_ h member
          rw [line?, recordings]
          exact read
      · rcases List.mem_append.1 member with old | new
        · exact fed.carries.held p old
        · -- The new pump holds nothing yet.
          rw [List.mem_singleton.1 new]
          rintro _ _ _ ⟨⟩
  · rw [after] at manned ⊢
    exact ⟨fed.feed, manned, fed.carries.congr rfl rfl fun _ member => member, fed.applied⟩

end Fed

end Aggregator

/-! ## Playing recordings -/

namespace Run

open Aggregator

variable {f : ReplayFeed} {P : Header → Prop} {e : Engine} {r : Run} {a : Aggregator}

theorem foldl_fed (fed : Fed f P e r.aggregator) {names : List String} (holds : f.Holds P names) :
    Fed f P e (names.foldl addFeed r).aggregator := by
  induction names generalizing r with
  | nil => exact fed
  | cons name names ih =>
    have first : f.Holds P [name] := fun other member =>
      holds other (List.mem_singleton.1 member ▸ List.mem_cons_self)
    have next : Fed f P e (r.addFeed name).aggregator := fed.added first
    rw [List.foldl_cons]
    exact ih next fun other member => holds other (List.mem_cons_of_mem name member)

theorem start_fed (fed : Fed f P e a) {names : List String} (holds : f.Holds P names) :
    Fed f P e (start a names).aggregator := foldl_fed (r := ⟨a, []⟩) fed holds

variable {settings : Settings} {openFile : String → Except OsError Contents} {feeds : List String}

/-- All that was applied over a run is from its recordings. -/
theorem play_fed (settings : Settings) (holds : ReplayFeed.Holds ⟨none, openFile⟩ P feeds) :
    Fed ⟨none, openFile⟩ P (.new settings.table settings.policy)
      (play settings openFile feeds).aggregator := (start_fed (Fed.new settings) holds).settle

/-- Nothing is left to do after a run: each recording was played to its end. -/
theorem play_done : (play settings openFile feeds).aggregator.step = none := by
  have anything : ReplayFeed.Holds ⟨none, openFile⟩ (fun _ => True) feeds := fun _ _ _ _ _ _ => trivial
  exact settle_done (start_fed (Fed.new settings) anything).manned

end Run

end BlockGraph
