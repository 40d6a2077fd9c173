import BlockGraph.Proofs.Aggregator.Delivery

/-!
# Feeds that follow a plan

Each source has a list of headers, which its feed delivers one after another, as there is room for
them, and then closes. Nobody interferes: sources are added, and after that it is only open who comes
next, a feed, a pump or the mutation loop.

* `Turn`, `Course.played` — the runs of this kind.
* `Supplied` — how far the feeds are, and that a line that has ended has delivered everything.
* `Supplied.passed`, `Supplied.published`, `Supplied.hungUp`, `Supplied.begun` — every turn keeps it.
-/

namespace BlockGraph

open Occurrence

/-- The headers that a source's feed has delivered to the current subscription. -/
def Occurrence.delivered (id : String) (past : List Occurrence) : List Header :=
  match holder? id past with
  | some generation => publishedTo id generation past
  | none => []

theorem Occurrence.delivered_of_holder {id : String} {g : Nat} {past : List Occurrence}
    (holder : holder? id past = some g) : delivered id past = publishedTo id g past := by
  rw [delivered, holder]

/-- Who comes next. -/
inductive Turn where
  | add (name : String)
  /-- A feed delivers its next header, or closes when it has delivered all. -/
  | feed (id : String)
  | forward (generation : Nat)
  | cancel (generation : Nat)
  | perform

namespace Turn

/-- What happens in a turn, which for a feed depends on what it has delivered already. -/
def move (plan : String → List Header) (past : List Occurrence) : Turn → Move
  | .add name => .add name
  | .feed id =>
    match (plan id).drop (delivered id past).length with
    | header :: _ => .publish id header
    | [] => .close id
  | .forward generation => .forward generation
  | .cancel generation => .cancel generation
  | .perform => .perform

/-- The source that is added in a turn. -/
def added? : Turn → Option String
  | .add name => if Text.trim name = "" then none else some (Text.trim name)
  | _ => none

theorem added?_cons (t : Turn) (turns : List Turn) :
    (t :: turns).filterMap added? = t.added?.toList ++ turns.filterMap added? := by
  cases added : t.added? <;> simp [added]

/-- If no source is added twice, the next one is new. -/
theorem added?_new {ids : List String} {t : Turn} {turns : List Turn}
    (once : (ids ++ (t :: turns).filterMap added?).Nodup) {id : String} (added : t.added? = some id) :
    id ∉ ids := by
  rw [added?_cons, added, List.nodup_append] at once
  exact fun member => once.2.2 id member id (by simp) rfl

end Turn

/-- The run after one more turn. -/
def Course.turn (plan : String → List Header) (c : Course) (t : Turn) : Course :=
  c.next (t.move plan c.past)

/-- The run after more turns. -/
def Course.played (plan : String → List Header) (c : Course) (turns : List Turn) : Course :=
  turns.foldl (Course.turn plan) c

theorem Course.played_cons (plan : String → List Header) (c : Course) (t : Turn) (turns : List Turn) :
    c.played plan (t :: turns) = (c.turn plan t).played plan turns := rfl

theorem Course.played_append (plan : String → List Header) (c : Course) (turns later : List Turn) :
    c.played plan (turns ++ later) = (c.played plan turns).played plan later := List.foldl_append

theorem Course.played_engine {c : Course} (sound : c.now.Sound c.past) {e : Engine}
    (engine : c.now.engine = e.appliedAll (allAccepted c.past)) (plan : String → List Header)
    (turns : List Turn) :
    (c.played plan turns).now.engine = e.appliedAll (allAccepted (c.played plan turns).past) := by
  induction turns generalizing c with
  | nil => exact engine
  | cons t turns ih =>
    exact ih (c := c.turn plan t) (Aggregator.act_onward sound (t.move plan c.past)).sound
      (Course.after_engine sound engine [t.move plan c.past])

namespace Aggregator

variable {plan : String → List Header} {a b : Aggregator} {past later : List Occurrence}

/-- Feeds, pumps and the queue keep to the plan: nothing but headers of the plan is delivered, in the
order of the plan, and when a line has ended, or news of that is under way, it was all of them. -/
structure Supplied (plan : String → List Header) (a : Aggregator) (past : List Occurrence) : Prop where
  willing : ∃ f, a.feed = .channel f ∧ f.refused = .empty
  planned : ∀ id g, publishedTo id g past <+: plan id
  onLine : ∀ g p line, a.pump? g = some p → a.line? p.line = some line →
    NoErrors line.queue ∧ (line.isOpen = false → publishedTo p.source g past = plan p.source)
  held : ∀ g p state, a.pump? g = some p → p.holding = some (.closed p.source p.generation state) →
    state = .ended ∧ publishedTo p.source g past = plan p.source
  queued : ∀ id g state, .closed id g state ∈ a.queue →
    state = .ended ∧ publishedTo id g past = plan id

namespace Supplied

theorem channel (supplied : a.Supplied plan past) : ∃ f, a.feed = .channel f :=
  supplied.willing.imp fun _ willing => willing.1

theorem popped (supplied : a.Supplied plan past) (feed : b.feed = a.feed) (pumps : b.pumps = a.pumps)
    (queue : ∀ item ∈ b.queue, item ∈ a.queue)
    (published : ∀ id g, publishedTo id g later = publishedTo id g past) : b.Supplied plan later := by
  have pump : ∀ g, b.pump? g = a.pump? g := fun g => by rw [pump?, pumps, pump?]
  have line : ∀ n, b.line? n = a.line? n := fun n => by rw [line?, feed, line?]
  refine ⟨feed ▸ supplied.willing, ?_, ?_, ?_, ?_⟩
  · simpa only [published] using supplied.planned
  · simpa only [published, pump, line] using supplied.onLine
  · simpa only [published, pump] using supplied.held
  · simpa only [published] using fun id g state member => supplied.queued id g state (queue _ member)

/-! ## Steps of pumps -/

theorem withLine_willing (supplied : a.Supplied plan past) (n : Nat) (line : Line) :
    ∃ f, (a.withLine n line).feed = .channel f ∧ f.refused = .empty := by
  obtain ⟨f, channel, willing⟩ := supplied.willing
  exact ⟨{ f with lines := { f.lines with lines := f.lines.lines.insert n line } },
    by rw [withLine, channel]; rfl, willing⟩

/-- A pump changes; what it holds then, if that is news, is true. -/
theorem setPump (supplied : a.Supplied plan past) {g : Nat} {p q : Pump} (here : a.pump? g = some p)
    (generation : q.generation = g) (source : q.source = p.source) (line : q.line = p.line)
    (held : ∀ state, q.holding = some (.closed q.source q.generation state) →
      state = .ended ∧ publishedTo p.source g past = plan p.source) : (a.setPump q).Supplied plan past := by
  refine ⟨supplied.willing, supplied.planned, ?_, ?_, supplied.queued⟩
  · intro h r old found read
    rcases of_pump?_setPump here generation found with before | ⟨rfl, rfl⟩
    · exact supplied.onLine h r old before read
    · rw [source]
      exact supplied.onLine h p old here (line ▸ read)
  · intro h r state found holds
    rcases of_pump?_setPump here generation found with before | ⟨rfl, rfl⟩
    · exact supplied.held h r state before holds
    · rw [source]
      exact held state holds

theorem endPump (supplied : a.Supplied plan past) (p : Pump) : (a.endPump p).Supplied plan past := by
  refine ⟨?_, supplied.planned, ?_, ?_, supplied.queued⟩
  · obtain ⟨f, channel, willing⟩ := supplied.willing
    exact ⟨f.release p.line, by rw [Aggregator.endPump, channel]; rfl, willing⟩
  · intro h r line found read
    rw [line?_endPump] at read
    split at read
    · cases read
    · exact supplied.onLine h r line (of_pump?_endPump found).2 read
  · exact fun h r state found => supplied.held h r state (of_pump?_endPump found).2

theorem push (supplied : a.Supplied plan past) {item : QueueItem}
    (news : ∀ id g state, item = .closed id g state →
      state = .ended ∧ publishedTo id g past = plan id) : (a.push item).Supplied plan past := by
  refine ⟨supplied.willing, supplied.planned, supplied.onLine, supplied.held, ?_⟩
  intro id g state member
  rcases List.mem_append.1 member with old | new
  · exact supplied.queued id g state old
  · exact news id g state (List.mem_singleton.1 new).symm

theorem taken (wired : a.Wired past) (supplied : a.Supplied plan past) {g : Nat} {p : Pump}
    (here : a.pump? g = some p) {line : Line} (read : a.line? p.line = some line) {header : Header}
    {rest : List FeedItem} (first : line.queue = .ok header :: rest) :
    (a.withLine p.line ⟨rest, line.isOpen⟩).Supplied plan past := by
  refine ⟨supplied.withLine_willing .., supplied.planned, ?_, supplied.held, supplied.queued⟩
  intro h q new there readToo
  rw [line?_withLine] at readToo
  split at readToo
  next same =>
    -- The line has one pump.
    obtain rfl := wired.apart h g q p there here same
    obtain rfl := Option.some.inj (here.symm.trans there)
    obtain rfl := Option.some.inj readToo
    obtain ⟨noErrors, complete⟩ := supplied.onLine h p line here read
    exact ⟨(first ▸ noErrors).tail, complete⟩
  next => exact supplied.onLine h q new there readToo

theorem passed (wired : a.Wired past) (supplied : a.Supplied plan past) {g : Nat} {p : Pump}
    (here : a.pump? g = some p) (passed : Passed a p b) : b.Supplied plan past := by
  have generation := pump?_generation here
  cases passed with
  | stayed => exact supplied
  | queued header more holds =>
    have pushed : (a.push (.header p.source p.generation header)).Supplied plan past :=
      supplied.push fun _ _ _ other => nomatch other
    exact pushed.setPump here generation rfl rfl fun _ other => nomatch other
  | closed state last holds =>
    obtain ⟨ended, complete⟩ := supplied.held g p state here holds
    refine (supplied.push fun id h other same => ?_).endPump p
    obtain ⟨rfl, rfl, rfl⟩ := QueueItem.closed.inj same
    exact ⟨ended, generation ▸ complete⟩
  | taken line header rest idle more read first =>
    exact (supplied.taken wired here read first).setPump here generation rfl rfl
      fun _ other => nomatch other
  -- No feed fails, so a line that has ended was closed, and that is when it has delivered everything.
  | failed line error rest idle more read first =>
    exact absurd (first ▸ (supplied.onLine g p line here read).1) NoErrors.not_error
  | ended line idle more read empty hungUp =>
    refine supplied.setPump here generation rfl rfl fun state same => ?_
    obtain ⟨_, _, rfl⟩ := QueueItem.closed.inj (Option.some.inj same)
    exact ⟨rfl, (supplied.onLine g p line here read).2 hungUp⟩

/-! ## Turns of feeds -/

theorem publishedTo_next (supplied : a.Supplied plan past) {id : String} {header : Header}
    {rest : List Header} (next : (plan id).drop (delivered id past).length = header :: rest)
    (source : String) (g : Nat) :
    publishedTo source g past <+: publishedTo source g (.published id header :: past) ∧
      publishedTo source g (.published id header :: past) <+: plan source := by
  rw [publishedTo_published]
  split
  next same =>
    obtain ⟨rfl, holder⟩ := same
    -- What comes next in the plan is what is published.
    obtain ⟨left, shape⟩ := supplied.planned id g
    rw [delivered_of_holder holder, ← shape, List.drop_left] at next
    refine ⟨List.prefix_append .., rest, ?_⟩
    rw [← shape, next, List.append_assoc]
    rfl
  next => exact ⟨List.prefix_rfl, supplied.planned source g⟩

theorem complete_stays (supplied : a.Supplied plan past) {id : String} {header : Header}
    {rest : List Header} (next : (plan id).drop (delivered id past).length = header :: rest)
    {source : String} {g : Nat} (complete : publishedTo source g past = plan source) :
    publishedTo source g (.published id header :: past) = plan source := by
  -- What was published only grows, and stays a beginning of the plan.
  obtain ⟨more, within⟩ := supplied.publishedTo_next next source g
  exact within.eq_of_length_le (complete ▸ more.length_le)

theorem published (wired : a.Wired past) (supplied : a.Supplied plan past) {id : String}
    {header : Header} {rest : List Header}
    (next : (plan id).drop (delivered id past).length = header :: rest) {n : Nat} {line : Line}
    (current : a.currentLine? id = some n) (read : a.line? n = some line) :
    (a.withLine n { line with queue := line.queue ++ [.ok header] }).Supplied plan
      (.published id header :: past) := by
  have complete : ∀ source g, publishedTo source g past = plan source →
      publishedTo source g (.published id header :: past) = plan source :=
    fun source g => supplied.complete_stays next
  obtain ⟨isOpen, noErrors, _⟩ := (wired.current id n current).2 line read
  refine ⟨supplied.withLine_willing .., fun source g => (supplied.publishedTo_next next source g).2, ?_,
    ?_, ?_⟩
  · intro g p new here readToo
    rw [line?_withLine] at readToo
    split at readToo
    -- The line that has got the header is open still.
    · obtain rfl := Option.some.inj readToo
      refine ⟨noErrors.append header, fun shut => ?_⟩
      rw [isOpen] at shut
      cases shut
    · obtain ⟨headers, all⟩ := supplied.onLine g p new here readToo
      exact ⟨headers, fun shut => complete p.source g (all shut)⟩
  · intro g p state here holds
    obtain ⟨ended, all⟩ := supplied.held g p state here holds
    exact ⟨ended, complete p.source g all⟩
  · intro source g state member
    obtain ⟨ended, all⟩ := supplied.queued source g state member
    exact ⟨ended, complete source g all⟩

/-- A subscription that has had everything, or that nobody has, is hung up. -/
theorem hungUp (wired : a.Wired past) (supplied : a.Supplied plan past) {id : String}
    (entire : ∀ g, holder? id past = some g → publishedTo id g past = plan id) :
    (a.hungUp id).Supplied plan past := by
  obtain ⟨f, channel, willing⟩ := supplied.willing
  have after := hungUp_eq channel id
  have pump : ∀ g, (a.hungUp id).pump? g = a.pump? g := pump?_onChannel _
  refine ⟨⟨f.hangUp id, by rw [after], (f.hangUp_refused id).trans willing⟩, supplied.planned, ?_, ?_, ?_⟩
  · intro g p line here read
    rw [pump] at here
    rw [(hungUp_lines channel id).2.1] at read
    split at read
    next current =>
      obtain ⟨old, readToo, rfl⟩ := Option.map_eq_some_iff.1 read
      obtain ⟨source, holder⟩ := wired.current_unique current readToo here rfl
      exact ⟨(supplied.onLine g p old here readToo).1, fun _ => source ▸ entire g holder⟩
    next => exact supplied.onLine g p line here read
  · simpa only [pump] using supplied.held
  · rw [after]
    exact supplied.queued

theorem closed (wired : a.Wired past) (supplied : a.Supplied plan past) {id : String}
    (all : (plan id).drop (delivered id past).length = []) : (a.hungUp id).Supplied plan past := by
  refine supplied.hungUp wired fun g holder => ?_
  rw [delivered_of_holder holder, List.drop_eq_nil_iff] at all
  exact (supplied.planned id g).eq_of_length_le all

/-! ## Adding a source -/

theorem subscribes (supplied : a.Supplied plan past) (id : String) :
    ∃ f n, a.feed.subscribe id = .ok (.channel f, n) ∧ f.refused = .empty := by
  obtain ⟨f, channel, willing⟩ := supplied.willing
  have free : f.refused.contains id = false := by rw [willing]; rfl
  have subscribed : ∃ lines current n,
      a.feed.subscribe id = .ok (.channel { f.hangUp id with lines, current }, n) := by
    rw [channel]
    simp only [Feed.subscribe, ChannelFeed.subscribe, free]
    exact ⟨_, _, _, rfl⟩
  obtain ⟨lines, current, n, subscribed⟩ := subscribed
  exact ⟨_, n, subscribed, (f.hangUp_refused id).trans willing⟩

theorem begun (wired : a.Wired past) (supplied : a.Supplied plan past) {id : String} {f : ChannelFeed}
    {n : Nat} (subscribed : a.feed.subscribe id = .ok (.channel f, n)) (willing : f.refused = .empty)
    (new : holder? id past = none) :
    (a.begun id (.channel f) n).Supplied plan (.added id (a.lastGeneration + 1) :: past) := by
  obtain ⟨_, channel⟩ := supplied.channel
  obtain ⟨_, newLine, _⟩ := begun_lines channel subscribed
  -- A source that is new has no line that would be hung up.
  have before : (a.hungUp id).Supplied plan past :=
    supplied.hungUp wired fun g holder => by rw [new] at holder; cases holder
  have same : ∀ g, (a.hungUp id).pump? g = a.pump? g := pump?_onChannel _
  refine ⟨⟨f, rfl, willing⟩, supplied.planned, ?_, ?_, supplied.queued⟩
  · intro g p line here read
    rw [newLine] at read
    split at read
    · obtain rfl := Option.some.inj read
      exact ⟨⟨[], rfl⟩, fun shut => nomatch shut⟩
    next other =>
      rcases of_pump?_begun here with old | ⟨_, rfl⟩
      · exact before.onLine g p line ((same g).trans old) read
      · exact absurd rfl other
  · intro g p state here holds
    rcases of_pump?_begun here with old | ⟨_, rfl⟩
    · exact supplied.held g p state old holds
    · cases holds

end Supplied

end Aggregator

end BlockGraph
