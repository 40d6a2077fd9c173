import BlockGraph.Proofs.Aggregator.Wiring

/-!
# Steps of pumps and calls on the feed

What a pump can do next, and what becomes of a line when something is put on it, each said once. All
of it keeps pumps and lines wired.

* `Passed`, `forward_passed`, `Wired.passed` — a step of a pump.
* `publish_cases`, `Wired.published` — a header is published.
* `fail_cases`, `Wired.failed` — a subscription fails.
-/

namespace BlockGraph.Aggregator

variable {a b : Aggregator} {past : List Occurrence}

/-! ## Steps of pumps -/

/-- The aggregator with one more item on its queue. -/
def push (a : Aggregator) (item : QueueItem) : Aggregator := { a with queue := a.queue ++ [item] }

/-- What a pump can do next. -/
inductive Passed (a : Aggregator) (p : Pump) : Aggregator → Prop where
  | stayed : Passed a p a
  /-- A header goes on the queue. -/
  | queued (header : Header) (more : p.isLast = false)
      (holds : p.holding = some (.header p.source p.generation header)) :
      Passed a p ((a.push (.header p.source p.generation header)).setPump { p with holding := none })
  /-- The news that the source is closed goes on the queue, and the pump ends. -/
  | closed (state : SourceState) (last : p.isLast = true)
      (holds : p.holding = some (.closed p.source p.generation state)) :
      Passed a p ((a.push (.closed p.source p.generation state)).endPump p)
  /-- A header comes off the line. -/
  | taken (line : Line) (header : Header) (rest : List FeedItem) (idle : p.holding = none)
      (more : p.isLast = false) (read : a.line? p.line = some line)
      (first : line.queue = .ok header :: rest) :
      Passed a p ((a.withLine p.line ⟨rest, line.isOpen⟩).setPump
        { p with holding := some (.header p.source p.generation header) })
  /-- A failure comes off the line. -/
  | failed (line : Line) (error : FeedError) (rest : List FeedItem) (idle : p.holding = none)
      (more : p.isLast = false) (read : a.line? p.line = some line)
      (first : line.queue = .error error :: rest) :
      Passed a p ((a.withLine p.line ⟨rest, line.isOpen⟩).setPump
        { p with
          holding := some (.closed p.source p.generation (.failed error.message))
          isLast := true })
  /-- The line has ended. -/
  | ended (line : Line) (idle : p.holding = none) (more : p.isLast = false)
      (read : a.line? p.line = some line) (empty : line.queue = []) (hungUp : line.isOpen = false) :
      Passed a p (a.setPump
        { p with holding := some (.closed p.source p.generation .ended), isLast := true })

theorem withLines_self (feed : Feed) : feed.withLines feed.lines = feed := by
  cases feed <;> rfl

theorem fetch_passed {p : Pump} {line : Line} (idle : p.holding = none) (more : p.isLast = false)
    (read : a.line? p.line = some line) : Passed a p ((a.fetch p).getD a) := by
  have found : a.feed.lines.lines.get? p.line = some line := read
  obtain ⟨queue, isOpen⟩ := line
  cases queue with
  | nil =>
    cases isOpen with
    | true =>
      have stays : a.fetch p = none := by simp [fetch, Lines.take, found]
      rw [stays]
      exact .stayed
    | false =>
      have ends : a.fetch p = some (a.setPump
          { p with holding := some (.closed p.source p.generation .ended), isLast := true }) := by
        simp [fetch, Lines.take, found, withLines_self]
      rw [ends]
      exact .ended ⟨[], false⟩ idle more read rfl rfl
  | cons item rest =>
    cases item with
    | ok header =>
      have takes : a.fetch p = some ((a.withLine p.line ⟨rest, isOpen⟩).setPump
          { p with holding := some (.header p.source p.generation header) }) := by
        simp [fetch, Lines.take, found, withLine]
      rw [takes]
      exact .taken _ header rest idle more read rfl
    | error error =>
      have fails : a.fetch p = some ((a.withLine p.line ⟨rest, isOpen⟩).setPump
          { p with
            holding := some (.closed p.source p.generation (.failed error.message))
            isLast := true }) := by
        simp [fetch, Lines.take, found, withLine]
      rw [fails]
      exact .failed _ error rest idle more read rfl

theorem forward_passed (wired : a.Wired past) {g : Nat} {p : Pump} (here : a.pump? g = some p) :
    Passed a p ((a.forward p).getD a) := by
  -- The shape of the pump tells which of its steps is next.
  obtain ⟨shape, _, _, line, read, _⟩ := wired.sits g p here
  cases shape with
  | idle source generation n => exact fetch_passed rfl rfl read
  | carrying source generation n header =>
    unfold forward enqueue
    dsimp only
    split
    · exact .queued (p := ⟨source, generation, n, _, _⟩) header rfl rfl
    · exact .stayed
  | closing source generation n state =>
    unfold forward enqueue
    dsimp only
    split
    · exact .closed (p := ⟨source, generation, n, _, _⟩) state rfl rfl
    · exact .stayed

/-- A step of a pump keeps pumps and lines wired. -/
theorem Wired.passed (wired : a.Wired past) {g : Nat} {p : Pump} (here : a.pump? g = some p)
    (passed : Passed a p b) : b.Wired past := by
  have generation := pump?_generation here
  have pushed : ∀ item, (a.push item).Wired past :=
    fun item => wired.congr rfl rfl (Nat.le_refl _)
  -- The line of a pump that goes on is that of no pump that has come to its end.
  have only : p.isLast = false → ∀ h q, a.pump? h = some q → q.line = p.line → q.isLast ≠ true := by
    intro more h q there same last
    obtain rfl := wired.apart h g q p there here same
    obtain rfl := Option.some.inj (here.symm.trans there)
    exact absurd last (by simp [more])
  cases passed with
  | stayed => exact wired
  | queued header more holds =>
    exact (pushed _).setPump here generation rfl rfl (.idle_of more) fun last => by simp_all
  | closed state last holds => exact (pushed _).endPump here
  | taken line header rest idle more read first =>
    obtain ⟨_, _, _, old, readToo, ordered, _⟩ := wired.sits g p here
    obtain rfl := Option.some.inj (read.symm.trans readToo)
    refine (wired.withLine ?_ ?_ ?_).setPump here generation rfl rfl (.carrying_of more) ?_
    · exact (first ▸ ordered).tail
    · intro id current
      obtain ⟨isOpen, noErrors, others⟩ := (wired.current id p.line current).2 line read
      exact ⟨isOpen, (first ▸ noErrors).tail, others⟩
    · exact fun h q there same last => absurd last (only more h q there same)
    · exact fun last => by simp_all
  | failed line error rest idle more read first =>
    obtain ⟨_, _, _, old, readToo, ordered, _⟩ := wired.sits g p here
    obtain rfl := Option.some.inj (read.symm.trans readToo)
    have last : rest = [] := (first ▸ ordered).last
    -- A line with a failure on it is no current one, so nothing comes behind the failure.
    have gone : ∀ id, a.currentLine? id ≠ some p.line := fun id current =>
      NoErrors.not_error (first ▸ ((wired.current id p.line current).2 line read).2.1)
    refine (wired.withLine ?_ ?_ ?_).setPump here generation rfl rfl .closing_of ?_
    · exact last ▸ ⟨[], none, rfl⟩
    · exact fun id current => absurd current (gone id)
    · exact fun _ _ _ _ _ => last
    · refine fun _ => ⟨fun new read => ?_, fun id => ?_⟩
      · rw [line?_withLine, if_pos rfl] at read
        rw [← Option.some.inj read]
        exact last
      · rw [currentLine?_withLine]
        exact gone id
  | ended line idle more read empty hungUp =>
    refine wired.setPump here generation rfl rfl .closing_of ?_
    refine fun _ => ⟨fun old readToo => ?_, fun id current => ?_⟩
    · rw [← Option.some.inj (read.symm.trans readToo)]
      exact empty
    -- A current line is open.
    · have isOpen := ((wired.current id p.line current).2 line read).1
      rw [hungUp] at isOpen
      cases isOpen

/-! ## Calls on the feed -/

theorem onChannel_self {f : ChannelFeed} (channel : a.feed = .channel f) {g : ChannelFeed → ChannelFeed}
    (same : g f = f) : a.onChannel g = a := by
  obtain ⟨settings, feed, sources, lastGeneration, engine, queue, pumps, log, isDown⟩ := a
  obtain rfl : feed = .channel f := channel
  simp only [onChannel, same]

/-- A header that is published stands last on the current line; else nothing happens. -/
theorem publish_cases (channel : ∃ f, a.feed = .channel f) (source : String) (header : Header) :
    a.act (.publish source header) = a ∧ a.occurs? (.publish source header) = none ∨
    ∃ n line, a.currentLine? source = some n ∧ a.line? n = some line ∧
      a.act (.publish source header) =
        a.withLine n { line with queue := line.queue ++ [.ok header] } ∧
      a.occurs? (.publish source header) = some (.published source header) := by
  obtain ⟨f, channel⟩ := channel
  have stays (same : (f.publish source header).1 = f)
      (kept : (f.publish source header).2 ≠ .delivered) :
      a.act (.publish source header) = a ∧ a.occurs? (.publish source header) = none :=
    ⟨onChannel_self channel same, by simp only [occurs?, channel, if_neg kept]⟩
  rcases f.publish_cases source header with ⟨same, lost⟩ | ⟨n, line, current, read, _, delivered⟩
  · exact .inl (stays same lost)
  · refine .inr ⟨n, line, ?_, ?_, ?_, ?_⟩
    · simpa only [currentLine?, channel] using current
    · rw [line?, channel]
      exact read
    · simp only [act, onChannel, channel, delivered, withLine]
      rfl
    · simp only [occurs?, channel, delivered, if_true]

theorem Wired.published (wired : a.Wired past) {source : String} {header : Header} {n : Nat}
    {line : Line} (current : a.currentLine? source = some n) (read : a.line? n = some line) :
    (a.withLine n { line with queue := line.queue ++ [.ok header] }).Wired past := by
  obtain ⟨isOpen, noErrors, others⟩ := (wired.current source n current).2 line read
  refine wired.withLine (noErrors.append header).errorsLast (fun id currentToo => ?_) ?_
  · obtain ⟨_, _, others⟩ := (wired.current id n currentToo).2 line read
    exact ⟨isOpen, noErrors.append header, others⟩
  · intro g p here reads last
    obtain ⟨_, _, _, _, _, _, drained⟩ := wired.sits g p here
    exact absurd (reads ▸ current) ((drained last).2 source)

/-- A subscription that fails is hung up, and the failure stands last on its line if there is room. -/
theorem fail_cases (channel : ∃ f, a.feed = .channel f) (source reason : String) :
    a.act (.fail source reason) = a.hungUp source ∨
    ∃ n line, a.currentLine? source = some n ∧ (a.hungUp source).line? n = some line ∧
      a.act (.fail source reason) =
        (a.hungUp source).withLine n
          { line with queue := line.queue ++ [.error (.disconnected reason)] } := by
  obtain ⟨f, channel⟩ := channel
  have hungUp := hungUp_eq channel source
  have acts : a.act (.fail source reason) = { a with feed := .channel (f.fail source reason).1 } := by
    simp only [act, onChannel, channel]
  rw [hungUp, acts]
  rcases f.fail_cases source reason with ⟨same, _⟩ | ⟨n, line, current, read, _, delivered⟩
  · exact .inl (by rw [same])
  · refine .inr ⟨n, line, ?_, read, ?_⟩
    · simpa only [currentLine?, channel] using current
    · rw [delivered]
      rfl

theorem Wired.failed (wired : a.Wired past) {source : String} {error : FeedError} {n : Nat}
    {line : Line} (current : a.currentLine? source = some n)
    (read : (a.hungUp source).line? n = some line) :
    ((a.hungUp source).withLine n { line with queue := line.queue ++ [.error error] }).Wired past := by
  obtain ⟨f, channel⟩ := wired.channel
  obtain ⟨currents, lines, _⟩ := hungUp_lines channel source
  rw [lines, if_pos current] at read
  obtain ⟨old, before, rfl⟩ := Option.map_eq_some_iff.1 read
  obtain ⟨_, noErrors, g, p, here, reads, owner, _⟩ := (wired.current source n current).2 old before
  refine (wired.hungUp source).withLine (noErrors.append_error error) (fun id after => ?_) ?_
  · rw [currents] at after
    split at after
    · cases after
    next differ =>
      exact absurd ((wired.current_unique after before here reads).1.symm.trans owner) differ
  · intro h q there readsToo last
    rw [Aggregator.hungUp, pump?_onChannel] at there
    obtain ⟨_, _, _, _, _, _, drained⟩ := wired.sits h q there
    exact absurd (readsToo ▸ current) ((drained last).2 source)

end BlockGraph.Aggregator
