import BlockGraph.Proofs.Aggregator.Registry
import BlockGraph.Proofs.Feed.Channel

/-!
# Pumps and lines

Every pump has a line of its own, and the current line of a source is that of the pump of the source's
latest subscription. So what is published to a source goes to one pump and to no other.

* `Wired` — what holds of pumps and lines at any time.
* `Wired.withLine`, `Wired.setPump`, `Wired.endPump`, `Wired.hungUp`, `Wired.begun` — every change of
  pumps and lines keeps it.
-/

namespace BlockGraph

/-- A pump is idle, carries a header of its source, or brings the news that its source is closed. -/
inductive Pump.Shaped : Pump → Prop where
  | idle (source : String) (generation line : Nat) : Shaped ⟨source, generation, line, none, false⟩
  | carrying (source : String) (generation line : Nat) (header : Header) :
      Shaped ⟨source, generation, line, some (.header source generation header), false⟩
  | closing (source : String) (generation line : Nat) (state : SourceState) :
      Shaped ⟨source, generation, line, some (.closed source generation state), true⟩

namespace Pump

variable {p : Pump}

theorem Shaped.idle_of (more : p.isLast = false) : Shaped { p with holding := none } := by
  obtain ⟨source, generation, line, holding, isLast⟩ := p
  obtain rfl : isLast = false := more
  exact .idle source generation line

theorem Shaped.carrying_of {header : Header} (more : p.isLast = false) :
    Shaped { p with holding := some (.header p.source p.generation header) } := by
  obtain ⟨source, generation, line, holding, isLast⟩ := p
  obtain rfl : isLast = false := more
  exact .carrying source generation line header

theorem Shaped.closing_of {state : SourceState} :
    Shaped { p with holding := some (.closed p.source p.generation state), isLast := true } :=
  .closing p.source p.generation p.line state

end Pump

namespace Aggregator

variable {a : Aggregator} {past : List Occurrence}

/-- The line of a number. -/
def line? (a : Aggregator) (n : Nat) : Option Line := a.feed.lines.lines.get? n

/-- The aggregator with another line in the place of one. -/
def withLine (a : Aggregator) (n : Nat) (line : Line) : Aggregator :=
  { a with feed := a.feed.withLines { a.feed.lines with lines := a.feed.lines.lines.insert n line } }

/-- The aggregator after the current subscription of a source has been hung up. -/
def hungUp (a : Aggregator) (id : String) : Aggregator := a.onChannel (·.hangUp id)

theorem hungUp_eq {f : ChannelFeed} (channel : a.feed = .channel f) (id : String) :
    a.hungUp id = { a with feed := .channel (f.hangUp id) } := by
  simp only [hungUp, onChannel, channel]

/-! ## Reading pumps and lines after a change -/

theorem pump?_generation {g : Nat} {p : Pump} (here : a.pump? g = some p) : p.generation = g := by
  simpa using List.find?_some here

@[simp] theorem pump?_onChannel (f : ChannelFeed → ChannelFeed) (g : Nat) :
    (a.onChannel f).pump? g = a.pump? g := by
  obtain ⟨feed, same⟩ := a.onChannel_shape f
  rw [same]
  rfl

theorem pump?_setPump (p : Pump) (g : Nat) :
    (a.setPump p).pump? g = if g = p.generation then (a.pump? g).map fun _ => p else a.pump? g := by
  unfold pump? setPump
  dsimp only
  induction a.pumps with
  | nil => simp
  | cons q pumps ih =>
    rw [List.map_cons, List.find?_cons, List.find?_cons, ih]
    by_cases here : q.generation = g
    · subst here
      by_cases replaced : q.generation = p.generation <;> simp [replaced]
    · have missed : (q.generation == g) = false := by simpa using here
      -- A pump that is replaced is found where it was found before.
      by_cases replaced : q.generation = p.generation
      · have other : ¬ g = p.generation := fun same => here (replaced.trans same.symm)
        have missedToo : (p.generation == g) = false := by simpa using Ne.symm other
        simp only [replaced, missedToo, other, if_true, if_false]
      · simp only [replaced, missed, if_false]

theorem pump?_endPump (p : Pump) (g : Nat) :
    (a.endPump p).pump? g = if g = p.generation then none else a.pump? g := by
  unfold pump? endPump
  rw [List.find?_filter]
  split
  next same =>
    rw [List.find?_eq_none]
    simp [same]
  next other =>
    congr 1
    funext q
    by_cases here : q.generation = g <;> simp_all

theorem pump?_begun (id : String) (feed : Feed) (line g : Nat) :
    (a.begun id feed line).pump? g = (a.pump? g).or
      (if g = a.lastGeneration + 1 then some ⟨id, a.lastGeneration + 1, line, none, false⟩ else none) := by
  unfold pump? begun
  rw [List.find?_append]
  congr 1
  by_cases same : g = a.lastGeneration + 1
  · simp [same]
  · simp [same, Ne.symm same]

section
variable {g h : Nat} {p q r : Pump}

theorem of_pump?_setPump (here : a.pump? g = some p) (generation : q.generation = g)
    (found : (a.setPump q).pump? h = some r) : a.pump? h = some r ∨ h = g ∧ r = q := by
  rw [pump?_setPump, generation] at found
  split at found
  next same =>
    rw [same, here] at found
    exact .inr ⟨same, (Option.some.inj found).symm⟩
  next => exact .inl found

theorem of_pump?_endPump (found : (a.endPump p).pump? h = some r) :
    h ≠ p.generation ∧ a.pump? h = some r := by
  rw [pump?_endPump] at found
  split at found
  · cases found
  next other => exact ⟨other, found⟩

theorem of_pump?_begun {id : String} {feed : Feed} {n : Nat}
    (found : (a.begun id feed n).pump? h = some r) :
    a.pump? h = some r ∨
      h = a.lastGeneration + 1 ∧ r = ⟨id, a.lastGeneration + 1, n, none, false⟩ := by
  rw [pump?_begun, Option.or_eq_some_iff] at found
  rcases found with old | ⟨_, new⟩
  · exact .inl old
  · split at new
    next same => exact .inr ⟨same, (Option.some.inj new).symm⟩
    next => cases new

end

theorem feed_withLines (feed : Feed) (lines : Lines) : (feed.withLines lines).lines = lines := by
  cases feed <;> rfl

theorem line?_withLine (n m : Nat) (line : Line) :
    (a.withLine n line).line? m = if m = n then some line else a.line? m := by
  rw [line?, withLine, feed_withLines]
  exact SortedMap.get?_insert ..

theorem line?_endPump (p : Pump) (n : Nat) :
    (a.endPump p).line? n = if n = p.line then none else a.line? n := by
  rw [line?, endPump, feed_withLines]
  exact SortedMap.get?_erase ..

theorem currentLine?_withLines (a : Aggregator) (lines : Lines) (id : String) :
    { a with feed := a.feed.withLines lines }.currentLine? id = a.currentLine? id := by
  unfold currentLine? Feed.withLines
  cases a.feed <;> rfl

@[simp] theorem currentLine?_withLine (n : Nat) (line : Line) (id : String) :
    (a.withLine n line).currentLine? id = a.currentLine? id := currentLine?_withLines ..

@[simp] theorem currentLine?_endPump (p : Pump) (id : String) :
    (a.endPump p).currentLine? id = a.currentLine? id :=
  currentLine?_withLines { a with pumps := a.pumps.filter (·.generation ≠ p.generation) } ..

/-- Hanging up leaves a source without a current line, and ends that line behind what is on it. -/
theorem hungUp_lines {f : ChannelFeed} (channel : a.feed = .channel f) (id : String) :
    (∀ other, (a.hungUp id).currentLine? other =
        if other = id then none else a.currentLine? other) ∧
      (∀ n, (a.hungUp id).line? n =
        if a.currentLine? id = some n then (a.line? n).map fun line => { line with isOpen := false }
        else a.line? n) ∧
      (a.hungUp id).feed.lines.next = a.feed.lines.next := by
  have feed : (a.hungUp id).feed = .channel (f.hangUp id) := by rw [hungUp_eq channel]
  simp only [currentLine?, line?, feed, channel]
  refine ⟨f.current_hangUp id, fun n => (f.line?_hangUp id n).trans ?_, f.hangUp_next id⟩
  split
  · rfl
  · exact Option.map_id'

/-- A source that begins has a new line, which is empty, as its current one. -/
theorem begun_lines {f : ChannelFeed} (channel : a.feed = .channel f) {id : String} {feed : Feed}
    {n : Nat} (subscribed : a.feed.subscribe id = .ok (feed, n)) :
    (∃ g, (a.begun id feed n).feed = .channel g) ∧
      (∀ m, (a.begun id feed n).line? m = if m = n then some ⟨[], true⟩ else (a.hungUp id).line? m) ∧
      (∀ other, (a.begun id feed n).currentLine? other =
        if other = id then some n else (a.hungUp id).currentLine? other) ∧
      n = a.feed.lines.next ∧ (a.begun id feed n).feed.lines.next = n + 1 := by
  have hungUp : (a.hungUp id).feed = .channel (f.hangUp id) := by rw [hungUp_eq channel]
  have next : (f.hangUp id).lines.next = f.lines.next := by
    unfold ChannelFeed.hangUp
    split <;> rfl
  simp only [begun, line?, currentLine?, hungUp]
  rw [channel] at subscribed ⊢
  simp only [Feed.subscribe, ChannelFeed.subscribe] at subscribed
  split at subscribed
  · cases subscribed
  · obtain ⟨rfl, rfl⟩ := Prod.mk.inj (Except.ok.inj subscribed)
    refine ⟨⟨_, rfl⟩, fun m => ?_, fun other => ?_, next, rfl⟩
    · exact SortedMap.get?_insert ..
    · exact SortedMap.get?_insert ..

/-! ## What always holds -/

/-- A pump fits its line: the line carries headers with at most a failure behind them, and when the
pump has seen its end there is nothing on it and nothing is put on it any more. -/
structure Sits (a : Aggregator) (g : Nat) (p : Pump) : Prop where
  shape : p.Shaped
  known : g ≤ a.lastGeneration
  numbered : p.line < a.feed.lines.next
  reads : ∃ line, a.line? p.line = some line ∧ ErrorsLast line.queue ∧
    (p.isLast = true → line.queue = [] ∧ ∀ id, a.currentLine? id ≠ some p.line)

/-- Pumps and lines fit one another, and what has been noted. -/
structure Wired (a : Aggregator) (past : List Occurrence) : Prop where
  channel : ∃ f, a.feed = .channel f
  sits : ∀ g p, a.pump? g = some p → a.Sits g p
  apart : ∀ g h p q, a.pump? g = some p → a.pump? h = some q → p.line = q.line → g = h
  current : ∀ id n, a.currentLine? id = some n → n < a.feed.lines.next ∧
    ∀ line, a.line? n = some line → line.isOpen = true ∧ NoErrors line.queue ∧
      ∃ g p, a.pump? g = some p ∧ p.line = n ∧ p.source = id ∧ Occurrence.holder? id past = some g
  known : ∀ id g, .added id g ∈ past → g ≤ a.lastGeneration

namespace Wired

/-- Only pumps, lines and the number of generations count. -/
theorem rewired {b : Aggregator} (wired : a.Wired past) (channel : ∃ f, b.feed = .channel f)
    (pump : ∀ g, b.pump? g = a.pump? g) (line : ∀ n, b.line? n = a.line? n)
    (current : ∀ id, b.currentLine? id = a.currentLine? id)
    (next : b.feed.lines.next = a.feed.lines.next) (grown : a.lastGeneration ≤ b.lastGeneration) :
    b.Wired past := by
  refine ⟨channel, ?_, ?_, ?_, ?_⟩
  · intro g p here
    obtain ⟨shape, known, numbered, reads⟩ := wired.sits g p (pump g ▸ here)
    exact ⟨shape, Nat.le_trans known grown, next ▸ numbered, by simpa [line, current] using reads⟩
  · simpa [pump] using wired.apart
  · simpa [pump, line, current, next] using wired.current
  · exact fun id g member => Nat.le_trans (wired.known id g member) grown

theorem congr {b : Aggregator} (wired : a.Wired past) (pumps : b.pumps = a.pumps)
    (feed : b.feed = a.feed) (grown : a.lastGeneration ≤ b.lastGeneration) : b.Wired past := by
  refine wired.rewired (feed ▸ wired.channel) (fun g => ?_) (fun n => ?_) (fun id => ?_) ?_ grown
  · rw [pump?, pumps, pump?]
  · rw [line?, feed, line?]
  · rw [currentLine?, feed, currentLine?]
  · rw [feed]

/-- A note of something else than a subscription changes nothing. -/
theorem note (wired : a.Wired past) {o : Occurrence} (other : ∀ id g, o ≠ .added id g) :
    a.Wired (o :: past) := by
  have holder : ∀ id, Occurrence.holder? id (o :: past) = Occurrence.holder? id past := by
    intro id
    cases o with
    | added source g => exact absurd rfl (other source g)
    | published => rfl
    | accepted => rfl
  refine ⟨wired.channel, wired.sits, wired.apart, ?_, ?_⟩
  · simpa [holder] using wired.current
  · intro id g member
    rcases List.mem_cons.1 member with same | member
    · exact absurd same.symm (other id g)
    · exact wired.known id g member

/-- The current line of a source that is read is that of one pump only. -/
theorem current_unique (wired : a.Wired past) {id : String} {n : Nat} {line : Line}
    (current : a.currentLine? id = some n) (read : a.line? n = some line) {g : Nat} {p : Pump}
    (here : a.pump? g = some p) (reads : p.line = n) :
    p.source = id ∧ Occurrence.holder? id past = some g := by
  obtain ⟨_, _, h, q, there, readsToo, source, holder⟩ := (wired.current id n current).2 line read
  obtain rfl := wired.apart g h p q here there (reads.trans readsToo.symm)
  obtain rfl := Option.some.inj (here.symm.trans there)
  exact ⟨source, holder⟩

/-- What is on a line changes. -/
theorem withLine (wired : a.Wired past) {n : Nat} {new : Line} (ordered : ErrorsLast new.queue)
    (current : ∀ id, a.currentLine? id = some n → new.isOpen = true ∧ NoErrors new.queue ∧
      ∃ g p, a.pump? g = some p ∧ p.line = n ∧ p.source = id ∧ Occurrence.holder? id past = some g)
    (drained : ∀ g p, a.pump? g = some p → p.line = n → p.isLast = true → new.queue = []) :
    (a.withLine n new).Wired past := by
  refine ⟨?_, ?_, wired.apart, ?_, wired.known⟩
  · obtain ⟨f, channel⟩ := wired.channel
    exact ⟨_, by rw [Aggregator.withLine, channel]; rfl⟩
  · intro g p here
    obtain ⟨shape, known, numbered, line, read, ends, last⟩ := wired.sits g p here
    refine ⟨shape, known, ?_, ?_⟩
    · rw [Aggregator.withLine, feed_withLines]
      exact numbered
    · simp only [line?_withLine, currentLine?_withLine]
      -- Only the pump of the line sees the change.
      by_cases same : p.line = n
      · exact ⟨new, if_pos same, ordered, fun isLast =>
          ⟨drained g p here same isLast, (last isLast).2⟩⟩
      · exact ⟨line, by rw [if_neg same, read], ends, last⟩
  · intro id m after
    rw [currentLine?_withLine] at after
    obtain ⟨numbered, reads⟩ := wired.current id m after
    refine ⟨?_, fun line read => ?_⟩
    · rw [Aggregator.withLine, feed_withLines]
      exact numbered
    · rw [line?_withLine] at read
      split at read
      next same =>
        obtain rfl := Option.some.inj read
        subst same
        exact current id after
      next => exact reads line read

/-- A pump changes, but stays the pump of its line. -/
theorem setPump (wired : a.Wired past) {g : Nat} {p q : Pump} (here : a.pump? g = some p)
    (generation : q.generation = g) (source : q.source = p.source) (line : q.line = p.line)
    (shape : q.Shaped)
    (drained : q.isLast = true → (∀ line, a.line? p.line = some line → line.queue = []) ∧
      ∀ id, a.currentLine? id ≠ some p.line) : (a.setPump q).Wired past := by
  -- Every pump has its old line, and only one is another pump than before.
  have now : ∀ h r, (a.setPump q).pump? h = some r → ∃ t, a.pump? h = some t ∧ r.line = t.line ∧
      (r = t ∨ h = g ∧ t = p ∧ r = q) := by
    intro h r found
    rcases of_pump?_setPump here generation found with before | ⟨rfl, rfl⟩
    · exact ⟨r, before, rfl, .inl rfl⟩
    · exact ⟨p, here, line, .inr ⟨rfl, rfl, rfl⟩⟩
  refine ⟨wired.channel, ?_, ?_, ?_, wired.known⟩
  · intro h r found
    obtain ⟨t, before, _, rfl | ⟨rfl, rfl, rfl⟩⟩ := now h r found
    · obtain ⟨shape, known, numbered, reads⟩ := wired.sits h r before
      exact ⟨shape, known, numbered, reads⟩
    · obtain ⟨_, known, numbered, old, read, ends, _⟩ := wired.sits h t before
      refine ⟨shape, known, line ▸ numbered, old, ?_, ends, fun isLast => ?_⟩
      · rw [line]; exact read
      · obtain ⟨empty, gone⟩ := drained isLast
        exact ⟨empty old read, by rw [line]; exact gone⟩
  · intro h k r t first second same
    obtain ⟨r', before, lineR, _⟩ := now h r first
    obtain ⟨t', beforeToo, lineT, _⟩ := now k t second
    exact wired.apart h k r' t' before beforeToo (by rw [← lineR, ← lineT, same])
  · intro id n current
    obtain ⟨numbered, reads⟩ := wired.current id n current
    refine ⟨numbered, fun old read => ?_⟩
    obtain ⟨isOpen, noErrors, h, r, there, readsToo, sourceToo, holder⟩ := reads old read
    refine ⟨isOpen, noErrors, h, ?_⟩
    by_cases same : h = g
    · subst same
      obtain rfl := Option.some.inj (here.symm.trans there)
      refine ⟨q, by rw [pump?_setPump, generation, if_pos rfl, there]; rfl, ?_, ?_, holder⟩
      · rw [line, readsToo]
      · rw [source, sourceToo]
    · exact ⟨r, by rw [pump?_setPump, generation, if_neg same, there], readsToo, sourceToo, holder⟩

/-- A pump ends and gives its line up. -/
theorem endPump (wired : a.Wired past) {g : Nat} {p : Pump} (here : a.pump? g = some p) :
    (a.endPump p).Wired past := by
  have generation := pump?_generation here
  have now : ∀ h r, (a.endPump p).pump? h = some r → h ≠ g ∧ a.pump? h = some r :=
    fun h r found => generation ▸ of_pump?_endPump found
  refine ⟨?_, ?_, ?_, ?_, wired.known⟩
  · obtain ⟨f, channel⟩ := wired.channel
    exact ⟨_, by rw [Aggregator.endPump, channel]; rfl⟩
  · intro h r found
    obtain ⟨other, before⟩ := now h r found
    obtain ⟨shape, known, numbered, line, read, ends, last⟩ := wired.sits h r before
    refine ⟨shape, known, ?_, line, ?_, ends, ?_⟩
    · rw [Aggregator.endPump, feed_withLines]
      exact numbered
    -- The line that is given up is that of no other pump.
    · rw [line?_endPump, if_neg fun same => other (wired.apart h g r p before here same), read]
    · simpa using last
  · intro h k r t first second same
    exact wired.apart h k r t (now h r first).2 (now k t second).2 same
  · intro id n current
    rw [currentLine?_endPump] at current
    obtain ⟨numbered, reads⟩ := wired.current id n current
    refine ⟨?_, fun line read => ?_⟩
    · rw [Aggregator.endPump, feed_withLines]
      exact numbered
    · rw [line?_endPump] at read
      split at read
      · cases read
      next other =>
        obtain ⟨isOpen, noErrors, h, r, there, readsToo, rest⟩ := reads line read
        refine ⟨isOpen, noErrors, h, r, ?_, readsToo, rest⟩
        rw [pump?_endPump, generation, if_neg, there]
        rintro rfl
        obtain rfl := Option.some.inj (here.symm.trans there)
        exact other readsToo.symm

/-- A source is hung up. -/
theorem hungUp (wired : a.Wired past) (id : String) : (a.hungUp id).Wired past := by
  obtain ⟨f, channel⟩ := wired.channel
  obtain ⟨current, line, next⟩ := hungUp_lines channel id
  have queue : ∀ n old, a.line? n = some old →
      ∃ new, (a.hungUp id).line? n = some new ∧ new.queue = old.queue := by
    intro n old read
    rw [line, read]
    split
    · exact ⟨_, rfl, rfl⟩
    · exact ⟨_, rfl, rfl⟩
  -- No line becomes a current one, and what is on the lines stays.
  have fewer : ∀ other n, (a.hungUp id).currentLine? other = some n →
      other ≠ id ∧ a.currentLine? other = some n := by
    intro other n found
    rw [current] at found
    split at found
    · cases found
    next differ => exact ⟨differ, found⟩
  have pump : ∀ g, (a.hungUp id).pump? g = a.pump? g := pump?_onChannel _
  have last : (a.hungUp id).lastGeneration = a.lastGeneration := by rw [hungUp_eq channel]
  refine ⟨⟨f.hangUp id, by rw [hungUp_eq channel]⟩, ?_, ?_, ?_, ?_⟩
  · intro g p here
    rw [pump] at here
    obtain ⟨shape, known, numbered, old, read, ends, drained⟩ := wired.sits g p here
    obtain ⟨new, readToo, same⟩ := queue p.line old read
    refine ⟨shape, last ▸ known, next ▸ numbered, new, readToo, same ▸ ends, fun isLast => ?_⟩
    obtain ⟨empty, gone⟩ := drained isLast
    exact ⟨same.trans empty, fun other found => gone other (fewer other p.line found).2⟩
  · simpa only [pump] using wired.apart
  · intro other n found
    obtain ⟨differ, before⟩ := fewer other n found
    obtain ⟨numbered, reads⟩ := wired.current other n before
    refine ⟨next ▸ numbered, fun new read => ?_⟩
    rw [line] at read
    split at read
    next both =>
      -- A line that is read is the current one of one source at most.
      obtain ⟨old, readToo, rfl⟩ := Option.map_eq_some_iff.1 read
      obtain ⟨_, _, g, p, here, readsToo, source, _⟩ := reads old readToo
      exact absurd (source.symm.trans (wired.current_unique both readToo here readsToo).1) differ
    next => simpa only [pump] using reads new read
  · simpa only [last] using wired.known

theorem pump?_new (wired : a.Wired past) : a.pump? (a.lastGeneration + 1) = none := by
  cases old : a.pump? (a.lastGeneration + 1) with
  | none => rfl
  | some p => exact absurd (wired.sits _ p old).known (Nat.not_succ_le_self _)

theorem pump?_begun_new (wired : a.Wired past) (id : String) (feed : Feed) (n : Nat) :
    (a.begun id feed n).pump? (a.lastGeneration + 1) =
      some ⟨id, a.lastGeneration + 1, n, none, false⟩ := by
  rw [pump?_begun, wired.pump?_new, Option.none_or, if_pos rfl]

/-- A source is added, with a pump and a line of its own. -/
theorem begun (wired : a.Wired past) {id : String} {feed : Feed} {n : Nat}
    (subscribed : a.feed.subscribe id = .ok (feed, n)) :
    (a.begun id feed n).Wired (.added id (a.lastGeneration + 1) :: past) := by
  obtain ⟨f, channel⟩ := wired.channel
  obtain ⟨newChannel, newLine, newCurrent, newNumber, newNext⟩ := begun_lines channel subscribed
  have before := wired.hungUp id
  have next : (a.hungUp id).feed.lines.next = n := by rw [(hungUp_lines channel id).2.2, newNumber]
  have last : (a.hungUp id).lastGeneration = a.lastGeneration := by rw [hungUp_eq channel]
  have same : ∀ g, (a.hungUp id).pump? g = a.pump? g := pump?_onChannel _
  have pump : ∀ g p, (a.begun id feed n).pump? g = some p →
      (a.hungUp id).pump? g = some p ∨
        g = a.lastGeneration + 1 ∧ p = ⟨id, a.lastGeneration + 1, n, none, false⟩ := by
    intro g p here
    rw [same]
    exact of_pump?_begun here
  -- The number of the new line is above all numbers that were given before.
  have earlier : ∀ g p, (a.hungUp id).pump? g = some p → p.line ≠ n := by
    intro g p here equal
    have numbered := (before.sits g p here).numbered
    rw [next, equal] at numbered
    exact Nat.lt_irrefl n numbered
  refine ⟨newChannel, ?_, ?_, ?_, ?_⟩
  · intro g p here
    rcases pump g p here with old | ⟨rfl, rfl⟩
    · obtain ⟨shape, known, numbered, line, read, ends, drained⟩ := before.sits g p old
      refine ⟨shape, Nat.le_succ_of_le (last ▸ known), ?_, line, ?_, ends, fun isLast => ?_⟩
      · rw [newNext]
        exact Nat.lt_succ_of_lt (next ▸ numbered)
      · rw [newLine, if_neg (earlier g p old), read]
      · refine ⟨(drained isLast).1, fun other current => ?_⟩
        rw [newCurrent] at current
        split at current
        · exact earlier g p old (Option.some.inj current).symm
        · exact (drained isLast).2 other current
    · refine ⟨.idle .., Nat.le_refl _, ?_, ⟨[], true⟩, ?_, ⟨[], none, rfl⟩, fun isLast => ?_⟩
      · rw [newNext]
        exact Nat.lt_succ_self n
      · rw [newLine, if_pos rfl]
      · cases isLast
  · intro g h p q first second equal
    rcases pump g p first with old | ⟨rfl, rfl⟩ <;> rcases pump h q second with oldToo | ⟨rfl, rfl⟩
    · exact before.apart g h p q old oldToo equal
    · exact absurd equal (earlier g p old)
    · exact absurd equal.symm (earlier h q oldToo)
    · rfl
  · intro other m current
    rw [newCurrent] at current
    rw [newNext]
    split at current
    next own =>
      subst own
      obtain rfl := Option.some.inj current
      refine ⟨Nat.lt_succ_self n, fun line read => ?_⟩
      rw [newLine, if_pos rfl] at read
      obtain rfl := Option.some.inj read
      refine ⟨rfl, ⟨[], rfl⟩, a.lastGeneration + 1, _, wired.pump?_begun_new .., rfl, rfl, if_pos rfl⟩
    next differ =>
      obtain ⟨numbered, reads⟩ := before.current other m current
      rw [next] at numbered
      refine ⟨Nat.lt_succ_of_lt numbered, fun line read => ?_⟩
      rw [newLine, if_neg (Nat.ne_of_lt numbered)] at read
      obtain ⟨isOpen, noErrors, g, p, there, readsToo, source, holder⟩ := reads line read
      refine ⟨isOpen, noErrors, g, p, ?_, readsToo, source, ?_⟩
      · rw [pump?_begun, ← same, there]
        rfl
      · rw [Occurrence.holder?, if_neg (Ne.symm differ), holder]
  · intro other g member
    rcases List.mem_cons.1 member with new | old
    · obtain ⟨_, rfl⟩ := Occurrence.added.inj new
      exact Nat.le_refl _
    · exact Nat.le_succ_of_le (wired.known other g old)

end Wired

end Aggregator

end BlockGraph
