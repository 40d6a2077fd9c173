import BlockGraph.Proofs.Aggregator.Moves

/-!
# Delivery

Over any run, what is applied for an incarnation of a source is what was published to it, from the
first header on, each header once and in its place; and all of it when the incarnation has ended.

* `act_engine` — a move applies to the engine what is noted of it, and nothing else.
* `Course` — a run from the beginning, with what was noted of it.
* `Course.after_onward`, `Course.after_engine` — what holds at any time of a run.
* `Course.delivers` — what arrives.
-/

namespace BlockGraph

open Occurrence

namespace Aggregator

variable {a b : Aggregator} {past : List Occurrence}

/-! ## The engine -/

theorem closeSource_engine (a : Aggregator) (id : String) (generation : Nat) (state : SourceState) :
    (a.closeSource id generation state).engine = a.engine := by
  unfold closeSource
  split
  · split <;> rfl
  · rfl

theorem onChannel_engine (a : Aggregator) (f : ChannelFeed → ChannelFeed) :
    (a.onChannel f).engine = a.engine := by
  obtain ⟨feed, same⟩ := a.onChannel_shape f
  rw [same]

theorem forward_engine {p : Pump} (forwards : a.forward p = some b) : b.engine = a.engine := by
  obtain ⟨feed, queue, pumps, same⟩ := a.forward_shape p
  rw [forwards] at same
  exact congrArg (·.engine) same

/-- A header that is counted is applied, and no other. -/
theorem ingested_engine (a : Aggregator) (id : String) (generation : Option Nat) (header : Header) :
    (a.ingested id generation header).engine =
      if a.takes id generation header then a.engine.applied id header else a.engine := by
  cases taken : a.takes id generation header with
  | true =>
    obtain ⟨s, _, _, _, after⟩ := ingested_taken taken
    rw [after]
    rfl
  | false =>
    rcases ingested_dropped taken with ⟨after, _⟩ | ⟨s, _, after⟩
    · rw [after]
      rfl
    · rw [after]
      rfl

/-- A move applies to the engine what is noted of it, and nothing else. -/
theorem act_engine (a : Aggregator) (m : Move) :
    (a.act m).engine = a.engine.appliedAll (allAccepted (a.occurs? m).toList) := by
  cases m with
  | add name =>
    have acts : a.act (.add name) = (a.addSource name).1 := rfl
    rw [acts]
    rcases a.addSource_cases name with ⟨after, note⟩ | ⟨_, _, _, _, after, note⟩ | ⟨_, after, note⟩
    all_goals
      rw [after, note]
      rfl
  | stop id =>
    show (a.stopSource id).1.engine = a.engine
    unfold stopSource
    split
    · split <;> rfl
    · rfl
  | remove id =>
    show (a.removeSource id).1.engine = a.engine
    unfold removeSource
    split <;> rfl
  | onHeader id header =>
    simp only [act, occurs?, onHeader_fst, ingested_engine]
    split <;> rfl
  | publish source header =>
    -- At most it is noted that a header was published.
    have notes : allAccepted (a.occurs? (.publish source header)).toList = [] := by
      unfold occurs?
      dsimp only
      split
      · split <;> rfl
      · rfl
    rw [notes]
    exact onChannel_engine ..
  | close source => exact onChannel_engine ..
  | fail source reason => exact onChannel_engine ..
  | refuse source => exact onChannel_engine ..
  | allow source => exact onChannel_engine ..
  | shutdown order => exact stopAll_engine a order
  | forward generation =>
    show (((a.pump? generation).bind a.forward).getD a).engine = a.engine
    cases here : a.pump? generation with
    | none => rfl
    | some p =>
      rw [Option.bind_some]
      cases forwards : a.forward p with
      | none => rfl
      | some b => exact forward_engine forwards
  | cancel generation =>
    simp only [act]
    cases a.pump? generation with
    | none => rfl
    | some p =>
      dsimp only
      split <;> rfl
  | perform =>
    simp only [act, performNext, occurs?]
    cases queue : a.queue with
    | nil => rfl
    | cons item rest =>
      cases item with
      | closed source generation state => exact closeSource_engine ..
      | header source generation header =>
        refine (ingested_engine (a.popped rest) source (some generation) header).trans ?_
        show (if a.takes source (some generation) header then _ else _) = _
        dsimp only
        split <;> rfl

end Aggregator

/-! ## Runs from the beginning -/

/-- A run, with what was noted of it. -/
structure Course where
  now : Aggregator
  past : List Occurrence

namespace Course

/-- An aggregator without sources around a channel feed. -/
def start (settings : Settings) (capacity : Nat) : Course :=
  ⟨.new settings (.channel (.new capacity)), []⟩

/-- The run after one more move. -/
def next (c : Course) (m : Move) : Course := ⟨c.now.act m, (c.now.occurs? m).toList ++ c.past⟩

/-- The run after more moves. -/
def after (c : Course) (moves : List Move) : Course := moves.foldl next c

variable {c : Course}

/-- At the beginning there is nothing that could be lost. -/
theorem start_sound (settings : Settings) (capacity : Nat) :
    (start settings capacity).now.Sound (start settings capacity).past where
  wired :=
    { channel := ⟨.new capacity, rfl⟩
      sits := fun _ _ here => nomatch here
      apart := fun _ _ _ _ here => nomatch here
      current := fun _ _ current => nomatch current
      known := fun _ _ member => nomatch member }
  filed := fun _ _ found => nomatch found
  known := fun _ _ found => nomatch found
  queued := fun _ member => nomatch member
  down := fun _ _ _ found => nomatch found
  flows := fun _ _ found => nomatch found
  ended := fun _ _ found => nomatch found
  credited := fun _ _ => List.prefix_rfl

theorem after_onward (sound : c.now.Sound c.past) (moves : List Move) :
    Aggregator.Onward c.now c.past (c.after moves).now (c.after moves).past := by
  induction moves generalizing c with
  | nil => exact .refl sound
  | cons m moves ih =>
    have next : Aggregator.Onward c.now c.past (c.next m).now (c.next m).past :=
      Aggregator.act_onward sound m
    exact next.trans (ih next.sound)

/-- The engine stays that of the headers that were applied, in their order. -/
theorem after_engine (sound : c.now.Sound c.past) {e : Engine}
    (engine : c.now.engine = e.appliedAll (allAccepted c.past)) (moves : List Move) :
    (c.after moves).now.engine = e.appliedAll (allAccepted (c.after moves).past) := by
  induction moves generalizing c with
  | nil => exact engine
  | cons m moves ih =>
    refine ih (c := c.next m) (Aggregator.act_onward sound m).sound ?_
    show (c.now.act m).engine = e.appliedAll (allAccepted ((c.now.occurs? m).toList ++ c.past))
    rw [Aggregator.act_engine, engine, allAccepted_append, Engine.appliedAll_append]

/-- Whatever happens in whatever order: the engine is that of the headers that were applied, one after
another; what was applied for an incarnation off the queue is the beginning of what was published to
it, blank hashes left out; and when the incarnation has ended it is all of that, and remains so. -/
theorem delivers (settings : Settings) (capacity : Nat) (moves later : List Move) :
    let c := (start settings capacity).after moves
    let d := c.after later
    c.now.engine =
        (Engine.new settings.table settings.policy).appliedAll (allAccepted c.past) ∧
      (∀ id g, acceptedThrough id g c.past <+: named (publishedTo id g c.past)) ∧
      ∀ id s, c.now.sources.get? id = some s → s.state = .ended →
        acceptedThrough id s.generation d.past = named (publishedTo id s.generation d.past) := by
  intro c d
  have sound := start_sound settings capacity
  have here : c.now.Sound c.past := (after_onward sound moves).sound
  refine ⟨after_engine sound rfl moves, here.credited, fun id s found ended => ?_⟩
  exact ((after_onward here later).finished id s.generation (here.ended id s found ended)).whole

/-- A source is stopped and added again while a header of it is on the queue. When it has ended then,
what it had before does not count, and what is published afterwards has no reader. -/
theorem delivers_readded :
    let moves : List Move :=
      [.add "a", .publish "a" (.new 1 "0x1" "0x0"), .forward 1, .forward 1, .stop "a", .add "a",
        .publish "a" (.new 2 "0x2" "0x1"), .cancel 1, .forward 2, .close "a", .perform, .forward 2,
        .forward 2, .forward 2, .perform, .perform]
    let c := (start .standard 4).after moves
    let d := c.after [.publish "a" (.new 3 "0x3" "0x2")]
    c.now.sources.get? "a" = some ⟨"a", 2, false, 1, some "0x2", .ended⟩ ∧
      acceptedThrough "a" 2 d.past = [.new 2 "0x2" "0x1"] := by
  intro moves c d
  obtain ⟨_, _, ended⟩ := delivers .standard 4 moves [.publish "a" (.new 3 "0x3" "0x2")]
  have found : c.now.sources.get? "a" = some ⟨"a", 2, false, 1, some "0x2", .ended⟩ := by
    decide +kernel
  have published : named (publishedTo "a" 2 d.past) = [.new 2 "0x2" "0x1"] := by decide +kernel
  exact ⟨found, (ended "a" _ found rfl).trans published⟩

end Course

end BlockGraph
