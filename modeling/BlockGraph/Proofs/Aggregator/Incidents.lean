import BlockGraph.Proofs.Aggregator.Registry
import BlockGraph.Proofs.Engine.Stream

/-!
# Incidents

Whatever can happen to an aggregator, in whatever order. Besides the moves of a run, the feed may
become any other feed, and subscriptions to the events begin and end.

Two calls wait in the middle, and anything may happen meanwhile. A call that adds a source looks first
whether the aggregator is up, waits for the registry, registers the source, waits for the feed, and
starts the pump. A shutdown stops all sources, gives the registry free, and only then brings the
aggregator down. So each part of them is an incident of its own, and every other call is one incident.

* `Incident`, `Aggregator.incur` — what can happen, and what it does.
* `Aggregator.registers?` — the source that an incident registers.
* `addSource_parts`, `shutdown_parts` — the two calls, when nothing comes between their parts.
* `incur_isDown` — what brings the aggregator down.
* `Aside` — what happens to pumps, lines and the queue only.
* `FromFeed`, `FromFeed.incur` — what pumps bring is a header, or the news that a line has ended or
  failed.
-/

namespace BlockGraph

inductive Incident where
  | move (m : Move)
  | feed (f : Feed)
  | listen (call : Emitter.Call)
  /-- A call that adds a source, and has found the aggregator up some time before, registers it and
  waits for the feed. -/
  | enter (name : String)
  /-- The feed grants a subscription to a source that was registered. -/
  | join (id : String) (generation line : Nat)
  /-- The feed grants it none. -/
  | turnAway (id : String) (generation : Nat) (reason : String)
  /-- A shutdown stops all sources. -/
  | silence (order : List String)
  /-- A shutdown that has stopped the sources brings the aggregator down. -/
  | fall

/-- Whether an incident brings the aggregator down. -/
def Incident.ends : Incident → Bool
  | .move (.shutdown _) | .fall => true
  | _ => false

/-- What a call does since it has seen some time before that the aggregator is up, or that no source is
active. -/
inductive Incident.Belated : Incident → Prop
  | enter (name : String) : Belated (.enter name)
  | fall : Belated .fall

/-- The name for which an incident may register a source. -/
def Incident.adds? : Incident → Option String
  | .move (.add name) => some name
  | .enter name => some name
  | _ => none

namespace Aggregator

variable {a b : Aggregator} {i : Incident} {id name : String}

/-! ## Calls in parts -/

/-- Whether a source is registered for a call that has got as far as the registry. -/
def mayEnter (a : Aggregator) (name : String) : Bool :=
  Text.trim name ≠ "" && !(a.sources.get? (Text.trim name)).any (·.active)

/-- Whether a call registers a source, when nothing comes between its parts. -/
def mayAdd (a : Aggregator) (name : String) : Bool := !a.isDown && a.mayEnter name

/-- The source that an incident registers. -/
def registers? (a : Aggregator) : Incident → Option String
  | .move (.add name) => if a.mayAdd name then some (Text.trim name) else none
  | .enter name => if a.mayEnter name then some (Text.trim name) else none
  | _ => none

def entered (a : Aggregator) (name : String) : Aggregator :=
  if a.mayEnter name then
    { a.setSource (.new (Text.trim name) (a.lastGeneration + 1)) with
      lastGeneration := a.lastGeneration + 1 }
  else a

/-- A pump is started, and the status of the source is told if it is still registered. -/
def joined (a : Aggregator) (id : String) (generation line : Nat) : Aggregator :=
  let pump : Pump := ⟨id, generation, line, none, false⟩
  let a := { a with pumps := a.pumps ++ [pump] }
  match a.sources.get? id with
  | some s => if s.generation = generation then a.publishStatus s else a
  | none => a

theorem mayEnter_iff : a.mayEnter name = true ↔ Text.trim name ≠ "" ∧
    (a.sources.get? (Text.trim name)).any (·.active) = false := by
  simp [mayEnter]

theorem mayAdd_iff : a.mayAdd name = true ↔ Text.trim name ≠ "" ∧ a.isDown = false ∧
    (a.sources.get? (Text.trim name)).any (·.active) = false := by
  rw [mayAdd, Bool.and_eq_true, Bool.not_eq_true', mayEnter_iff, and_left_comm]

theorem mayEnter_of_mayAdd (may : a.mayAdd name = true) : a.mayEnter name = true :=
  (Bool.and_eq_true_iff.1 may).2

/-- A source is registered by a call that has found the aggregator up before, or finds it up now. -/
theorem registers?_cases (registers : a.registers? i = some id) :
    ∃ name, Text.trim name = id ∧ a.mayEnter name = true ∧
      (i = .enter name ∨ i = .move (.add name) ∧ a.isDown = false) := by
  cases i with
  | move m =>
    cases m with
    | add name =>
      obtain ⟨may, own⟩ := Option.ite_none_right_eq_some.1 registers
      exact ⟨name, Option.some.inj own, mayEnter_of_mayAdd may, .inr ⟨rfl, (mayAdd_iff.1 may).2.1⟩⟩
    | _ => cases registers
  | enter name =>
    obtain ⟨may, own⟩ := Option.ite_none_right_eq_some.1 registers
    exact ⟨name, Option.some.inj own, may, .inl rfl⟩
  | _ => cases registers

theorem registers?_adds (registers : a.registers? i = some id) :
    ∃ name, i.adds? = some name ∧ Text.trim name = id := by
  obtain ⟨name, own, _, rfl | ⟨rfl, _⟩⟩ := registers?_cases registers
  · exact ⟨name, rfl, own⟩
  · exact ⟨name, rfl, own⟩

/-- Once the aggregator is down, only a call that has found it up before registers a source. -/
theorem enter_of_registers? (registers : a.registers? i = some id) (down : a.isDown = true) :
    ∃ name, i = .enter name ∧ Text.trim name = id := by
  obtain ⟨name, own, _, rfl | ⟨_, up⟩⟩ := registers?_cases registers
  · exact ⟨name, rfl, own⟩
  · rw [down] at up
    cases up

theorem registers?_of_adds (nothing : i.adds? = none) : a.registers? i = none := by
  cases registers : a.registers? i with
  | none => rfl
  | some id =>
    obtain ⟨name, adds, _⟩ := registers?_adds registers
    rw [nothing] at adds
    cases adds

theorem registers?_of_down (down : a.isDown = true) (other : ∀ name, i ≠ .enter name) :
    a.registers? i = none := by
  cases registers : a.registers? i with
  | none => rfl
  | some id =>
    obtain ⟨name, entering, _⟩ := enter_of_registers? registers down
    exact absurd entering (other name)

theorem addSource_barred (barred : a.mayAdd name = false) : (a.addSource name).1 = a := by
  by_cases spelled : Text.trim name = ""
  · simp [addSource, spelled]
  · cases down : a.isDown with
    | true => simp [addSource, spelled, down]
    | false =>
      have active : (a.sources.get? (Text.trim name)).any (·.active) = true := by
        simpa [mayAdd, mayEnter, spelled, down] using barred
      simp [addSource, spelled, down, active]

theorem joined_entered (may : a.mayEnter name = true) (feed : Feed) (line : Nat) :
    { a.entered name with feed }.joined (Text.trim name) (a.lastGeneration + 1) line =
      a.begun (Text.trim name) feed line := by
  simp only [entered, may, if_true, joined, setSource, Source.new, SortedMap.get?_insert_self,
    publishStatus, begun]

theorem turnedAway_entered (may : a.mayEnter name = true) (reason : String) :
    (a.entered name).closeSource (Text.trim name) (a.lastGeneration + 1) (.failed reason) =
      a.refused (Text.trim name) reason := by
  simp only [entered, may, if_true, closeSource, setSource, Source.new, SortedMap.get?_insert_self,
    decide_true, Bool.and_self, setAndPublish, publishStatus, Source.deactivate,
    SortedMap.insert_insert, refused]

/-- When nothing comes between its parts, a call that adds a source looks whether the aggregator is up,
registers the source, and gets its subscription or none. -/
theorem addSource_parts (a : Aggregator) (name : String) :
    (a.addSource name).1 =
      if a.mayAdd name then
        match a.feed.subscribe (Text.trim name) with
        | .ok (feed, line) =>
          { a.entered name with feed }.joined (Text.trim name) (a.lastGeneration + 1) line
        | .error e =>
          (a.entered name).closeSource (Text.trim name) (a.lastGeneration + 1) (.failed e.message)
      else a := by
  cases may : a.mayAdd name with
  | false => exact addSource_barred may
  | true =>
    obtain ⟨spelled, up, idle⟩ := mayAdd_iff.1 may
    have enters := mayEnter_of_mayAdd may
    rw [if_pos rfl]
    cases subscribed : a.feed.subscribe (Text.trim name) with
    | ok granted =>
      obtain ⟨feed, line⟩ := granted
      rw [addSource_begun spelled up idle subscribed]
      exact (joined_entered enters feed line).symm
    | error error =>
      rw [addSource_refused spelled up idle subscribed]
      exact (turnedAway_entered enters error.message).symm

def incur (a : Aggregator) : Incident → Aggregator
  | .move m => a.act m
  | .feed f => { a with feed := f }
  | .listen call => a.onEmitter (·.after call)
  | .enter name => a.entered name
  | .join id generation line => a.joined id generation line
  | .turnAway id generation reason => a.closeSource id generation (.failed reason)
  | .silence order => a.stopAll order
  | .fall => { a with isDown := true }

/-- When nothing comes between its parts, a shutdown is the one and then the other. -/
theorem shutdown_parts (a : Aggregator) (order : List String) :
    a.incur (.move (.shutdown order)) = (a.incur (.silence order)).incur .fall := rfl

def afterAll (a : Aggregator) (incidents : List Incident) : Aggregator := incidents.foldl incur a

/-! ## The end of an aggregator -/

theorem closeSource_isDown (a : Aggregator) (id : String) (generation : Nat) (state : SourceState) :
    (a.closeSource id generation state).isDown = a.isDown := by
  rcases a.closeSource_cases id generation state with same | ⟨_, _, _, _, after⟩
  · rw [same]
  · rw [after]
    rfl

theorem joined_isDown (a : Aggregator) (id : String) (generation line : Nat) :
    (a.joined id generation line).isDown = a.isDown := by
  unfold joined
  dsimp only
  split
  · split <;> rfl
  · rfl

theorem entered_isDown (a : Aggregator) (name : String) : (a.entered name).isDown = a.isDown := by
  unfold entered
  split <;> rfl

theorem act_isDown (filed : a.Filed) {m : Move} (goes : ∀ order, m ≠ .shutdown order) :
    (a.act m).isDown = a.isDown := by
  cases m with
  | add name =>
    simp only [act, addSource_parts]
    split
    · split
      · exact (joined_isDown ..).trans (a.entered_isDown name)
      · exact (closeSource_isDown ..).trans (a.entered_isDown name)
    · rfl
  | stop id => exact (stopSource_fading filed id).isDown
  | remove id => exact (removeSource_fading id).isDown
  | onHeader id header =>
    simp only [act, onHeader_fst]
    exact (ingested_fading filed id none header).isDown
  | publish | close | fail | refuse | allow =>
    obtain ⟨feed, same⟩ := a.onChannel_shape _
    exact congrArg (·.isDown) same
  | shutdown order => exact absurd rfl (goes order)
  | forward generation =>
    simp only [act]
    cases a.pump? generation with
    | none => rfl
    | some p =>
      obtain ⟨feed, queue, pumps, same⟩ := a.forward_shape p
      exact congrArg (·.isDown) same
  | cancel generation =>
    simp only [act]
    cases a.pump? generation with
    | none => rfl
    | some p =>
      dsimp only
      split <;> rfl
  | perform =>
    simp only [act, performNext]
    cases a.queue with
    | nil => rfl
    | cons item rest =>
      have popped : Filed { a with queue := rest } := filed
      cases item with
      | header source generation header =>
        exact (ingested_fading popped source (some generation) header).isDown
      | closed source generation state => exact closeSource_isDown { a with queue := rest } ..

/-- A shutdown brings the aggregator down, and nothing else does or brings it up again. -/
theorem incur_isDown (filed : a.Filed) (i : Incident) : (a.incur i).isDown = (a.isDown || i.ends) := by
  cases ends : i.ends with
  | true =>
    rw [Bool.or_true]
    cases i with
    | move m => cases m with
      | shutdown => rfl
      | _ => cases ends
    | fall => rfl
    | _ => cases ends
  | false =>
    rw [Bool.or_false]
    cases i with
    | move m => exact act_isDown filed fun order same => by rw [same] at ends; cases ends
    | feed | listen => rfl
    | enter name => exact a.entered_isDown name
    | join id generation line => exact a.joined_isDown id generation line
    | turnAway id generation reason => exact a.closeSource_isDown id generation _
    | silence order => exact (stopEach_fading filed _).isDown
    | fall => cases ends

/-! ## Beside the registry and the graph -/

/-- Pumps, lines and the queue change at most, and perhaps the aggregator comes down. -/
structure Aside (a b : Aggregator) : Prop where
  settings : b.settings = a.settings
  sources : b.sources = a.sources
  lastGeneration : b.lastGeneration = a.lastGeneration
  store : b.engine.store = a.engine.store
  journal : b.engine.journal = a.engine.journal

theorem Aside.refl (a : Aggregator) : Aside a a := ⟨rfl, rfl, rfl, rfl, rfl⟩

end Aggregator

/-! ## What pumps bring -/

/-- An item as a pump makes it: a line ends or fails, and nothing else closes a source. -/
def QueueItem.FromFeed : QueueItem → Prop
  | .header .. => True
  | .closed _ _ state => state = .ended ∨ ∃ reason, state = .failed reason

namespace Aggregator

variable {a b : Aggregator}

/-- All items on their way are such as pumps make. -/
structure FromFeed (a : Aggregator) : Prop where
  queued : ∀ item ∈ a.queue, item.FromFeed
  held : ∀ p ∈ a.pumps, ∀ item, p.holding = some item → item.FromFeed

namespace FromFeed

variable (fromFeed : a.FromFeed)
include fromFeed

theorem push {item : QueueItem} (made : item.FromFeed) :
    FromFeed { a with queue := a.queue ++ [item] } := by
  refine ⟨fun other member => ?_, fromFeed.held⟩
  rcases List.mem_append.1 member with old | new
  · exact fromFeed.queued other old
  · rwa [List.mem_singleton.1 new]

theorem endPump (p : Pump) : (a.endPump p).FromFeed :=
  ⟨fromFeed.queued, fun q member => fromFeed.held q (List.mem_filter.1 member).1⟩

theorem setPump {p : Pump} (made : ∀ item, p.holding = some item → item.FromFeed) :
    (a.setPump p).FromFeed := by
  refine ⟨fromFeed.queued, fun q member => ?_⟩
  obtain ⟨old, stored, rfl⟩ := List.mem_map.1 member
  split
  · exact made
  · exact fromFeed.held old stored

theorem popped {item : QueueItem} {rest : List QueueItem} (queue : a.queue = item :: rest) :
    FromFeed { a with queue := rest } :=
  ⟨fun other member => fromFeed.queued other (queue ▸ List.mem_cons_of_mem item member), fromFeed.held⟩

theorem forward {p : Pump} (member : p ∈ a.pumps) : ((a.forward p).getD a).FromFeed := by
  unfold Aggregator.forward
  cases holding : p.holding with
  | some item =>
    have pushed := fromFeed.push (fromFeed.held p member item holding)
    dsimp only [enqueue]
    split
    · cases p.isLast with
      | true => exact pushed.endPump p
      | false => exact pushed.setPump fun _ nothing => nomatch nothing
    · exact fromFeed
  | none =>
    have relined : ∀ lines, FromFeed { a with feed := a.feed.withLines lines } :=
      fun _ => ⟨fromFeed.queued, fromFeed.held⟩
    dsimp only [fetch]
    split
    · exact (relined _).setPump fun _ held => Option.some.inj held ▸ trivial
    · exact (relined _).setPump fun _ held => Option.some.inj held ▸ .inr ⟨_, rfl⟩
    · exact (relined _).setPump fun _ held => Option.some.inj held ▸ .inl rfl
    · exact fromFeed

theorem congr (queue : b.queue = a.queue) (pumps : b.pumps = a.pumps) :
    b.FromFeed := ⟨queue ▸ fromFeed.queued, pumps ▸ fromFeed.held⟩

theorem joined (id : String) (generation line : Nat) :
    (a.joined id generation line).FromFeed := by
  have started : FromFeed { a with pumps := a.pumps ++ [⟨id, generation, line, none, false⟩] } := by
    refine ⟨fromFeed.queued, fun p member => ?_⟩
    rcases List.mem_append.1 member with old | new
    · exact fromFeed.held p old
    · rw [List.mem_singleton.1 new]
      exact fun _ nothing => nomatch nothing
  unfold Aggregator.joined
  dsimp only
  split
  · split <;> exact started.congr rfl rfl
  · exact started

theorem closed (id : String) (generation : Nat) (state : SourceState) :
    (a.closeSource id generation state).FromFeed := by
  rcases a.closeSource_cases id generation state with same | ⟨s, _, _, _, after⟩
  · rwa [same]
  · rw [after]
    exact fromFeed.congr rfl rfl

theorem stopped (filed : a.Filed) (order : List String) : (a.stopAll order).FromFeed := by
  have fading : Fading a (a.stopAll order) := stopEach_fading filed _
  exact fromFeed.congr fading.queue fading.pumps

theorem ingested (filed : a.Filed) (id : String) (generation : Option Nat) (header : Header) :
    (a.ingested id generation header).FromFeed := by
  have fading := ingested_fading filed id generation header
  exact fromFeed.congr fading.queue fading.pumps

theorem entered (name : String) : (a.entered name).FromFeed := by
  unfold Aggregator.entered
  split <;> exact fromFeed.congr rfl rfl

theorem onChannel (f : ChannelFeed → ChannelFeed) :
    (a.onChannel f).FromFeed := by
  obtain ⟨feed, same⟩ := a.onChannel_shape f
  rw [same]
  exact fromFeed.congr rfl rfl

theorem act (filed : a.Filed) (m : Move) : (a.act m).FromFeed := by
  cases m with
  | add name =>
    simp only [Aggregator.act, addSource_parts]
    split
    · split
      next feed _ _ =>
        have granted : FromFeed { a.entered name with feed } := (fromFeed.entered name).congr rfl rfl
        exact granted.joined ..
      next => exact (fromFeed.entered name).closed ..
    · exact fromFeed
  | stop id =>
    have fading := stopSource_fading filed id
    exact fromFeed.congr fading.queue fading.pumps
  | remove id =>
    have fading : Fading a (a.removeSource id).1 := removeSource_fading id
    exact fromFeed.congr fading.queue fading.pumps
  | onHeader id header =>
    simp only [Aggregator.act, onHeader_fst]
    exact fromFeed.ingested filed id none header
  | publish | close | fail | refuse | allow => exact fromFeed.onChannel _
  | shutdown order => exact (fromFeed.stopped filed order).congr rfl rfl
  | forward generation =>
    simp only [Aggregator.act]
    cases here : a.pump? generation with
    | none => exact fromFeed
    | some p => exact fromFeed.forward (List.mem_of_find?_eq_some here)
  | cancel generation =>
    simp only [Aggregator.act]
    cases a.pump? generation with
    | none => exact fromFeed
    | some p =>
      dsimp only
      split
      · exact fromFeed
      · exact fromFeed.endPump p
  | perform =>
    simp only [Aggregator.act, performNext]
    cases queue : a.queue with
    | nil => exact fromFeed
    | cons item rest =>
      have popped := fromFeed.popped queue
      have filedToo : Filed { a with queue := rest } := filed
      cases item with
      | header source generation header => exact popped.ingested filedToo source (some generation) header
      | closed source generation state => exact popped.closed source generation state

theorem incur (filed : a.Filed) (i : Incident) : (a.incur i).FromFeed := by
  cases i with
  | move m => exact fromFeed.act filed m
  | feed | listen => exact fromFeed.congr rfl rfl
  | enter name => exact fromFeed.entered name
  | join id generation line => exact fromFeed.joined id generation line
  | turnAway id generation reason => exact fromFeed.closed id generation _
  | silence order => exact fromFeed.stopped filed order
  | fall => exact fromFeed.congr rfl rfl

end FromFeed

end Aggregator

end BlockGraph
