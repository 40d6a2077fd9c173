import BlockGraph.Proofs.Aggregator.Origin
import BlockGraph.Proofs.Engine.Stream

/-!
# Listening to a run

Nothing that an aggregator does depends on who listens to its events, and a subscription begins with all
that was told before. So it makes no difference when somebody subscribes: what waits for the subscription
in the end, even after a shutdown, is all that the run has told.

* `Emitter.Fits` — a change of subscriptions that goes with emitting.
* `step_heard`, `settle_heard` — the work goes on as it would have.
* `Run.heard` — somebody subscribes when all recordings have been added and some work has been done.
* `Run.heard_eq`, `Run.heard_everything` — the run is the same, and what the subscription holds in the end.
-/

namespace BlockGraph

/-! ## Subscribing and emitting -/

namespace Emitter

/-- A change of subscriptions after which it makes no difference whether events come before or behind. -/
def Fits (f : Emitter → Emitter) : Prop := ∀ e events, (f e).emit events = f (e.emit events)

/-- The only subscription, which has read nothing. -/
def only (name : String) (e : Emitter) : Emitter := ⟨e.journal, [⟨name, e.journal, true⟩]⟩

theorem only_fits (name : String) : Fits (only name) := by
  intro e events
  unfold emit
  split
  · rfl
  · rfl

theorem subscribe_none {e : Emitter} (none : e.subscriptions = []) (name : String) :
    e.subscribe name = e.only name := by
  simp [subscribe, unsubscribe, only, none]

theorem drain_only (name : String) (e : Emitter) :
    ((e.only name).drain name).2.getD [] = e.journal := by
  simp [drain, live?, only, Subscription.answers]

end Emitter

namespace Engine

/-- The engine with other subscriptions. -/
def onEmitter (e : Engine) (f : Emitter → Emitter) : Engine := { e with emitter := f e.emitter }

variable {f : Emitter → Emitter} (fits : Emitter.Fits f)
include fits

theorem apply_heard (e : Engine) (source : String) (header : Header) :
    (e.onEmitter f).apply source header =
      (e.apply source header).map fun (e, events) => (e.onEmitter f, events) := by
  have each : ∀ events, (f e.emitter).emit events = f (e.emitter.emit events) := fits e.emitter
  unfold apply onEmitter
  dsimp only
  cases e.store.insert header source with
  | error => rfl
  | ok result =>
    obtain ⟨next, insertion⟩ := result
    -- Either way the emitter is used for one list of events, which the store alone decides.
    cases isNew : insertion.isNew with
    | true =>
      simp only [bind, Except.bind, isNew, if_true, each]
      rfl
    | false =>
      simp only [bind, Except.bind, isNew, if_false, Bool.false_eq_true, each]
      rfl

omit fits in
theorem appliedAll_subscriptions {e : Engine} (reachable : e.store.Reachable)
    (none : e.emitter.subscriptions = []) (as : List Announcement) :
    (e.appliedAll as).emitter.subscriptions = [] := by
  induction as generalizing e with
  | nil => exact none
  | cons a as ih =>
    refine ih (applied_reachable reachable) ?_
    rw [applied_emitter reachable.valid, Emitter.emit]
    split
    · exact none
    · rw [none]
      rfl

end Engine

namespace Aggregator

variable {f : Emitter → Emitter} (fits : Emitter.Fits f)

/-! ## Work in the background -/

section
include fits

theorem ingested_heard (a : Aggregator) (id : String) (generation : Option Nat) (header : Header) :
    (a.onEmitter f).ingested id generation header = (a.ingested id generation header).onEmitter f := by
  have sources : (a.onEmitter f).sources = a.sources := rfl
  have settings : (a.onEmitter f).settings = a.settings := rfl
  have engine : (a.onEmitter f).engine = a.engine.onEmitter f := rfl
  unfold ingested ingest
  rw [sources, settings, engine, Engine.apply_heard fits]
  cases a.sources.get? id with
  | none => rfl
  | some s =>
    cases accepts : s.accepts generation with
    | false => simp [accepts]
    | true =>
      cases full : s.isFull a.settings.eventCap with
      | true =>
        simp only [accepts, full]
        rfl
      | false =>
        simp only [accepts, full]
        cases a.engine.apply id header <;> rfl

omit fits in
theorem closeSource_heard (a : Aggregator) (id : String) (generation : Nat) (state : SourceState) :
    (a.onEmitter f).closeSource id generation state =
      (a.closeSource id generation state).onEmitter f := by
  unfold closeSource
  simp only [onEmitter]
  split
  · split <;> rfl
  · rfl

theorem perform_heard (a : Aggregator) (item : QueueItem) :
    (a.onEmitter f).perform item = (a.perform item).onEmitter f := by
  cases item with
  | header source generation header => exact ingested_heard fits a source (some generation) header
  | closed source generation state => exact closeSource_heard a source generation state

theorem mutationStep_heard (a : Aggregator) :
    (a.onEmitter f).mutationStep = a.mutationStep.map (·.onEmitter f) := by
  have down : (a.onEmitter f).isDown = a.isDown := rfl
  have queue : (a.onEmitter f).queue = a.queue := rfl
  unfold mutationStep performNext
  rw [down, queue]
  split
  · rfl
  · cases a.queue with
    | nil => rfl
    | cons item queue => exact congrArg some (perform_heard fits { a with queue } item)

omit fits in
theorem forward_heard (a : Aggregator) (p : Pump) :
    (a.onEmitter f).forward p = (a.forward p).map (·.onEmitter f) := by
  unfold forward
  cases p.holding with
  | some item =>
    have room : (a.onEmitter f).queueRoom = a.queueRoom := rfl
    have queue : (a.onEmitter f).queue = a.queue := rfl
    dsimp only [enqueue]
    rw [room, queue]
    split
    · cases p.isLast <;> rfl
    · rfl
  | none =>
    have feed : (a.onEmitter f).feed = a.feed := rfl
    dsimp only [fetch]
    rw [feed]
    obtain ⟨left, received⟩ := a.feed.lines.take p.line
    cases received with
    | item item => cases item <;> rfl
    | ended => rfl
    | pending => rfl

omit fits in
theorem pumpStep_heard (a : Aggregator) (p : Pump) :
    (a.onEmitter f).pumpStep p = (a.pumpStep p).map (·.onEmitter f) := by
  have current : (a.onEmitter f).isCurrent p.source p.generation = a.isCurrent p.source p.generation := rfl
  unfold pumpStep
  rw [current]
  split
  · rfl
  · exact forward_heard a p

theorem step_heard (a : Aggregator) : (a.onEmitter f).step = a.step.map (·.onEmitter f) := by
  have pumps : (a.onEmitter f).pumps.findSome? (a.onEmitter f).pumpStep =
      (a.pumps.findSome? a.pumpStep).map (·.onEmitter f) := by
    show a.pumps.findSome? (a.onEmitter f).pumpStep = _
    rw [funext (pumpStep_heard a), List.map_findSome?]
    rfl
  rw [step, step, mutationStep_heard fits, pumps]
  cases a.mutationStep <;> rfl

theorem stepUpTo_heard (n : Nat) (a : Aggregator) :
    stepUpTo n (a.onEmitter f) = (stepUpTo n a).onEmitter f := by
  induction n generalizing a with
  | zero => rfl
  | succ n ih =>
    rw [stepUpTo, stepUpTo, step_heard fits]
    cases a.step with
    | none => rfl
    | some b => exact ih b

theorem settle_heard (a : Aggregator) : (a.onEmitter f).settle = a.settle.onEmitter f :=
  stepUpTo_heard fits a.workLeft a

end

end Aggregator

/-! ## Runs -/

namespace Run

open Aggregator

/-- So many steps of work are done for a run. -/
def work (r : Run) (steps : Nat) : Run := { r with aggregator := stepUpTo steps r.aggregator }

/-- The run with other subscriptions. -/
def onEmitter (r : Run) (f : Emitter → Emitter) : Run := { r with aggregator := r.aggregator.onEmitter f }

/-- A run in which somebody subscribes when all recordings have been added and so many steps of work have
been done. -/
def heard (settings : Settings) (openFile : String → Except OsError Contents) (feeds : List String)
    (name : String) (steps : Nat) : Run :=
  (((start (.new settings (.replay ⟨none, openFile⟩ .empty)) feeds).work steps).listen name).finish

/-- The run is the same that it would have been, but for the one subscription. -/
theorem heard_eq (settings : Settings) (openFile : String → Except OsError Contents)
    (feeds : List String) (name : String) (steps : Nat) :
    heard settings openFile feeds name steps = (play settings openFile feeds).onEmitter (·.only name) := by
  have anything : ReplayFeed.Holds ⟨none, openFile⟩ (fun _ => True) feeds := fun _ _ _ _ _ _ => trivial
  have started := start_fed (Fed.new settings) anything
  obtain ⟨as, engine, _⟩ := (started.stepUpTo steps).applied
  -- Nobody has subscribed before, and so the new subscription is the only one.
  have alone := Engine.appliedAll_subscriptions
    (Engine.Built.new settings.table settings.policy).reachable rfl as
  rw [← engine] at alone
  unfold heard listen work play finish onEmitter
  dsimp only
  rw [← settle_stepUpTo started.manned steps, ← settle_heard (Emitter.only_fits name)]
  simp only [Aggregator.onEmitter, Emitter.subscribe_none alone]

/-- Whenever somebody subscribes to a run whose recordings have been added, what waits for the
subscription when the run has been shut down is all that the run has told. -/
theorem heard_everything (settings : Settings) (openFile : String → Except OsError Contents)
    (feeds : List String) (name : String) (steps : Nat) :
    (heard settings openFile feeds name steps).received name =
      (play settings openFile feeds).aggregator.engine.journal := by
  rw [heard_eq, received, shutdown]
  dsimp only
  rw [stopAll_engine]
  exact Emitter.drain_only name _

end Run

end BlockGraph
