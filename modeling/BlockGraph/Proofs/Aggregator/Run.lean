import BlockGraph.Aggregator
import BlockGraph.Proofs.Engine.Cycle

/-!
# Runs of the aggregator

A run is any sequence of calls of the interface, calls on the feed, steps of pumps and steps of the
mutation loop. Whoever looks on notes when a subscription begins, what is put on its line, and what is
applied to the graph; the newest note comes first.

* `Move`, `Aggregator.act` — what can happen next, and what it does.
* `Occurrence`, `Aggregator.occurs?` — what is noted of it.
* `ingested_taken`, `ingested_dropped` — what becomes of a header that reaches the graph.
-/

namespace BlockGraph

/-- What can happen next. A cancelled pump may still pass one item on before it ends. -/
inductive Move where
  | add (name : String)
  | stop (id : String)
  | remove (id : String)
  | onHeader (id : String) (header : Header)
  | publish (source : String) (header : Header)
  | close (source : String)
  /-- Where there is no room to tell the reason, the line ends without it. -/
  | fail (source reason : String)
  | refuse (source : String)
  | allow (source : String)
  /-- All sources are stopped, in any order. -/
  | shutdown (order : List String)
  /-- A pump passes one item on. -/
  | forward (generation : Nat)
  /-- A pump ends because it is cancelled. -/
  | cancel (generation : Nat)
  /-- The mutation loop takes one item from the queue, perhaps a last one after a shutdown. -/
  | perform

/-- What is noted of a run. -/
inductive Occurrence where
  /-- A source was added and has its subscription. -/
  | added (source : String) (generation : Nat)
  /-- A header was put on the line of a source's current subscription. -/
  | published (source : String) (header : Header)
  /-- A header was applied for a source: off the queue, for a generation, or at once. -/
  | accepted (source : String) (generation : Option Nat) (header : Header)
  deriving DecidableEq, Repr

namespace Occurrence

/-- The generation that has the current subscription of a source. -/
def holder? (id : String) : List Occurrence → Option Nat
  | .added source generation :: past =>
    if source = id then some generation else holder? id past
  | .published .. :: past | .accepted .. :: past => holder? id past
  | [] => none

/-- The headers that were put on the line of a source's subscription in a generation. -/
def publishedTo (id : String) (generation : Nat) : List Occurrence → List Header
  | .published source header :: past =>
    if source = id ∧ holder? id past = some generation then
      publishedTo id generation past ++ [header]
    else publishedTo id generation past
  | .added .. :: past | .accepted .. :: past => publishedTo id generation past
  | [] => []

/-- The headers that were applied for a source in a generation, off the queue. -/
def acceptedThrough (id : String) (generation : Nat) : List Occurrence → List Header
  | .accepted source (some given) header :: past =>
    if source = id ∧ given = generation then acceptedThrough id generation past ++ [header]
    else acceptedThrough id generation past
  | .accepted _ none _ :: past => acceptedThrough id generation past
  | .added .. :: past | .published .. :: past => acceptedThrough id generation past
  | [] => []

/-- All headers that were applied, with their sources. -/
def allAccepted : List Occurrence → List Announcement
  | .accepted source _ header :: past => allAccepted past ++ [⟨source, header⟩]
  | .added .. :: past | .published .. :: past => allAccepted past
  | [] => []

theorem allAccepted_append (later past : List Occurrence) :
    allAccepted (later ++ past) = allAccepted past ++ allAccepted later := by
  induction later with
  | nil => exact (List.append_nil _).symm
  | cons o later ih =>
    cases o with
    | accepted source generation header =>
      show allAccepted (later ++ past) ++ _ = allAccepted past ++ (allAccepted later ++ _)
      rw [ih, List.append_assoc]
    | added | published => exact ih

end Occurrence

/-- The headers that have a hash. -/
def named (headers : List Header) : List Header := headers.filter fun header => !header.isBlank

namespace Aggregator

variable {a : Aggregator} {id : String} {generation : Option Nat} {header : Header}

/-- The pump of a generation. -/
def pump? (a : Aggregator) (generation : Nat) : Option Pump :=
  a.pumps.find? (·.generation == generation)

/-- Whether a header is counted for a source and applied. -/
def takes (a : Aggregator) (id : String) (generation : Option Nat) (header : Header) : Bool :=
  (a.sources.get? id).any fun s =>
    s.accepts generation && !s.isFull a.settings.eventCap && !header.isBlank

/-- The aggregator after a header that has reached the graph. -/
def ingested (a : Aggregator) (id : String) (generation : Option Nat) (header : Header) :
    Aggregator :=
  match a.ingest id generation header with
  | .ok (a, _) => a
  | .error _ => a

/-- What a move does. -/
def act (a : Aggregator) : Move → Aggregator
  | .add name => (a.addSource name).1
  | .stop id => (a.stopSource id).1
  | .remove id => (a.removeSource id).1
  | .onHeader id header => (a.onHeader id header).1
  | .publish source header => a.onChannel fun f => (f.publish source header).1
  | .close source => (a.closeLine source).1
  | .fail source reason => a.onChannel fun f => (f.fail source reason).1
  | .refuse source => a.onChannel (·.refuse source)
  | .allow source => a.onChannel (·.allow source)
  | .shutdown order => a.shutdown order
  | .forward generation => ((a.pump? generation).bind a.forward).getD a
  | .cancel generation =>
    match a.pump? generation with
    | some p => if a.isCurrent p.source generation then a else a.endPump p
    | none => a
  | .perform => a.performNext.getD a

/-- What is noted of a move. -/
def occurs? (a : Aggregator) : Move → Option Occurrence
  | .add name =>
    match (a.addSource name).2 with
    | .ok true => some (.added (Text.trim name) (a.lastGeneration + 1))
    | _ => none
  | .publish source header =>
    match a.feed with
    | .channel f =>
      if (f.publish source header).2 = .delivered then some (.published source header) else none
    | .replay .. => none
  | .onHeader id header =>
    if a.takes id none header then some (.accepted id none header) else none
  | .perform =>
    match a.queue with
    | .header source generation header :: _ =>
      if a.takes source (some generation) header then
        some (.accepted source (some generation) header)
      else none
    | _ => none
  | _ => none

/-! ## Headers that reach the graph -/

theorem onHeader_fst (a : Aggregator) (id : String) (header : Header) :
    (a.onHeader id header).1 = a.ingested id none header := by
  unfold onHeader ingested
  split <;> simp_all

/-- A header that is counted is applied, and its source may have had its share then. -/
theorem ingested_taken (taken : a.takes id generation header = true) :
    ∃ s, a.sources.get? id = some s ∧ s.accepts generation = true ∧ header.isBlank = false ∧
      a.ingested id generation header =
        { a with engine := a.engine.applied id header }.setAndPublish
          ((s.record header.hash).capped a.settings.eventCap) := by
  cases found : a.sources.get? id with
  | none => simp [takes, found] at taken
  | some s =>
    simp only [takes, found, Option.any_some, Bool.and_eq_true, Bool.not_eq_true'] at taken
    obtain ⟨⟨accepts, room⟩, blank⟩ := taken
    refine ⟨s, rfl, accepts, blank, ?_⟩
    -- Only a blank hash is refused, so the header is applied.
    obtain ⟨⟨engine, events⟩, applied⟩ := @Engine.apply_ok a.engine id header blank
    simp [ingested, ingest, found, accepts, room, Engine.applied, applied, bind, Except.bind, pure,
      Except.pure]

/-- A header that is not counted changes nothing, but that a source that has had its share ends. -/
theorem ingested_dropped (dropped : a.takes id generation header = false) :
    (a.ingested id generation header = a ∧
      ∀ s, a.sources.get? id = some s → s.accepts generation = true → header.isBlank = true) ∨
    ∃ s, a.sources.get? id = some s ∧
      a.ingested id generation header = a.setAndPublish (s.deactivate .capReached) := by
  cases found : a.sources.get? id with
  | none => exact .inl ⟨by simp [ingested, ingest, found], fun _ there => nomatch there⟩
  | some s =>
    cases accepts : s.accepts generation with
    | false =>
      refine .inl ⟨by simp [ingested, ingest, found, accepts], fun t there accepted => ?_⟩
      rw [← Option.some.inj there, accepts] at accepted
      cases accepted
    | true =>
      cases full : s.isFull a.settings.eventCap with
      | true => exact .inr ⟨s, rfl, by simp [ingested, ingest, found, accepts, full]⟩
      | false =>
        have blank : header.isBlank = true := by simpa [takes, found, accepts, full] using dropped
        refine .inl ⟨?_, fun _ _ _ => blank⟩
        simp [ingested, ingest, found, accepts, full, Engine.apply_blank blank, bind, Except.bind]

/-- A header that is not counted changes nothing if no active source has had its share. -/
theorem ingested_ignored (ignored : a.takes id generation header = false)
    (room : ∀ s, a.sources.get? id = some s → s.active = true → s.isFull a.settings.eventCap = false) :
    a.ingested id generation header = a := by
  cases found : a.sources.get? id with
  | none => simp [ingested, ingest, found]
  | some s =>
    cases accepts : s.accepts generation with
    | false => simp [ingested, ingest, found, accepts]
    | true =>
      have active : s.active = true := (Bool.and_eq_true_iff.1 accepts).1
      have spare := room s found active
      have blank : header.isBlank = true := by simpa [takes, found, accepts, spare] using ignored
      simp [ingested, ingest, found, accepts, spare, Engine.apply_blank blank, bind, Except.bind]

end Aggregator

end BlockGraph
