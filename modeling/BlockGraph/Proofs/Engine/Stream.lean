import BlockGraph.Proofs.Engine.Journal

/-!
# What a subscriber receives

A subscription tells the journal from its first event on, whenever it began. So what it tells only
refers to blocks that it has announced before, and to those with which the engine was built: these are
never announced.

* `Announces` — events that refer to what is known, or has been announced before.
* `announces_of_replay` — events that can be followed are such events.
* `Emitter.Followed` — how much of the journal a subscriber has, kept by every call.
* `Listener` — a subscriber of an engine; `Built.stream_announces` — what it receives.
-/

namespace BlockGraph

/-! ## References of events -/

/-- The hashes of the blocks that an event takes for known. -/
def DiffEvent.refersTo : DiffEvent → List String
  | .nodeAdded _ => []
  | .edgeAdded edge => [edge.parentHash, edge.childHash]
  | .nodeUpdated hash _ => [hash]

/-- Each event refers to blocks only that were known from the start or announced before; and no block
is announced that was known from the start. -/
structure Announces (known : List String) (events : List DiffEvent) : Prop where
  before : ∀ front event back, events = front ++ event :: back → ∀ hash ∈ event.refersTo,
    hash ∈ known ∨ ∃ b, .nodeAdded b ∈ front ∧ b.hash = hash
  never : ∀ b, .nodeAdded b ∈ events → b.hash ∉ known

theorem Announces.initial {known : List String} {events stream : List DiffEvent}
    (announces : Announces known events) (part : stream <+: events) : Announces known stream := by
  obtain ⟨rest, rfl⟩ := part
  constructor
  · rintro front event back rfl
    exact announces.before front event (back ++ rest) (List.append_assoc ..)
  · exact fun b member => announces.never b (List.mem_append_left rest member)

namespace Graph

variable {g h : Graph} {event : DiffEvent} {events : List DiffEvent}

/-- An event that fits refers to known blocks, and only a new block changes what is known. -/
theorem step?_known (step : g.step? event = some h) :
    (∀ hash ∈ event.refersTo, hash ∈ g.hashes) ∧
      ((∃ b, event = .nodeAdded b ∧ b.hash ∉ g.hashes ∧ h.hashes = g.hashes ++ [b.hash]) ∨
        (∀ b, event ≠ .nodeAdded b) ∧ h.hashes = g.hashes) := by
  cases event with
  | nodeAdded b =>
    simp only [step?] at step
    split at step
    · cases step
    next fresh =>
      obtain rfl := Option.some.inj step
      refine ⟨fun _ member => (List.not_mem_nil member).elim, .inl ⟨b, rfl, fresh, ?_⟩⟩
      simp [hashes]
  | edgeAdded edge =>
    simp only [step?] at step
    split at step
    next fits =>
      obtain rfl := Option.some.inj step
      refine ⟨fun hash member => ?_, .inr ⟨fun _ => by simp, rfl⟩⟩
      rcases List.mem_cons.1 member with rfl | last
      · exact fits.1
      · rw [List.mem_singleton.1 last]
        exact fits.2.1
    next => cases step
  | nodeUpdated hash fields =>
    simp only [step?] at step
    split at step
    next stored =>
      obtain rfl := Option.some.inj step
      refine ⟨fun other member => ?_, .inr ⟨fun _ => by simp, ?_⟩⟩
      · rw [List.mem_singleton.1 member]
        exact stored
      -- An update leaves the hashes alone.
      · simp only [hashes, List.map_map]
        apply List.map_congr_left
        intro b _
        simp only [Function.comp_apply]
        split <;> rfl
    next => cases step

/-- Events that can be followed refer to what is known or has been announced. -/
theorem announces_of_replay (replay : g.replay? events = some h) : Announces g.hashes events := by
  induction events generalizing g with
  | nil => exact ⟨fun front event back shape => by simp at shape, fun b member => by simp at member⟩
  | cons event events ih =>
    rw [replay?_cons, Option.bind_eq_some_iff] at replay
    obtain ⟨next, step, rest⟩ := replay
    obtain ⟨here, known⟩ := step?_known step
    have later := ih rest
    -- What is known after the event was known before it, or is announced by it.
    have origin : ∀ hash ∈ next.hashes,
        hash ∈ g.hashes ∨ ∃ b, event = .nodeAdded b ∧ b.hash = hash := by
      intro hash member
      rcases known with ⟨b, rfl, _, grown⟩ | ⟨_, same⟩
      · rw [grown, List.mem_append, List.mem_singleton] at member
        exact member.imp_right fun own => ⟨b, rfl, own.symm⟩
      · exact .inl (same ▸ member)
    have kept : ∀ hash ∈ g.hashes, hash ∈ next.hashes := by
      intro hash member
      rcases known with ⟨b, _, _, grown⟩ | ⟨_, same⟩
      · exact grown ▸ List.mem_append_left _ member
      · exact same ▸ member
    constructor
    · intro front other back shape hash refers
      cases front with
      | nil =>
        obtain ⟨rfl, _⟩ := List.cons.inj shape
        exact .inl (here hash refers)
      | cons first front =>
        obtain ⟨rfl, tail⟩ := List.cons.inj shape
        rcases later.before front other back tail hash refers with before | ⟨b, member, same⟩
        · rcases origin hash before with old | ⟨b, rfl, same⟩
          · exact .inl old
          · exact .inr ⟨b, List.mem_cons_self, same⟩
        · exact .inr ⟨b, List.mem_cons_of_mem _ member, same⟩
    · intro b member
      rcases List.mem_cons.1 member with rfl | member
      · rcases known with ⟨c, same, fresh, _⟩ | ⟨other, _⟩
        · rw [DiffEvent.nodeAdded.inj same]
          exact fresh
        · exact absurd rfl (other b)
      · exact fun old => later.never b member (kept b.hash old)

end Graph

/-! ## Subscriptions -/

namespace Emitter

inductive Call where
  | subscribe (name : String)
  | drain (name : String)
  | unsubscribe (name : String)

def after (e : Emitter) : Call → Emitter
  | .subscribe name => e.subscribe name
  | .drain name => (e.drain name).1
  | .unsubscribe name => (e.unsubscribe name).1

@[simp] theorem after_journal (e : Emitter) (call : Call) : (e.after call).journal = e.journal := by
  cases call <;> rfl

/-- What a subscriber has received after a call. A new subscription begins with nothing, and emptying
the queue hands over what has waited there. -/
def received (e : Emitter) (name : String) (before : List DiffEvent) : Call → List DiffEvent
  | .subscribe other => if other = name then [] else before
  | .drain other => if other = name then before ++ (e.drain other).2.getD [] else before
  | .unsubscribe _ => before

def waitingFor (e : Emitter) (name : String) : List DiffEvent :=
  ((e.live? name).map (·.queue)).getD []

/-- What a subscriber has received is the beginning of the journal, and the rest waits as long as the
subscription goes on. -/
structure Followed (e : Emitter) (name : String) (had : List DiffEvent) : Prop where
  begins : had <+: e.journal
  rest : ∀ s ∈ e.subscriptions, s.answers name = true → had ++ s.queue = e.journal

namespace Followed

variable {e : Emitter} {name : String} {had : List DiffEvent}

theorem waiting (followed : e.Followed name had) {s : Subscription} (live : e.live? name = some s) :
    had ++ e.waitingFor name = e.journal := by
  have found : e.subscriptions.find? (·.answers name) = some s := live
  have answers := List.find?_some found
  rw [waitingFor, live]
  exact followed.rest s (List.mem_of_find?_eq_some found) answers

theorem stream (followed : e.Followed name had) : had ++ e.waitingFor name <+: e.journal := by
  cases live : e.live? name with
  | some s => exact followed.waiting live ▸ List.prefix_rfl
  | none =>
    have nothing : e.waitingFor name = [] := by rw [waitingFor, live]; rfl
    rw [nothing, List.append_nil]
    exact followed.begins

theorem emit (followed : e.Followed name had) (events : List DiffEvent) :
    (e.emit events).Followed name had := by
  unfold Emitter.emit
  split
  · exact followed
  · refine ⟨followed.begins.trans (List.prefix_append ..), fun s member answers => ?_⟩
    obtain ⟨old, stored, rfl⟩ := List.mem_map.1 member
    rw [← followed.rest old (List.mem_filter.1 stored).1 answers, List.append_assoc]

/-- A subscription that answers after its name was ended is one of another name. -/
theorem answers_unsubscribe {other : String} {s : Subscription}
    (member : s ∈ (e.unsubscribe other).1.subscriptions) (answers : s.answers name = true) :
    s ∈ e.subscriptions ∧ other ≠ name := by
  obtain ⟨old, stored, rfl⟩ := List.mem_map.1 member
  split at answers
  next => simp [Subscription.answers] at answers
  next silent =>
    rw [if_neg silent]
    exact ⟨stored, fun same => silent (same ▸ answers)⟩

theorem subscribe (followed : e.Followed name had) (other : String) :
    (e.subscribe other).Followed name (e.received name had (.subscribe other)) := by
  simp only [received]
  by_cases own : other = name
  · rw [if_pos own]
    refine ⟨List.nil_prefix, fun s member answers => ?_⟩
    rcases List.mem_append.1 member with old | new
    · exact absurd own (answers_unsubscribe old answers).2
    · rw [List.mem_singleton.1 new]
      rfl
  · rw [if_neg own]
    refine ⟨followed.begins, fun s member answers => ?_⟩
    rcases List.mem_append.1 member with old | new
    · exact followed.rest s (answers_unsubscribe old answers).1 answers
    · rw [List.mem_singleton.1 new] at answers
      simp [Subscription.answers, own] at answers

theorem drain (followed : e.Followed name had) (other : String) :
    (e.drain other).1.Followed name (e.received name had (.drain other)) := by
  simp only [received]
  by_cases own : other = name
  · subst own
    have handed : had ++ (e.drain other).2.getD [] = had ++ e.waitingFor other := rfl
    rw [if_pos rfl, handed]
    refine ⟨followed.stream, fun s member answers => ?_⟩
    obtain ⟨old, stored, rfl⟩ := List.mem_map.1 member
    split at answers
    next answered =>
      rw [if_pos answered, List.append_nil]
      -- A subscription answers, so all of the journal has been received by now.
      cases live : e.live? other with
      | none => exact absurd answered (List.find?_eq_none.1 live old stored)
      | some s => exact followed.waiting live
    next silent => exact absurd answers silent
  · rw [if_neg own]
    refine ⟨followed.begins, fun s member answers => ?_⟩
    obtain ⟨old, stored, rfl⟩ := List.mem_map.1 member
    split at answers
    next answered =>
      -- A subscription answers to one name only.
      simp only [Subscription.answers, Bool.and_eq_true, beq_iff_eq] at answers answered
      exact absurd (answered.2.symm.trans answers.2) own
    next silent =>
      rw [if_neg silent]
      exact followed.rest old stored answers

theorem unsubscribe (followed : e.Followed name had) (other : String) :
    (e.unsubscribe other).1.Followed name had :=
  ⟨followed.begins, fun s member answers =>
    followed.rest s (answers_unsubscribe member answers).1 answers⟩

theorem after (followed : e.Followed name had) (call : Call) :
    (e.after call).Followed name (e.received name had call) := by
  cases call with
  | subscribe other => exact followed.subscribe other
  | drain other => exact followed.drain other
  | unsubscribe other => exact followed.unsubscribe other

end Followed

end Emitter

/-! ## Subscribers of an engine -/

inductive Engine.Call where
  | apply (a : Announcement)
  | listen (call : Emitter.Call)

/-- An engine, and what a subscriber has received in its present subscription, or in the last one. -/
structure Listener where
  engine : Engine
  received : List DiffEvent

namespace Listener

def start (e : Engine) : Listener := ⟨e, []⟩

def next (name : String) (l : Listener) : Engine.Call → Listener
  | .apply a => ⟨l.engine.applied a.source a.header, l.received⟩
  | .listen call =>
    ⟨{ l.engine with emitter := l.engine.emitter.after call },
      l.engine.emitter.received name l.received call⟩

def after (l : Listener) (name : String) (calls : List Engine.Call) : Listener :=
  calls.foldl (next name) l

/-- What has been received and what still waits. -/
def stream (l : Listener) (name : String) : List DiffEvent :=
  l.received ++ l.engine.emitter.waitingFor name

end Listener

namespace Engine

open BlockStore

variable {e : Engine}

theorem applied_emitter (valid : e.store.Valid) (source : String) (header : Header) :
    (e.applied source header).emitter = e.emitter.emit (e.announced source header) := by
  cases blank : header.isBlank with
  | true =>
    rw [announced, apply_blank blank, apply_error e source header blank]
    rfl
  | false =>
    cases found : e.store.byHash? header.hash with
    | some known => rw [announced, apply_known blank found, applied_known blank found]
    | none =>
      have fresh := valid.byHash?_eq_none.1 found
      rw [announced, apply_new valid fresh blank, applied_new valid blank fresh]

/-- What holds of an engine and its subscriber at any time: the journal leads from the graph of the
beginning to the present one, and the subscriber follows the journal. -/
structure Heard (g : Graph) (name : String) (l : Listener) : Prop where
  reachable : l.engine.store.Reachable
  replays : g.replay? l.engine.journal = some l.engine.graph
  followed : l.engine.emitter.Followed name l.received

variable {g : Graph} {name : String} {l : Listener}

theorem Heard.next (heard : Heard g name l) (call : Call) : Heard g name (l.next name call) := by
  obtain ⟨reachable, replays, followed⟩ := heard
  cases call with
  | apply a =>
    have valid := reachable.valid
    refine ⟨applied_reachable reachable, ?_, ?_⟩
    · show g.replay? (l.engine.applied a.source a.header).journal =
        some (l.engine.applied a.source a.header).graph
      rw [journal_applied valid, Graph.replay?_append, replays, Option.bind_some,
        replay?_announced valid]
    · show (l.engine.applied a.source a.header).emitter.Followed name l.received
      rw [applied_emitter valid]
      exact followed.emit _
  | listen call =>
    have same : (l.next name (.listen call)).engine.journal = l.engine.journal :=
      Emitter.after_journal ..
    exact ⟨reachable, same ▸ replays, followed.after call⟩

theorem Heard.after (heard : Heard g name l) (calls : List Call) :
    Heard g name (l.after name calls) := by
  induction calls generalizing l with
  | nil => exact heard
  | cons call calls ih => exact ih (heard.next call)

theorem Built.emitter (built : e.Built) : e.emitter = .new := by
  cases built <;> rfl

theorem Built.heard (built : e.Built) (name : String) : Heard e.graph name (Listener.start e) where
  reachable := built.reachable
  replays := by
    show e.graph.replay? e.emitter.journal = some e.graph
    rw [built.journal]
    rfl
  followed := by
    refine ⟨List.nil_prefix, fun s member => ?_⟩
    rw [Listener.start, built.emitter] at member
    cases member

/-- Whatever headers an engine receives and whoever subscribes, reads and leaves meanwhile: what a
subscriber receives refers only to blocks that it was told of before, and to those that the engine was
built with, which it is never told of. -/
theorem Built.stream_announces (built : e.Built) (name : String) (calls : List Call) :
    Announces e.store.hashes (((Listener.start e).after name calls).stream name) := by
  have heard := (built.heard name).after calls
  exact (Graph.announces_of_replay heard.replays).initial heard.followed.stream

/-- An engine without blocks; one subscriber reads and subscribes again, another one goes. -/
theorem stream_announces_late :
    let calls : List Call :=
      [.apply ⟨"a", .new 1 "0x1" "0x0"⟩, .listen (.subscribe "s"), .listen (.subscribe "t"),
        .listen (.drain "s"), .apply ⟨"a", .new 2 "0x2" "0x1"⟩, .listen (.unsubscribe "t"),
        .listen (.subscribe "s"), .apply ⟨"b", .new 2 "0x3" "0x1"⟩]
    (Engine.new .standard .childOnly).Built ∧
      Announces [] (((Listener.start (Engine.new .standard .childOnly)).after "s" calls).stream "s") := by
  intro calls
  have built : (Engine.new .standard .childOnly).Built := .new .standard .childOnly
  exact ⟨built, built.stream_announces "s" calls⟩

/-- An engine around a block that then receives a child: the block is never announced, and there is an
edge from it. -/
theorem stream_unannounced :
    let store := (BlockStore.new .standard .childOnly).inserted ⟨"a", .new 1 "0x1" "0x0"⟩
    let calls : List Call :=
      [.listen (.subscribe "s"), .apply ⟨"a", .new 2 "0x2" "0x1"⟩]
    let stream := ((Listener.start (ofStore store)).after "s" calls).stream "s"
    let child : Block :=
      { Block.ofHeader (.new 2 "0x2" "0x1") .unknown "a" 1 with position := some ⟨2, 0⟩ }
    (ofStore store).Built ∧ stream = [.nodeAdded child, .edgeAdded ⟨"0x1", "0x2"⟩] ∧
      ¬ Announces [] stream := by
  intro store calls stream child
  have told : stream = [.nodeAdded child] ++ .edgeAdded ⟨"0x1", "0x2"⟩ :: [] := by decide +kernel
  refine ⟨.ofStore (.inserted _ (.new .standard .childOnly)), told, fun announces => ?_⟩
  rcases announces.before _ _ _ told "0x1" List.mem_cons_self with known | ⟨b, member, named⟩
  · cases known
  · obtain rfl := DiffEvent.nodeAdded.inj (List.mem_singleton.1 member)
    exact absurd named (by decide)

end Engine

end BlockGraph
