import BlockGraph.Emitter
import Mathlib.Data.List.Nodup

/-!
# Subscriptions to an emitter

Whoever subscribes, whenever that is, receives the journal from its first event on, each event once and in
order. Subscriptions do not notice each other. One that has ended is kept until the next event and no
longer.

* `emit_sends`, `drain_eq` — emitting sends one event after another to whoever is still there, and draining
  receives until nothing waits.
* `queue?_emit`, `queue?_subscribe`, `queue?_receive`, `queue?_unsubscribe` — what waits for a subscription.
* `Step`, `Audience`, `Roster` — what can happen; who has received what; who is there.
* `Attended`, `Audience.Alike` — what holds at any time, and audiences that are the same to one subscriber.
* `audience_served` — what every subscriber receives, and how many subscriptions are kept.
-/

namespace BlockGraph

/-- A subscription with another event behind its queue, if it is still there. -/
def Subscription.send? (s : Subscription) (event : DiffEvent) : Option Subscription :=
  if s.isLive then some { s with queue := s.queue ++ [event] } else none

namespace Emitter

variable {e : Emitter} {name other : String}

/-- The events that wait for a subscription; `none` when there is none of the name. -/
def queue? (e : Emitter) (name : String) : Option (List DiffEvent) := (e.live? name).map (·.queue)

/-! ## One event after another -/

theorem journal_emit (e : Emitter) (events : List DiffEvent) :
    (e.emit events).journal = e.journal ++ events := by
  unfold emit
  split
  next none => simp [List.isEmpty_iff.1 none]
  next => rfl

theorem foldlM_send? (s : Subscription) (events : List DiffEvent) (live : s.isLive = true) :
    events.foldlM Subscription.send? s = some { s with queue := s.queue ++ events } := by
  induction events generalizing s with
  | nil => simp
  | cons event events ih =>
    have sent : s.send? event = some { s with queue := s.queue ++ [event] } := if_pos live
    have rest := ih { s with queue := s.queue ++ [event] } live
    rw [List.foldlM_cons, sent, Option.bind_eq_bind, Option.bind_some, rest, List.append_assoc]
    rfl

/-- The events of a batch are sent one after another, and a subscription is forgotten at the first one that
cannot be sent. -/
theorem emit_sends (e : Emitter) {events : List DiffEvent} (news : events ≠ []) :
    (e.emit events).subscriptions = e.subscriptions.filterMap (events.foldlM Subscription.send?) := by
  obtain ⟨event, events, rfl⟩ := List.exists_cons_of_ne_nil news
  show List.map _ (List.filter _ _) = _
  rw [← List.filterMap_eq_map, ← List.filterMap_eq_filter, List.filterMap_filterMap]
  apply List.filterMap_congr
  intro s _
  cases live : s.isLive with
  | true => simp [foldlM_send? s _ live, Option.guard, live]
  | false => simp [Subscription.send?, Option.guard, live]

/-! ## What waits -/

theorem answers_other {s : Subscription} (answers : s.answers name = true) (differ : other ≠ name) :
    s.answers other = false := by
  simp only [Subscription.answers, Bool.and_eq_true, beq_iff_eq] at answers
  simp [Subscription.answers, answers.2, differ.symm]

/-- A change of subscriptions that leaves it open who answers to what is seen in what is found. -/
theorem find?_answers_map (change : Subscription → Subscription)
    (kept : ∀ s, (change s).answers name = s.answers name) (subscriptions : List Subscription) :
    (subscriptions.map change).find? (·.answers name) =
      (subscriptions.find? (·.answers name)).map change := by
  rw [List.find?_map]
  congr 2
  funext s
  exact kept s

theorem queue?_emit (e : Emitter) (name : String) (events : List DiffEvent) :
    (e.emit events).queue? name = (e.queue? name).map (· ++ events) := by
  unfold emit
  split
  next none => simp [List.isEmpty_iff.1 none]
  next =>
    have here : ∀ s : Subscription, (s.isLive && s.answers name) = s.answers name := fun s => by
      cases live : s.isLive <;> simp [Subscription.answers, live]
    simp only [queue?, live?]
    rw [find?_answers_map (fun s => { s with queue := s.queue ++ events }) fun _ => rfl,
      List.find?_filter, Option.map_map, Option.map_map]
    simp only [Bool.decide_and, Bool.decide_eq_true, here]
    rfl

theorem queue?_unsubscribe (e : Emitter) (other name : String) :
    (e.unsubscribe other).1.queue? name = if other = name then none else e.queue? name := by
  simp only [queue?, live?, unsubscribe]
  split
  next own =>
    subst own
    rw [Option.map_eq_none_iff, List.find?_eq_none]
    intro s member
    obtain ⟨old, _, rfl⟩ := List.mem_map.1 member
    split
    next => simp [Subscription.answers]
    next silent => exact silent
  next differ =>
    rw [find?_answers_map _, Option.map_map]
    · congr 1
      funext s
      simp only [Function.comp_apply]
      split <;> rfl
    · intro s
      split
      next own => rw [answers_other own (Ne.symm differ)]; rfl
      next => rfl

theorem queue?_subscribe (e : Emitter) (other name : String) :
    (e.subscribe other).queue? name = if other = name then some e.journal else e.queue? name := by
  have before := e.queue?_unsubscribe other name
  simp only [queue?, live?, subscribe] at before ⊢
  rw [List.find?_append, Option.map_or, before]
  by_cases own : other = name
  · simp [own, Subscription.answers, unsubscribe]
  · simp [own, Subscription.answers]

theorem queue?_receive (e : Emitter) (other name : String) :
    (e.receive other).1.queue? name =
      if other = name then (e.queue? name).map List.tail else e.queue? name := by
  simp only [queue?, live?, receive]
  rw [find?_answers_map _, Option.map_map]
  · cases found : e.subscriptions.find? (·.answers name) with
    | none => simp
    | some s =>
      have answers : s.answers name = true := by simpa using List.find?_some found
      split
      next own => simp [own, answers]
      next differ => simp [answers_other answers differ]
  · intro s
    split <;> rfl

/-- What is received is the first event that waits. -/
theorem receive_snd (e : Emitter) (name : String) :
    (e.receive name).2 = (e.queue? name).bind List.head? := by
  simp only [receive, queue?, Option.bind_map]
  rfl

/-- To drain a subscription is to receive an event, if one waits, and to drain what is left. -/
theorem drain_eq (e : Emitter) (name : String) :
    e.drain name =
      (((e.receive name).1.drain name).1,
        ((e.receive name).1.drain name).2.map ((e.receive name).2.toList ++ ·)) := by
  have kept (s : Subscription) : (if s.answers name then { s with queue := s.queue.tail } else s).answers
      name = s.answers name := by split <;> rfl
  refine Prod.ext ?_ ?_
  · simp only [drain, receive, List.map_map]
    congr 2
    funext s
    simp only [Function.comp_apply, kept]
    split <;> rfl
  · show e.queue? name = ((e.receive name).1.queue? name).map _
    rw [queue?_receive, if_pos rfl, receive_snd, Option.map_map]
    cases e.queue? name with
    | none => rfl
    | some queue => cases queue <;> rfl

/-! ## Runs -/

/-- What can happen to an emitter and its subscriptions. -/
inductive Step where
  | emit (events : List DiffEvent)
  | subscribe (name : String)
  | receive (name : String)
  | drop (name : String)
  deriving DecidableEq

namespace Step

def emitted : Step → List DiffEvent
  | .emit events => events
  | _ => []

/-- Whether a step emits or is one of the subscriber's own. -/
def concerns (name : String) : Step → Bool
  | .emit _ => true
  | .subscribe other | .receive other | .drop other => other == name

end Step

/-- An emitter, and what the subscription of each name has received, or the last one that it had. -/
structure Audience where
  emitter : Emitter
  received : String → List DiffEvent

namespace Audience

def start : Audience := ⟨.new, fun _ => []⟩

def next (a : Audience) : Step → Audience
  | .emit events => { a with emitter := a.emitter.emit events }
  | .subscribe name =>
    { emitter := a.emitter.subscribe name
      received := fun other => if name = other then [] else a.received other }
  | .receive name =>
    { emitter := (a.emitter.receive name).1
      received := fun other =>
        if name = other then a.received other ++ (a.emitter.receive name).2.toList
        else a.received other }
  | .drop name => { a with emitter := (a.emitter.unsubscribe name).1 }

def after (a : Audience) (steps : List Step) : Audience := steps.foldl next a

/-- What a subscription has received, and behind it what still waits. -/
def heard? (a : Audience) (name : String) : Option (List DiffEvent) :=
  (a.emitter.queue? name).map (a.received name ++ ·)

end Audience

/-- Who is subscribed, and how many subscriptions were dropped and nothing was emitted since. -/
structure Roster where
  live : List String
  lapsed : Nat

namespace Roster

def start : Roster := ⟨[], 0⟩

def leave (r : Roster) (name : String) : Roster :=
  if name ∈ r.live then ⟨r.live.erase name, r.lapsed + 1⟩ else r

/-- A name has one subscription at a time, so that a new one drops the one before. -/
def next (r : Roster) : Step → Roster
  | .emit events => if events.isEmpty then r else { r with lapsed := 0 }
  | .subscribe name => { r.leave name with live := (r.leave name).live ++ [name] }
  | .receive _ => r
  | .drop name => r.leave name

def after (r : Roster) (steps : List Step) : Roster := steps.foldl next r

end Roster

namespace Roster

variable {r : Roster}

theorem mem_leave (distinct : r.live.Nodup) :
    other ∈ (r.leave name).live ↔ other ≠ name ∧ other ∈ r.live := by
  unfold leave
  split
  next => exact distinct.mem_erase_iff
  next absent => exact ⟨fun member => ⟨fun same => absent (same ▸ member), member⟩, And.right⟩

theorem leave_nodup (distinct : r.live.Nodup) (name : String) : (r.leave name).live.Nodup := by
  unfold leave
  split
  · exact distinct.erase name
  · exact distinct

/-- Who leaves is counted as before. -/
theorem leave_count (r : Roster) (name : String) :
    (r.leave name).live.length + (r.leave name).lapsed = r.live.length + r.lapsed := by
  unfold leave
  split
  next here =>
    have positive := List.length_pos_of_mem here
    have erased := List.length_erase_of_mem here
    dsimp only
    omega
  next => rfl

end Roster

/-! ## What holds at any time -/

theorem journal_next (a : Audience) (step : Step) :
    (a.next step).emitter.journal = a.emitter.journal ++ step.emitted := by
  cases step with
  | emit events => exact journal_emit ..
  | subscribe | receive | drop => exact (List.append_nil _).symm

theorem journal_after (a : Audience) (steps : List Step) :
    (a.after steps).emitter.journal = a.emitter.journal ++ steps.flatMap Step.emitted := by
  induction steps generalizing a with
  | nil => simp [Audience.after]
  | cons step steps ih =>
    have rest := ih (a.next step)
    rw [journal_next, List.append_assoc] at rest
    exact rest

/-- The names of the subscriptions that are there. -/
def names (e : Emitter) : List String := (e.subscriptions.filter (·.isLive)).map (·.name)

theorem names_emit (e : Emitter) (events : List DiffEvent) : (e.emit events).names = e.names := by
  unfold emit
  split
  · rfl
  · simp [names, List.filter_map, Function.comp_def]

theorem names_unsubscribe (e : Emitter) (name : String) :
    (e.unsubscribe name).1.names = e.names.filter (· != name) := by
  simp only [names, unsubscribe, List.filter_map, List.map_map, List.filter_filter]
  have kept (s : Subscription) : (if s.answers name then { s with isLive := false } else s).name =
      s.name := by split <;> rfl
  have there (s : Subscription) :
      (if s.answers name then { s with isLive := false } else s).isLive =
        (s.name != name && s.isLive) := by
    by_cases same : s.name = name <;> cases live : s.isLive <;>
      simp [Subscription.answers, same, live]
  simp only [Function.comp_def, kept, there]

theorem names_subscribe (e : Emitter) (name : String) :
    (e.subscribe name).names = (e.unsubscribe name).1.names ++ [name] := by
  simp [subscribe, names]

theorem names_receive (e : Emitter) (name : String) : (e.receive name).1.names = e.names := by
  simp only [names, receive, List.filter_map, List.map_map]
  have kept (s : Subscription) :
      (if s.answers name then { s with queue := s.queue.tail } else s).name = s.name := by
    split <;> rfl
  have there (s : Subscription) :
      (if s.answers name then { s with queue := s.queue.tail } else s).isLive = s.isLive := by
    split <;> rfl
  simp only [Function.comp_def, kept, there]

theorem subscriberCount_emit (e : Emitter) {events : List DiffEvent} (news : ¬ events.isEmpty) :
    (e.emit events).subscriberCount = e.names.length := by
  rw [emit, if_neg news]
  simp [subscriberCount, names]

theorem subscriberCount_unsubscribe (e : Emitter) (name : String) :
    (e.unsubscribe name).1.subscriberCount = e.subscriberCount := by
  simp [unsubscribe, subscriberCount]

namespace Audience

variable (a : Audience)

theorem heard?_emit (events : List DiffEvent) (name : String) :
    (a.next (.emit events)).heard? name = (a.heard? name).map (· ++ events) := by
  simp [heard?, next, queue?_emit, Function.comp_def]

theorem heard?_subscribe (other name : String) :
    (a.next (.subscribe other)).heard? name =
      if other = name then some a.emitter.journal else a.heard? name := by
  simp only [heard?, next, queue?_subscribe]
  split <;> simp

/-- Receiving moves an event from what waits to what has been received. -/
theorem heard?_receive (other name : String) :
    (a.next (.receive other)).heard? name = a.heard? name := by
  simp only [heard?, next, queue?_receive]
  split
  next own =>
    subst own
    rw [receive_snd]
    cases a.emitter.queue? other with
    | none => rfl
    | some queue => cases queue <;> simp
  next => rfl

theorem heard?_drop (other name : String) :
    (a.next (.drop other)).heard? name = if other = name then none else a.heard? name := by
  simp only [heard?, next, queue?_unsubscribe]
  split <;> rfl

end Audience

/-- An emitter and its audience at any time: what a subscription has received and what waits for it is the
journal, and the emitter keeps those who are there and those who left since the last event. -/
structure Attended (a : Audience) (r : Roster) : Prop where
  heard : ∀ name, a.heard? name = if name ∈ r.live then some a.emitter.journal else none
  names : a.emitter.names = r.live
  distinct : r.live.Nodup
  counted : a.emitter.subscriberCount = r.live.length + r.lapsed

namespace Attended

variable {a : Audience} {r : Roster}

theorem start : Attended .start .start where
  heard _ := rfl
  names := rfl
  distinct := .nil
  counted := rfl

theorem emit (attended : Attended a r) (events : List DiffEvent) :
    Attended (a.next (.emit events)) (r.next (.emit events)) := by
  have live : (r.next (.emit events)).live = r.live := by
    simp only [Roster.next]
    split <;> rfl
  refine ⟨fun name => ?_, ?_, live ▸ attended.distinct, ?_⟩
  · rw [Audience.heard?_emit, attended.heard, live, journal_next]
    split <;> rfl
  · exact live ▸ (names_emit ..).trans attended.names
  · show (a.emitter.emit events).subscriberCount = _
    rw [Roster.next]
    split
    next none => rw [Emitter.emit, if_pos none, attended.counted]
    next news => rw [subscriberCount_emit _ news, attended.names]; rfl

theorem drop (attended : Attended a r) (other : String) :
    Attended (a.next (.drop other)) (r.next (.drop other)) where
  heard name := by
    rw [Audience.heard?_drop, attended.heard]
    simp only [Roster.next, Roster.mem_leave attended.distinct]
    by_cases own : other = name
    · simp [own]
    · simp only [own, if_false, Ne.symm own, ne_eq, not_false_eq_true, true_and]
      rfl
  names := by
    show (a.emitter.unsubscribe other).1.names = (r.leave other).live
    rw [names_unsubscribe, attended.names, Roster.leave]
    split
    next => rw [attended.distinct.erase_eq_filter]
    next absent =>
      rw [List.filter_eq_self]
      intro name member
      exact bne_iff_ne.2 fun same => absent (same ▸ member)
  distinct := Roster.leave_nodup attended.distinct other
  counted := by
    rw [Roster.next, Roster.leave_count, ← attended.counted]
    exact subscriberCount_unsubscribe ..

theorem subscribe (attended : Attended a r) (other : String) :
    Attended (a.next (.subscribe other)) (r.next (.subscribe other)) := by
  have left := attended.drop other
  refine ⟨fun name => ?_, ?_, ?_, ?_⟩
  · rw [Audience.heard?_subscribe, attended.heard]
    simp only [Roster.next, List.mem_append, List.mem_singleton, Roster.mem_leave attended.distinct]
    by_cases own : other = name
    · simp [own]
      rfl
    · simp only [own, if_false, Ne.symm own, ne_eq, not_false_eq_true, true_and, or_false]
      rfl
  · exact (names_subscribe ..).trans (congrArg (· ++ [other]) left.names)
  · refine left.distinct.append (List.nodup_singleton other) ?_
    rw [List.disjoint_singleton]
    intro member
    exact ((Roster.mem_leave attended.distinct).1 member).1 rfl
  · have counted : (a.emitter.unsubscribe other).1.subscriberCount =
        (r.leave other).live.length + (r.leave other).lapsed := left.counted
    simp only [subscriberCount] at counted
    simp only [Audience.next, Roster.next, subscriberCount, Emitter.subscribe, List.length_append,
      List.length_singleton, counted]
    omega

theorem next (attended : Attended a r) (step : Step) : Attended (a.next step) (r.next step) := by
  cases step with
  | emit events => exact attended.emit events
  | subscribe name => exact attended.subscribe name
  | receive name =>
    refine ⟨fun other => ?_, ?_, attended.distinct, ?_⟩
    · exact (a.heard?_receive name other).trans (attended.heard other)
    · exact (names_receive ..).trans attended.names
    · have same : (a.emitter.receive name).1.subscriberCount = a.emitter.subscriberCount := by
        simp [receive, subscriberCount]
      exact same.trans attended.counted
  | drop name => exact attended.drop name

theorem after (attended : Attended a r) (steps : List Step) :
    Attended (a.after steps) (r.after steps) := by
  induction steps generalizing a r with
  | nil => exact attended
  | cons step steps ih => exact ih (attended.next step)

/-- A subscription that is there receives the event of the journal that is next for it. -/
theorem receive_snd (attended : Attended a r) (name : String) :
    (a.emitter.receive name).2 =
      if name ∈ r.live then a.emitter.journal[(a.received name).length]? else none := by
  have heard := attended.heard name
  rw [Audience.heard?] at heard
  rw [Emitter.receive_snd]
  split
  next live =>
    rw [if_pos live, Option.map_eq_some_iff] at heard
    obtain ⟨queue, waits, journal⟩ := heard
    rw [waits, Option.bind_some, ← journal, List.getElem?_append_right (Nat.le_refl _), Nat.sub_self,
      List.head?_eq_getElem?]
  next gone =>
    rw [if_neg gone, Option.map_eq_none_iff] at heard
    rw [heard]
    rfl

end Attended

/-! ## Other subscribers -/

/-- Audiences that are the same to the subscriber of a name. -/
structure Audience.Alike (name : String) (a b : Audience) : Prop where
  journal : a.emitter.journal = b.emitter.journal
  queue : a.emitter.queue? name = b.emitter.queue? name
  received : a.received name = b.received name

namespace Audience.Alike

variable {a b : Audience}

theorem next (alike : Alike name a b) (step : Step) : Alike name (a.next step) (b.next step) := by
  obtain ⟨journal, queue, received⟩ := alike
  refine ⟨by rw [journal_next, journal_next, journal], ?_, ?_⟩
  · cases step with
    | emit events => simp only [Audience.next, queue?_emit, queue]
    | subscribe other => simp only [Audience.next, queue?_subscribe, queue, journal]
    | receive other => simp only [Audience.next, queue?_receive, queue]
    | drop other => simp only [Audience.next, queue?_unsubscribe, queue]
  · cases step with
    | emit events => exact received
    | subscribe other => simp only [Audience.next, received]
    | receive other =>
      simp only [Audience.next, received]
      split
      next own => rw [own, Emitter.receive_snd, Emitter.receive_snd, queue]
      next => rfl
    | drop other => exact received

/-- A step of another subscriber goes unnoticed. -/
theorem next_left (alike : Alike name a b) {step : Step} (foreign : step.concerns name = false) :
    Alike name (a.next step) b := by
  obtain ⟨journal, queue, received⟩ := alike
  cases step with
  | emit events => cases foreign
  | subscribe other | receive other | drop other =>
    have differ : other ≠ name := beq_eq_false_iff_ne.1 foreign
    refine ⟨journal, ?_, ?_⟩
    · simp only [Audience.next, queue?_subscribe, queue?_receive, queue?_unsubscribe, differ, if_false,
        queue]
    · simp only [Audience.next, differ, if_false, received]

theorem after (alike : Alike name a b) (steps : List Step) :
    Alike name (a.after steps) (b.after (steps.filter (·.concerns name))) := by
  induction steps generalizing a b with
  | nil => exact alike
  | cons step steps ih =>
    cases own : step.concerns name with
    | true =>
      rw [List.filter_cons_of_pos own]
      exact ih (alike.next step)
    | false =>
      rw [List.filter_cons_of_neg (by simp [own])]
      exact ih (alike.next_left own)

end Audience.Alike

/-- Whatever is emitted and whoever subscribes, receives and leaves, in whatever order: what a subscription
has received and what waits for it is all that was ever emitted. Its next event is the next of these, and
it receives the same when nobody else is there. The emitter keeps those who are there and those who left
since the last event. -/
theorem audience_served (steps : List Step) :
    let a := Audience.start.after steps
    let r := Roster.start.after steps
    a.emitter.journal = steps.flatMap Step.emitted ∧
      a.emitter.subscriberCount = r.live.length + r.lapsed ∧
      ∀ name,
        (a.emitter.queue? name).map (a.received name ++ ·) =
            (if name ∈ r.live then some a.emitter.journal else none) ∧
          (a.emitter.receive name).2 =
            (if name ∈ r.live then a.emitter.journal[(a.received name).length]? else none) ∧
          let alone := Audience.start.after (steps.filter (·.concerns name))
          alone.received name = a.received name ∧ alone.emitter.queue? name = a.emitter.queue? name := by
  intro a r
  have attended : Attended a r := Attended.start.after steps
  refine ⟨journal_after .start steps, attended.counted, fun name => ?_⟩
  have alike : Audience.Alike name a (Audience.start.after (steps.filter (·.concerns name))) :=
    Audience.Alike.after ⟨rfl, rfl, rfl⟩ steps
  exact ⟨attended.heard name, attended.receive_snd name, alike.received.symm, alike.queue.symm⟩

/-- Somebody comes late, somebody else leaves, and a batch without events forgets nobody. -/
example :
    let a := Audience.start.after [.subscribe "s", .emit [.edgeAdded ⟨"0x1", "0x2"⟩], .receive "s",
      .subscribe "t", .drop "s", .emit []]
    a.emitter.queue? "t" = some [.edgeAdded ⟨"0x1", "0x2"⟩] ∧
      a.received "s" = [.edgeAdded ⟨"0x1", "0x2"⟩] ∧ a.emitter.subscriberCount = 2 := by
  decide

end Emitter

end BlockGraph
