import BlockGraph.Proofs.Aggregator.Soundness

/-!
# Every move is sound

Each call, each step of a pump and each step of the mutation loop keeps what holds at any time.

* `forward_onward`, `publish_onward`, `perform_onward`, `add_onward`, … — one kind of move each.
* `act_onward` — all of them.
-/

namespace BlockGraph

namespace Aggregator

open Occurrence

variable {a b : Aggregator} {past later : List Occurrence} {id : String} {g : Nat}

/-! ## Calls that change the registry only -/

/-- A header that is handed over at once is not noted for any incarnation. -/
theorem onHeader_onward (sound : a.Sound past) (id : String) (header : Header) :
    Onward a past (a.act (.onHeader id header)) ((a.occurs? (.onHeader id header)).toList ++ past) := by
  have fading : Fading a (a.ingested id none header) := ingested_fading sound.filed id none header
  simp only [act, occurs?, onHeader_fst]
  split
  next =>
    refine Fading.moved sound (fun _ member => member)
      (fading : Fading (a.popped a.queue) (a.ingested id none header)) (fun wired => wired.note (by simp))
      (fun _ _ _ _ flows => ?_) (fun _ _ _ => rfl) (fun _ _ => rfl) sound.credited
    exact flows.congr rfl rfl (fun _ _ => rfl) rfl rfl
  next => exact fading.onward sound

theorem shutdown_onward (sound : a.Sound past) (order : List String) :
    Onward a past (a.shutdown order) past := by
  let b := a.stopAll order
  obtain ⟨calm, kept⟩ := (stopEach_fading sound.filed _ : Fading a b).onward sound
  have flows : ∀ {id g}, b.Flows past id g → { b with isDown := true }.Flows past id g :=
    fun flows => flows.congr rfl rfl (fun _ _ => rfl) rfl rfl
  have finished : ∀ {id g}, b.Finished past id g → { b with isDown := true }.Finished past id g :=
    fun finished => ⟨finished.known, finished.gone, finished.quiet, finished.whole⟩
  exact
    { sound :=
        { calm with
          wired := calm.wired.congr rfl rfl (Nat.le_refl _)
          down := fun _ _ _ => stopAll_idle sound.filed order
          flows := fun id s found active => flows (calm.flows id s found active)
          ended := fun id s found ended => finished (calm.ended id s found ended) }
      finished := fun id g old => finished (kept id g old) }

/-! ## Moves of pumps and lines -/

theorem Passed.queued_known {p : Pump} (passed : Passed a p b) (known : p.generation ≤ a.lastGeneration)
    (queued : ∀ item ∈ a.queue, item.generation ≤ a.lastGeneration) :
    ∀ item ∈ b.queue, item.generation ≤ a.lastGeneration := by
  have pushed : ∀ item : QueueItem, item.generation = p.generation →
      ∀ other ∈ (a.push item).queue, other.generation ≤ a.lastGeneration := by
    intro item own other member
    rcases List.mem_append.1 member with old | new
    · exact queued other old
    · rw [List.mem_singleton.1 new, own]
      exact known
  cases passed with
  | queued header => exact pushed (.header p.source p.generation header) rfl
  | closed state => exact pushed (.closed p.source p.generation state) rfl
  | stayed | taken | failed | ended => exact queued

theorem Passed.gone {p : Pump} (passed : Passed a p b) (gone : a.pump? g = none) :
    b.pump? g = none := by
  have set : ∀ (c : Aggregator) (q : Pump), c.pump? g = a.pump? g → (c.setPump q).pump? g = none := by
    intro c q same
    rw [pump?_setPump, same, gone]
    split <;> rfl
  cases passed with
  | stayed => exact gone
  | closed =>
    rw [pump?_endPump]
    split
    · rfl
    · exact gone
  | queued | taken | failed | ended => exact set _ _ rfl

theorem Passed.onward (sound : a.Sound past) {p : Pump} (here : a.pump? g = some p)
    (passed : Passed a p b) : Onward a past b past := by
  have known : p.generation ≤ a.lastGeneration := by
    rw [pump?_generation here]
    exact (sound.wired.sits g p here).known
  refine (sound.wired.passed here passed).onward sound ?_ ?_ ?_ ?_ ?_ ?_
  · cases passed <;> rfl
  · cases passed <;> rfl
  · cases passed <;> rfl
  · exact passed.queued_known known sound.queued
  · exact fun _ gone => passed.gone gone
  · exact fun id s _ _ flows => flows.passed sound.wired here passed

theorem forward_onward (sound : a.Sound past) (g : Nat) :
    Onward a past (a.act (.forward g)) past := by
  simp only [act]
  cases here : a.pump? g with
  | none => exact .refl sound
  | some p => exact (forward_passed sound.wired here).onward sound here

/-- A pump ends only if its source is not active any more. -/
theorem cancel_onward (sound : a.Sound past) (g : Nat) :
    Onward a past (a.act (.cancel g)) past := by
  simp only [act]
  cases here : a.pump? g with
  | none => exact .refl sound
  | some p =>
    dsimp only
    split
    · exact .refl sound
    next cancelled =>
      refine (sound.wired.endPump here).onward sound rfl rfl rfl sound.queued ?_ ?_
      · intro h gone
        rw [pump?_endPump, gone]
        split <;> rfl
      · intro id s found active flows
        -- The pump of an active incarnation is not cancelled.
        refine flows.endPump sound.wired here fun own => cancelled ?_
        have up : a.isDown = false := by
          cases down : a.isDown with
          | false => rfl
          | true => rw [sound.down down id s found] at active; cases active
        rw [isCurrent, up, flows.owner p (own ▸ here), found]
        simp [active, own]

theorem hungUp_onward (sound : a.Sound past) (source : String) :
    Onward a past (a.hungUp source) past := by
  obtain ⟨f, channel⟩ := sound.wired.channel
  have after := hungUp_eq channel source
  have pump : ∀ g, (a.hungUp source).pump? g = a.pump? g := pump?_onChannel _
  refine (sound.wired.hungUp source).onward sound ?_ ?_ ?_ ?_ ?_ ?_
  · rw [after]
  · rw [after]
  · rw [after]
  · rw [after]
    exact sound.queued
  · exact fun g gone => (pump g).trans gone
  · intro id s _ _ flows
    refine flows.congr (pump _) (by rw [after]) (fun p _ => ?_) rfl rfl
    exact headersOn_hungUp sound.wired.channel source p.line

theorem fail_onward (sound : a.Sound past) (source reason : String) :
    Onward a past (a.act (.fail source reason)) past := by
  have hungUp := hungUp_onward sound source
  rcases fail_cases sound.wired.channel source reason with after | ⟨n, line, current, read, after⟩
  · rw [after]
    exact hungUp
  · rw [after]
    refine hungUp.trans ((sound.wired.failed current read).onward hungUp.sound rfl rfl rfl
      hungUp.sound.queued (fun _ gone => gone) fun id s _ _ flows => ?_)
    refine flows.congr rfl rfl (fun p _ => ?_) rfl rfl
    rw [headersOn_withLine]
    split
    next same =>
      rw [headersOn, same, read]
      simp [Except.toOption]
    next => rfl

/-- Which sources get a subscription does not concern the lines that are there. -/
theorem onChannel_onward (sound : a.Sound past) {f : ChannelFeed → ChannelFeed}
    (lines : ∀ c, (f c).lines = c.lines) (current : ∀ c, (f c).current = c.current) :
    Onward a past (a.onChannel f) past := by
  obtain ⟨c, channel⟩ := sound.wired.channel
  have after : a.onChannel f = { a with feed := .channel (f c) } := by
    simp only [onChannel, channel]
  have line : ∀ n, (a.onChannel f).line? n = a.line? n := fun n => by
    rw [line?, line?, after, channel]
    simp only [Feed.lines, lines]
  have wired : (a.onChannel f).Wired past := by
    refine sound.wired.rewired ⟨f c, by rw [after]⟩ (pump?_onChannel f) line (fun id => ?_) ?_ ?_
    · simp only [after, currentLine?, channel, current]
    · simp only [after, channel, Feed.lines, lines]
    · exact Nat.le_of_eq (by rw [after])
  refine wired.onward sound ?_ ?_ ?_ ?_ ?_ ?_
  · rw [after]
  · rw [after]
  · rw [after]
  · rw [after]
    exact sound.queued
  · exact fun g gone => (pump?_onChannel f g).trans gone
  · intro id s _ _ flows
    refine flows.congr (pump?_onChannel f _) (by rw [after]) (fun p _ => ?_) rfl rfl
    rw [headersOn, line, headersOn]

theorem publish_onward (sound : a.Sound past) (source : String) (header : Header) :
    Onward a past (a.act (.publish source header))
      ((a.occurs? (.publish source header)).toList ++ past) := by
  rcases publish_cases sound.wired.channel source header with
    ⟨after, note⟩ | ⟨n, line, current, read, after, note⟩
  · rw [after, note]
    exact .refl sound
  rw [after, note]
  apply Kept.onward sound
  exact
    { wired := (sound.wired.published current read).note (by simp)
      generations := rfl
      follows := fun id t found => ⟨t, found, rfl, rfl, fun active => active⟩
      queued := sound.queued
      down := rfl
      flows := fun id t _ _ flows => flows.published sound.wired current read
      gone := fun g gone => gone
      accepted := fun _ _ _ => rfl
      published := fun id g finished => by
        refine (publishedTo_published source header).trans (if_neg fun held => ?_)
        obtain ⟨p, here, _⟩ := (published_iff sound.wired current read fun p here => by
          rw [finished.gone] at here
          cases here).1 held
        rw [finished.gone] at here
        cases here
      ended := fun id t found hasEnded => .inl (sound.ended id t found hasEnded)
      credited := fun id g => by
        refine (sound.credited id g).trans ?_
        show _ <+: named (publishedTo id g (.published source header :: past))
        rw [publishedTo_published]
        split
        · rw [named_append]
          exact List.prefix_append ..
        · exact List.prefix_rfl }

/-! ## Moves of the mutation loop -/

/-- An item is dropped that held nothing for the sources that are active afterwards. -/
theorem dropped_onward (sound : a.Sound past) {item : QueueItem} {rest : List QueueItem}
    (queue : a.queue = item :: rest) (fading : Fading (a.popped rest) b)
    (nothing : ∀ id t, b.sources.get? id = some t → t.active = true →
      named (item.headersOf id t.generation) = []) : Onward a past b past :=
  Fading.moved sound (fun _ member => queue ▸ List.mem_cons_of_mem item member) fading
    (fun wired => wired) (fun id t after active flows => flows.popped queue (nothing id t after active))
    (fun _ _ _ => rfl) (fun _ _ => rfl) sound.credited

/-- A header of an active source that had not its share yet is applied. -/
theorem taken_onward (sound : a.Sound past) {source : String} {generation : Nat} {header : Header}
    {rest : List QueueItem} (queue : a.queue = .header source generation header :: rest)
    (taken : (a.popped rest).takes source (some generation) header = true) :
    Onward a past ((a.popped rest).ingested source (some generation) header)
      (.accepted source (some generation) header :: past) := by
  obtain ⟨s, found, accepts, hash, _⟩ := ingested_taken taken
  obtain ⟨active, own⟩ : s.active = true ∧ generation = s.generation := by
    simpa [Source.accepts] using accepts
  have here : a.Flows past source generation := own ▸ sound.flows source s found active
  have flows : (a.popped rest).Flows (.accepted source (some generation) header :: past) source
      generation := here.accepted queue hash
  -- For other incarnations this is a header that is dropped.
  have others : ∀ {id g}, ¬ (source = id ∧ generation = g) →
      acceptedThrough id g (.accepted source (some generation) header :: past) =
        acceptedThrough id g past := fun other => if_neg other
  have filed : (a.popped rest).Filed := sound.filed
  refine Fading.moved sound (fun _ member => queue ▸ List.mem_cons_of_mem _ member)
    (ingested_fading filed source (some generation) header) (fun wired => wired.note (by simp))
    ?_ ?_ (fun _ _ => rfl) ?_
  · intro id t _ _ before
    by_cases same : source = id ∧ generation = t.generation
    · obtain ⟨rfl, same⟩ := same
      rw [← same]
      exact flows
    · have nothing : named ((QueueItem.header source generation header).headersOf id t.generation) = [] :=
        congrArg named (if_neg same)
      exact (before.popped queue nothing).congr rfl rfl (fun _ _ => rfl) (others same) rfl
  · intro id g finished
    refine others ?_
    rintro ⟨rfl, rfl⟩
    rw [finished.quiet s found own.symm] at active
    cases active
  · intro id g
    by_cases same : source = id ∧ generation = g
    · obtain ⟨rfl, rfl⟩ := same
      exact ⟨_, flows.whole⟩
    · rw [others same]
      exact sound.credited id g

/-- The news that an incarnation is closed ends its activity, and nothing of it is on its way then. -/
theorem closed_onward (sound : a.Sound past) {source : String} {generation : Nat}
    {state : SourceState} {rest : List QueueItem}
    (queue : a.queue = .closed source generation state :: rest) :
    Onward a past ((a.popped rest).closeSource source generation state) past := by
  rcases (a.popped rest).closeSource_cases source generation state with
    same | ⟨s, found, rfl, active, after⟩
  · rw [same]
    exact dropped_onward sound queue (.refl _) fun _ _ _ _ => rfl
  have filed : s.id = source := sound.filed source s found
  obtain ⟨gone, whole⟩ := (sound.flows source s found active).drained queue
  have entry : ∀ {id t}, ((a.popped rest).setAndPublish { s with active := false, state }).sources.get? id
      = some t → id = source ∧ t = { s with active := false, state } ∨ a.sources.get? id = some t := by
    intro id t there
    rw [get?_setAndPublish] at there
    split at there
    next same => exact .inl ⟨same.trans filed, (Option.some.inj there).symm⟩
    next => exact .inr there
  rw [after]
  apply Kept.onward sound
  exact
    { wired := sound.wired.congr rfl rfl (Nat.le_refl _)
      generations := rfl
      follows := fun id t there => by
        rcases entry there with ⟨rfl, rfl⟩ | before
        · exact ⟨s, found, rfl, rfl, fun active => absurd active Bool.false_ne_true⟩
        · exact ⟨t, before, rfl, rfl, fun active => active⟩
      queued := fun later member => sound.queued later (queue ▸ List.mem_cons_of_mem _ member)
      down := rfl
      flows := fun id t _ _ flows => (flows.popped queue rfl).congr rfl rfl (fun _ _ => rfl) rfl rfl
      gone := fun _ gone => gone
      accepted := fun _ _ _ => rfl
      published := fun _ _ _ => rfl
      ended := fun id t there ended => by
        rcases entry there with ⟨rfl, rfl⟩ | before
        · refine .inr ⟨sound.known id s found, gone, fun t there _ => ?_, whole⟩
          rw [get?_setAndPublish, if_pos filed.symm] at there
          rw [← Option.some.inj there]
        · exact .inl (sound.ended id t before ended)
      credited := sound.credited }

/-- The mutation loop takes one item from the queue. -/
theorem perform_onward (sound : a.Sound past) :
    Onward a past (a.act .perform) ((a.occurs? .perform).toList ++ past) := by
  simp only [act, performNext, occurs?]
  cases queue : a.queue with
  | nil => exact .refl sound
  | cons item rest =>
    cases item with
    | closed source generation state => exact closed_onward sound queue
    | header source generation header =>
      show Onward a past ((a.popped rest).ingested source (some generation) header) _
      dsimp only
      cases taken : a.takes source (some generation) header with
      | true => exact taken_onward sound queue taken
      | false =>
        have dropped : (a.popped rest).takes source (some generation) header = false := taken
        have filed : (a.popped rest).Filed := sound.filed
        refine dropped_onward sound queue (ingested_fading filed source _ header) ?_
        intro id t there active
        rcases ingested_dropped dropped with ⟨same, blank⟩ | ⟨s, found, after⟩
        · rw [same] at there
          -- What an active source does not count has no hash.
          by_cases own : source = id ∧ generation = t.generation
          · obtain ⟨rfl, rfl⟩ := own
            have hash := blank t there (by simp [Source.accepts, active])
            simp [QueueItem.headersOf, named, hash]
          · exact congrArg named (if_neg own)
        · have filed : s.id = source := sound.filed source s found
          rw [after] at there
          -- The source that has had its share is not active any more.
          refine congrArg named (if_neg ?_)
          rintro ⟨rfl, -⟩
          have own : source = (s.deactivate .capReached).id :=
            filed.symm.trans (s.deactivate_fades (by simp)).id.symm
          rw [get?_setAndPublish, if_pos own] at there
          rw [← Option.some.inj there, s.deactivate_active] at active
          cases active

/-! ## Adding a source -/

/-- Nothing is on its way to an incarnation that begins, and nothing was. -/
theorem Flows.begun (sound : a.Sound past) {id : String} {feed : Feed} {n : Nat}
    (subscribed : a.feed.subscribe id = .ok (feed, n)) :
    (a.begun id feed n).Flows (.added id (a.lastGeneration + 1) :: past) id
      (a.lastGeneration + 1) := by
  have wired := sound.wired
  obtain ⟨f, channel⟩ := wired.channel
  have other : ∀ item ∈ a.queue, item.generation ≠ a.lastGeneration + 1 := fun item member same =>
    absurd (sound.queued item member) (same ▸ Nat.not_succ_le_self _)
  obtain ⟨published, accepted⟩ := sound.unused id
  have new := wired.pump?_begun_new id feed n
  have line : (a.begun id feed n).headersOn n = [] := by
    rw [headersOn, (begun_lines channel subscribed).2.1, if_pos rfl]
    rfl
  have queue : (a.begun id feed n).queue.flatMap (·.headersOf id (a.lastGeneration + 1)) = [] :=
    List.flatMap_eq_nil_iff.2 fun item member => item.headersOf_other (other item member)
  refine ⟨?_, ?_, ?_, ?_⟩
  · intro p here
    rw [← Option.some.inj (new.symm.trans here)]
  · show acceptedThrough id _ past ++ named _ = named (publishedTo id _ past)
    rw [published, accepted, inFlight, behind_some new, queue, line]
    rfl
  · intro item member closes
    rw [item.closes_other (other item member)] at closes
    cases closes
  · refine List.pairwise_of_forall_mem_list fun item member later memberToo _ => ?_
    exact later.headersOf_other (other later memberToo)

theorem add_onward (sound : a.Sound past) (name : String) :
    Onward a past (a.act (.add name)) ((a.occurs? (.add name)).toList ++ past) := by
  have acts : a.act (.add name) = (a.addSource name).1 := rfl
  rw [acts]
  rcases a.addSource_cases name with
    ⟨after, note⟩ | ⟨feed, line, subscribed, up, after, note⟩ | ⟨reason, after, note⟩
  · rw [after, note]
    exact .refl sound
  · obtain ⟨f, channel⟩ := sound.wired.channel
    rw [after, note]
    refine Added.onward sound (t := .new (Text.trim name) (a.lastGeneration + 1)) ?_
    exact
      { wired := sound.wired.begun subscribed
        sources := rfl
        generation := rfl
        grown := rfl
        queue := rfl
        down := rfl
        up := fun _ => up
        lasts := by simp [Source.new]
        pump := fun g known => by
          rw [pump?_begun, if_neg (Nat.ne_of_lt (Nat.lt_succ_of_le known)), Option.or_none]
        lines := fun g p here => by
          have numbered := (sound.wired.sits g p here).numbered
          have own : p.line ≠ line :=
            (begun_lines channel subscribed).2.2.2.1 ▸ Nat.ne_of_lt numbered
          rw [headersOn, (begun_lines channel subscribed).2.1, if_neg own]
          exact headersOn_hungUp sound.wired.channel (Text.trim name) p.line
        accepted := fun _ _ => rfl
        published := fun _ _ => rfl
        flows := fun _ => .begun sound subscribed }
  · rw [after, note]
    apply Added.onward sound
      (t := (Source.new (Text.trim name) (a.lastGeneration + 1)).deactivate (.failed reason))
    exact
      { wired := sound.wired.congr rfl rfl (Nat.le_succ _)
        sources := rfl
        generation := rfl
        grown := rfl
        queue := rfl
        down := rfl
        up := fun active => by rw [Source.deactivate_active] at active; cases active
        lasts := by simp [Source.new, Source.deactivate]
        pump := fun _ _ => rfl
        lines := fun _ _ _ => rfl
        accepted := fun _ _ => rfl
        published := fun _ _ => rfl
        flows := fun active => by rw [Source.deactivate_active] at active; cases active }

/-! ## Every move -/

/-- Every move keeps what holds at any time, and what is finished stays so. -/
theorem act_onward (sound : a.Sound past) (m : Move) :
    Onward a past (a.act m) ((a.occurs? m).toList ++ past) := by
  cases m with
  | add name => exact add_onward sound name
  | stop id => exact (stopSource_fading sound.filed id).onward sound
  | remove id => exact (removeSource_fading id).onward sound
  | onHeader id header => exact onHeader_onward sound id header
  | publish source header => exact publish_onward sound source header
  | close source => exact hungUp_onward sound source
  | fail source reason => exact fail_onward sound source reason
  | refuse source => exact onChannel_onward sound (fun _ => rfl) fun _ => rfl
  | allow source => exact onChannel_onward sound (fun _ => rfl) fun _ => rfl
  | shutdown order => exact shutdown_onward sound order
  | forward generation => exact forward_onward sound generation
  | cancel generation => exact cancel_onward sound generation
  | perform => exact perform_onward sound

end Aggregator

end BlockGraph
