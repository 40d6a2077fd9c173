import BlockGraph.Proofs.Aggregator.Steps

/-!
# Headers on their way

What was published to an active source has been applied, or is on its way: on the queue, with the
pump, or on the line, in this order from the front to the back.

* `Flows` — nothing that was published to an incarnation is lost, doubled or overtaken.
* `Flows.passed`, `Flows.published`, `Flows.popped`, `Flows.accepted` — a header that moves on keeps
  its place.
* `Finished` — an incarnation that is over and had everything; it stays so.
-/

namespace BlockGraph

namespace QueueItem

/-- The headers that an item carries for an incarnation of a source. -/
def headersOf (id : String) (g : Nat) : QueueItem → List Header
  | .header source generation carried =>
    if source = id ∧ generation = g then [carried] else []
  | .closed .. => []

/-- Whether an item tells that an incarnation of a source is closed. -/
def closes (id : String) (g : Nat) : QueueItem → Bool
  | .header .. => false
  | .closed source generation _ => source = id && generation = g

/-- The generation that an item belongs to. -/
def generation : QueueItem → Nat
  | .header _ generation _ => generation
  | .closed _ generation _ => generation

variable {id : String} {g : Nat} {item : QueueItem}

theorem headersOf_other (other : item.generation ≠ g) : item.headersOf id g = [] := by
  cases item with
  | header source generation carried => exact if_neg fun same => other same.2
  | closed => rfl

theorem closes_other (other : item.generation ≠ g) : item.closes id g = false := by
  cases item with
  | header => rfl
  | closed source generation state =>
    have differ : generation ≠ g := other
    simp [closes, differ]

end QueueItem

theorem named_append (hs ks : List Header) : named (hs ++ ks) = named hs ++ named ks :=
  List.filter_append ..

namespace Aggregator

open Occurrence

variable {a b : Aggregator} {past later : List Occurrence} {id : String} {g : Nat}

/-- The headers that are on a line. -/
def headersOn (a : Aggregator) (n : Nat) : List Header :=
  ((a.line? n).map fun line => line.queue.filterMap Except.toOption).getD []

/-- The headers that have not reached the queue: what the pump holds, and what is on its line. -/
def behind (a : Aggregator) (id : String) (g : Nat) : List Header :=
  ((a.pump? g).map fun p =>
    p.holding.toList.flatMap (·.headersOf id g) ++ a.headersOn p.line).getD []

/-- The headers that have not been applied yet. -/
def inFlight (a : Aggregator) (id : String) (g : Nat) : List Header :=
  a.queue.flatMap (·.headersOf id g) ++ a.behind id g

/-- What was published to an incarnation has been applied, in this order, or is on its way. When the
news that it is closed is on the queue, nothing is behind that. -/
structure Flows (a : Aggregator) (past : List Occurrence) (id : String) (g : Nat) : Prop where
  owner : ∀ p, a.pump? g = some p → p.source = id
  whole : acceptedThrough id g past ++ named (a.inFlight id g) = named (publishedTo id g past)
  parted : ∀ item ∈ a.queue, item.closes id g = true → a.pump? g = none
  ordered : a.queue.Pairwise fun item later => item.closes id g = true → later.headersOf id g = []

/-- An incarnation that is over, and of which everything that was published was applied. -/
structure Finished (a : Aggregator) (past : List Occurrence) (id : String) (g : Nat) : Prop where
  known : g ≤ a.lastGeneration
  gone : a.pump? g = none
  quiet : ∀ s, a.sources.get? id = some s → s.generation = g → s.active = false
  whole : acceptedThrough id g past = named (publishedTo id g past)

theorem behind_some {p : Pump} (here : a.pump? g = some p) :
    a.behind id g = p.holding.toList.flatMap (·.headersOf id g) ++ a.headersOn p.line := by
  rw [behind, here]
  rfl

theorem behind_none (gone : a.pump? g = none) : a.behind id g = [] := by
  rw [behind, gone]
  rfl

theorem headersOn_withLine (n m : Nat) (line : Line) :
    (a.withLine n line).headersOn m =
      if m = n then line.queue.filterMap Except.toOption else a.headersOn m := by
  rw [headersOn, line?_withLine]
  split <;> rfl

theorem headersOn_hungUp (channel : ∃ f, a.feed = .channel f) (source : String) (n : Nat) :
    (a.hungUp source).headersOn n = a.headersOn n := by
  obtain ⟨f, channel⟩ := channel
  rw [headersOn, (hungUp_lines channel source).2.1, headersOn]
  split
  · cases a.line? n <;> rfl
  · rfl

/-! ## What does not concern an incarnation -/

/-- Only the pump, its line and the queue count. -/
theorem Flows.congr (flows : a.Flows past id g) (pump : b.pump? g = a.pump? g)
    (queue : b.queue = a.queue)
    (lines : ∀ p, a.pump? g = some p → b.headersOn p.line = a.headersOn p.line)
    (accepted : acceptedThrough id g later = acceptedThrough id g past)
    (published : publishedTo id g later = publishedTo id g past) : b.Flows later id g := by
  have behind : b.behind id g = a.behind id g := by
    cases here : a.pump? g with
    | none => rw [behind_none here, behind_none (pump.trans here)]
    | some p => rw [behind_some here, behind_some (pump.trans here), lines p here]
  refine ⟨pump ▸ flows.owner, ?_, ?_, queue ▸ flows.ordered⟩
  · rw [inFlight, behind, queue, accepted, published]
    exact flows.whole
  · rw [queue, pump]
    exact flows.parted

/-- An item of another incarnation goes on the queue. -/
theorem Flows.push (flows : a.Flows past id g) {item : QueueItem} (other : item.generation ≠ g) :
    (a.push item).Flows past id g := by
  refine ⟨flows.owner, ?_, ?_, ?_⟩
  · have same : (a.push item).inFlight id g = a.inFlight id g := by
      show (a.queue ++ [item]).flatMap _ ++ a.behind id g = _
      simp [item.headersOf_other other, inFlight]
    rw [same]
    exact flows.whole
  · intro queued member closes
    rcases List.mem_append.1 member with old | new
    · exact flows.parted queued old closes
    · rw [List.mem_singleton.1 new, item.closes_other other] at closes
      cases closes
  · refine List.pairwise_append.2 ⟨flows.ordered, List.pairwise_singleton .., ?_⟩
    intro _ _ later new _
    rw [List.mem_singleton.1 new]
    exact item.headersOf_other other

/-- A pump ends; other incarnations do not notice. -/
theorem Flows.endPump (wired : a.Wired past) (flows : a.Flows past id g) {h : Nat} {p : Pump}
    (here : a.pump? h = some p) (other : g ≠ h) : (a.endPump p).Flows past id g := by
  refine flows.congr ?_ rfl (fun q there => ?_) rfl rfl
  · rw [pump?_endPump, pump?_generation here, if_neg other]
  · rw [headersOn, line?_endPump, if_neg fun same => other (wired.apart g h q p there here same)]
    rfl

/-! ## Steps of the pump -/

/-- A step of another incarnation's pump. -/
theorem Flows.passed_other (wired : a.Wired past) (flows : a.Flows past id g) {h : Nat} {p : Pump}
    (here : a.pump? h = some p) (other : g ≠ h) (passed : Passed a p b) : b.Flows past id g := by
  have generation := pump?_generation here
  have otherToo : p.generation ≠ g := fun same => other (same.symm.trans generation)
  have apart : ∀ q, a.pump? g = some q → q.line ≠ p.line :=
    fun q there same => other (wired.apart g h q p there here same)
  have changed : ∀ (c : Aggregator) (q : Pump), c.Flows past id g → q.generation = h →
      (c.setPump q).Flows past id g := fun c q flows same =>
    flows.congr (by rw [pump?_setPump, same, if_neg other]) rfl (fun _ _ => rfl) rfl rfl
  have relined : ∀ line, (a.withLine p.line line).Flows past id g := fun line =>
    flows.congr rfl rfl
      (fun q there => by rw [headersOn_withLine, if_neg (apart q there)]) rfl rfl
  cases passed with
  | stayed => exact flows
  | queued header =>
    have pushed : (a.push (.header p.source p.generation header)).Flows past id g :=
      flows.push otherToo
    exact changed _ _ pushed generation
  | closed state =>
    have pushed : (a.push (.closed p.source p.generation state)).Flows past id g :=
      flows.push otherToo
    have wiredToo : (a.push (.closed p.source p.generation state)).Wired past :=
      wired.congr rfl rfl (Nat.le_refl _)
    exact pushed.endPump wiredToo here other
  | taken => exact changed _ _ (relined _) generation
  | failed => exact changed _ _ (relined _) generation
  | ended => exact changed _ _ flows generation

/-- A step of the incarnation's own pump that leaves the queue as it is. -/
theorem Flows.held (flows : a.Flows past id g) {p : Pump} (here : a.pump? g = some p)
    {q : Pump} (pump : b.pump? g = some q) (source : q.source = p.source) (queue : b.queue = a.queue)
    (behind : b.behind id g = a.behind id g) : b.Flows past id g := by
  refine ⟨?_, ?_, ?_, queue ▸ flows.ordered⟩
  · intro r there
    rw [← Option.some.inj (pump.symm.trans there), source]
    exact flows.owner p here
  · rw [inFlight, behind, queue]
    exact flows.whole
  · intro item member closes
    have gone := flows.parted item (queue ▸ member) closes
    rw [here] at gone
    cases gone

/-- As long as the pump is there, no news that the source is closed is on the queue. -/
theorem Flows.not_closed (flows : a.Flows past id g) {p : Pump} (here : a.pump? g = some p)
    {item : QueueItem} (member : item ∈ a.queue) : item.closes id g = false := by
  cases closes : item.closes id g with
  | false => rfl
  | true =>
    have gone := flows.parted item member closes
    rw [here] at gone
    cases gone

/-- The incarnation's own pump puts an item on the queue. -/
theorem Flows.pushed (flows : a.Flows past id g) {p : Pump} (here : a.pump? g = some p) {item : QueueItem}
    (queue : b.queue = a.queue ++ [item]) (owner : ∀ q, b.pump? g = some q → q.source = id)
    (front : item.headersOf id g ++ b.behind id g = a.behind id g)
    (parted : item.closes id g = true → b.pump? g = none) : b.Flows past id g := by
  refine ⟨owner, ?_, ?_, ?_⟩
  · have same : b.inFlight id g = a.inFlight id g := by
      rw [inFlight, queue, List.flatMap_append, List.flatMap_singleton, List.append_assoc, front, inFlight]
    rw [same]
    exact flows.whole
  · intro other member closes
    rw [queue] at member
    rcases List.mem_append.1 member with old | new
    · rw [flows.not_closed here old] at closes
      cases closes
    · exact parted (List.mem_singleton.1 new ▸ closes)
  · rw [queue]
    refine List.pairwise_append.2 ⟨flows.ordered, List.pairwise_singleton .., ?_⟩
    intro other member _ _ closes
    rw [flows.not_closed here member] at closes
    cases closes

/-- A step of the incarnation's own pump. -/
theorem Flows.passed_own (wired : a.Wired past) (flows : a.Flows past id g) {p : Pump}
    (here : a.pump? g = some p) (passed : Passed a p b) : b.Flows past id g := by
  have generation := pump?_generation here
  obtain rfl := flows.owner p here
  have set : ∀ (c : Aggregator) (q : Pump), c.pump? g = a.pump? g → q.generation = g →
      (c.setPump q).pump? g = some q := by
    intro c q same now
    rw [pump?_setPump, now, if_pos rfl, same, here]
    rfl
  cases passed with
  | stayed => exact flows
  | queued header more holds =>
    have now := set (a.push (.header p.source p.generation header)) { p with holding := none } rfl
      generation
    refine flows.pushed here rfl ?_ ?_ nofun
    · intro q there
      rw [← Option.some.inj (now.symm.trans there)]
    · rw [behind_some now, behind_some here, holds]
      simp only [Option.toList_some, List.flatMap_singleton]
      rfl
  | closed state last holds =>
    have gone : ((a.push (.closed p.source p.generation state)).endPump p).pump? g = none := by
      rw [pump?_endPump, if_pos generation.symm]
    -- A pump that has come to its end has an empty line.
    have empty : a.headersOn p.line = [] := by
      obtain ⟨_, _, _, line, read, _, drained⟩ := wired.sits g p here
      rw [headersOn, read, Option.map_some, (drained last).1]
      rfl
    refine flows.pushed here rfl ?_ ?_ fun _ => gone
    · intro q there
      rw [gone] at there
      cases there
    · rw [behind_none gone, behind_some here, holds, empty]
      rfl
  | taken line header rest idle more read first =>
    have now := set (a.withLine p.line ⟨rest, line.isOpen⟩)
      { p with holding := some (.header p.source p.generation header) } rfl generation
    refine flows.held here now rfl rfl ?_
    rw [behind_some now, behind_some here, idle]
    show _ ++ (a.withLine _ _).headersOn p.line = _
    rw [headersOn_withLine, if_pos rfl, headersOn, read, Option.map_some, first]
    simp [QueueItem.headersOf, generation, Except.toOption]
  | failed line error rest idle more read first =>
    have now := set (a.withLine p.line ⟨rest, line.isOpen⟩)
      { p with
        holding := some (.closed p.source p.generation (.failed error.message))
        isLast := true } rfl generation
    refine flows.held here now rfl rfl ?_
    rw [behind_some now, behind_some here, idle]
    show _ ++ (a.withLine _ _).headersOn p.line = _
    rw [headersOn_withLine, if_pos rfl, headersOn, read, Option.map_some, first]
    simp only [Option.toList_some, List.flatMap_singleton, QueueItem.headersOf]
    rfl
  | ended line idle more read empty hungUp =>
    have now := set a
      { p with holding := some (.closed p.source p.generation .ended), isLast := true } rfl generation
    refine flows.held here now rfl rfl ?_
    rw [behind_some now, behind_some here, idle]
    rfl

/-- A step of a pump keeps every header in its place. -/
theorem Flows.passed (wired : a.Wired past) (flows : a.Flows past id g) {h : Nat} {p : Pump}
    (here : a.pump? h = some p) (passed : Passed a p b) : b.Flows past id g := by
  by_cases own : g = h
  · subst own
    exact flows.passed_own wired here passed
  · exact flows.passed_other wired here own passed

/-! ## Publishing -/

theorem publishedTo_published (source : String) (header : Header) :
    publishedTo id g (.published source header :: past) =
      if source = id ∧ holder? id past = some g then publishedTo id g past ++ [header]
      else publishedTo id g past := rfl

theorem holder?_added {id : String} {g : Nat} (holds : holder? id past = some g) :
    .added id g ∈ past := by
  induction past with
  | nil => cases holds
  | cons o past ih =>
    cases o with
    | added source generation =>
      rw [holder?] at holds
      split at holds
      next same =>
        rw [same, Option.some.inj holds]
        exact List.mem_cons_self
      next => exact List.mem_cons_of_mem _ (ih holds)
    | published source header => exact List.mem_cons_of_mem _ (ih holds)
    | accepted source generation header => exact List.mem_cons_of_mem _ (ih holds)

/-- Nothing is published to an incarnation before it is added. -/
theorem publishedTo_unknown {id : String} {g : Nat} (unknown : .added id g ∉ past) :
    publishedTo id g past = [] := by
  induction past with
  | nil => rfl
  | cons o past ih =>
    have before : .added id g ∉ past := fun member => unknown (List.mem_cons_of_mem o member)
    cases o with
    | added source generation => exact ih before
    | accepted source generation header => exact ih before
    | published source header =>
      rw [publishedTo_published, if_neg fun held => before (holder?_added held.2)]
      exact ih before

/-- A header is published to the incarnation whose pump reads the current line. -/
theorem published_iff (wired : a.Wired past) {source : String} {n : Nat} {line : Line}
    (current : a.currentLine? source = some n) (read : a.line? n = some line)
    (owner : ∀ p, a.pump? g = some p → p.source = id) :
    (source = id ∧ holder? id past = some g) ↔ ∃ p, a.pump? g = some p ∧ p.line = n := by
  constructor
  · rintro ⟨rfl, holder⟩
    obtain ⟨_, _, h, p, here, reads, _, holds⟩ := (wired.current source n current).2 line read
    obtain rfl := Option.some.inj (holder.symm.trans holds)
    exact ⟨p, here, reads⟩
  · rintro ⟨p, here, reads⟩
    obtain ⟨source', holder⟩ := wired.current_unique current read here reads
    obtain rfl := source'.symm.trans (owner p here)
    exact ⟨rfl, holder⟩

/-- A header that is published comes behind all others of its incarnation. -/
theorem Flows.published (wired : a.Wired past) (flows : a.Flows past id g) {source : String}
    {header : Header} {n : Nat} {line : Line} (current : a.currentLine? source = some n)
    (read : a.line? n = some line) :
    (a.withLine n { line with queue := line.queue ++ [.ok header] }).Flows
      (.published source header :: past) id g := by
  have reader := published_iff wired current read flows.owner
  -- Either the pump of the incarnation reads this line, or the header is for another one.
  by_cases reads : ∃ p, a.pump? g = some p ∧ p.line = n
  · have grown := (publishedTo_published source header).trans (if_pos (reader.2 reads))
    obtain ⟨p, here, rfl⟩ := reads
    refine ⟨flows.owner, ?_, flows.parted, flows.ordered⟩
    have now : (a.withLine p.line { line with queue := line.queue ++ [.ok header] }).inFlight id g =
        a.inFlight id g ++ [header] := by
      have there : (a.withLine p.line { line with queue := line.queue ++ [.ok header] }).pump? g =
          some p := here
      rw [inFlight, behind_some there, headersOn_withLine, if_pos rfl, inFlight, behind_some here,
        headersOn, read]
      show a.queue.flatMap _ ++ _ = _
      simp [Except.toOption]
    rw [now, grown, named_append, named_append, ← List.append_assoc]
    exact congrArg (· ++ named [header]) flows.whole
  · refine flows.congr rfl rfl (fun p here => ?_) rfl ?_
    · rw [headersOn_withLine, if_neg fun same => reads ⟨p, here, same⟩]
    · exact (publishedTo_published source header).trans (if_neg (mt reader.1 reads))

/-! ## The front of the queue -/

/-- An item leaves the queue that holds nothing for the incarnation. -/
theorem Flows.popped (flows : a.Flows past id g) {item : QueueItem} {rest : List QueueItem}
    (queue : a.queue = item :: rest) (nothing : named (item.headersOf id g) = []) :
    { a with queue := rest }.Flows past id g := by
  refine ⟨flows.owner, ?_, ?_, ?_⟩
  · have whole := flows.whole
    rw [inFlight, queue, List.flatMap_cons, List.append_assoc, named_append, nothing] at whole
    exact whole
  · intro later member
    exact flows.parted later (queue ▸ List.mem_cons_of_mem item member)
  · exact (List.pairwise_cons.1 (queue ▸ flows.ordered)).2

/-- A header of the incarnation leaves the queue and is applied. -/
theorem Flows.accepted (flows : a.Flows past id g) {header : Header} {rest : List QueueItem}
    (queue : a.queue = .header id g header :: rest) (hash : header.isBlank = false) :
    { a with queue := rest }.Flows (.accepted id (some g) header :: past) id g := by
  refine ⟨flows.owner, ?_, ?_, ?_⟩
  · have one : acceptedThrough id g (.accepted id (some g) header :: past) =
        acceptedThrough id g past ++ [header] := if_pos ⟨rfl, rfl⟩
    have first : (QueueItem.header id g header).headersOf id g = [header] := if_pos ⟨rfl, rfl⟩
    have whole := flows.whole
    rw [inFlight, queue, List.flatMap_cons, first, List.append_assoc, named_append] at whole
    have keeps : named [header] = [header] := by simp [named, hash]
    rw [one, List.append_assoc, ← keeps]
    exact whole
  · intro later member
    exact flows.parted later (queue ▸ List.mem_cons_of_mem _ member)
  · exact (List.pairwise_cons.1 (queue ▸ flows.ordered)).2

/-- When the news that the incarnation is closed comes off the queue, everything has been applied. -/
theorem Flows.drained (flows : a.Flows past id g) {state : SourceState} {rest : List QueueItem}
    (queue : a.queue = .closed id g state :: rest) :
    a.pump? g = none ∧ acceptedThrough id g past = named (publishedTo id g past) := by
  have closes : (QueueItem.closed id g state).closes id g = true := by simp [QueueItem.closes]
  have gone := flows.parted _ (by rw [queue]; exact List.mem_cons_self) closes
  have ordered := flows.ordered
  rw [queue] at ordered
  -- Nothing of the incarnation is behind that news, neither on the queue nor with a pump.
  have empty : rest.flatMap (·.headersOf id g) = [] := by
    rw [List.flatMap_eq_nil_iff]
    exact fun item member => (List.pairwise_cons.1 ordered).1 item member closes
  have whole := flows.whole
  rw [inFlight, queue, behind_none gone, List.flatMap_cons, empty] at whole
  exact ⟨gone, by simpa [QueueItem.headersOf, named] using whole⟩

end Aggregator

end BlockGraph
